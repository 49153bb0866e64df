import Mathlib.Algebra.Order.Group.Nat
import Mathlib.Data.Nat.ModEq

/-!
# Dates of the proleptic Gregorian calendar

The ordinal of a date counts the days from the first day of the year 1, which has the ordinal 1.
-/

namespace AlgoSystem.General

def isLeap (year : Nat) : Bool := year % 4 = 0 && (year % 100 ≠ 0 || year % 400 = 0)

def daysInMonth (leap : Bool) : Nat → Nat
  | 2 => if leap then 29 else 28
  | 4 | 6 | 9 | 11 => 30
  | _ => 31

def daysBeforeMonth (leap : Bool) : Nat → Nat
  | 0 | 1 => 0
  | month + 1 => daysBeforeMonth leap month + daysInMonth leap month

def daysBeforeYear (year : Nat) : Nat :=
  (year - 1) * 365 + (year - 1) / 4 - (year - 1) / 100 + (year - 1) / 400

structure Date where
  year : Nat
  month : Nat
  day : Nat
  valid : 1 ≤ year ∧ 1 ≤ month ∧ month ≤ 12 ∧ 1 ≤ day ∧ day ≤ daysInMonth (isLeap year) month
  deriving DecidableEq

namespace Date

def toordinal (date : Date) : Nat :=
  daysBeforeYear date.year + daysBeforeMonth (isLeap date.year) date.month + date.day

def monthIndex (date : Date) : Nat := 12 * date.year + date.month

end Date

theorem daysInMonth_le (leap : Bool) (month : Nat) : daysInMonth leap month ≤ 31 := by
  unfold daysInMonth
  split
  · cases leap <;> decide
  all_goals decide

theorem daysBeforeMonth_add_le {leap : Bool} {month later : Nat} (first : 1 ≤ month)
    (order : month < later) :
    daysBeforeMonth leap month + daysInMonth leap month ≤ daysBeforeMonth leap later := by
  induction order with
  | refl =>
    obtain ⟨month, rfl⟩ := Nat.exists_eq_add_of_le' first
    exact Nat.le_refl _
  | @step later order ih =>
    obtain ⟨n, rfl⟩ := Nat.exists_eq_add_of_le' (first.trans (Nat.le_of_lt order))
    exact ih.trans (Nat.le_add_right _ _)

theorem daysBeforeMonth_thirteen (leap : Bool) :
    daysBeforeMonth leap 13 = if leap then 366 else 365 := by
  cases leap <;> rfl

theorem isLeap_iff (year : Nat) : isLeap year = true ↔ 4 ∣ year ∧ (¬ 100 ∣ year ∨ 400 ∣ year) := by
  simp [isLeap, Nat.dvd_iff_mod_eq_zero]

theorem daysBeforeYear_succ {year : Nat} (first : 1 ≤ year) :
    daysBeforeYear (year + 1) = daysBeforeYear year + daysBeforeMonth (isLeap year) 13 := by
  obtain ⟨n, rfl⟩ := Nat.exists_eq_add_of_le' first
  rw [daysBeforeMonth_thirteen]
  simp only [daysBeforeYear, Nat.add_sub_cancel, isLeap_iff, Nat.succ_div]
  -- The centuries before a year are fewer than the years, so that nothing is cut off.
  have centuries : n / 100 ≤ n / 4 := Nat.div_le_div_left (by decide) (by decide)
  by_cases century : 100 ∣ n + 1
  · have leap : 4 ∣ n + 1 := (by decide : 4 ∣ 100).trans century
    by_cases era : 400 ∣ n + 1 <;> simp only [century, leap, era, if_true, if_false, not_true,
      false_or, or_false, and_true, and_false] <;> omega
  · have era : ¬ 400 ∣ n + 1 := fun era => century ((by decide : 100 ∣ 400).trans era)
    by_cases leap : 4 ∣ n + 1 <;> simp only [century, leap, era, if_true, if_false, not_false_iff,
      true_or, and_true] <;> omega

theorem daysBeforeYear_mono {year later : Nat} (first : 1 ≤ year) (order : year ≤ later) :
    daysBeforeYear year ≤ daysBeforeYear later := by
  induction order with
  | refl => exact Nat.le_refl _
  | step order ih =>
    rw [daysBeforeYear_succ (first.trans order)]
    exact ih.trans (Nat.le_add_right _ _)

theorem Date.toordinal_lt_of_monthIndex {a b : Date} (order : a.monthIndex < b.monthIndex) :
    a.toordinal < b.toordinal := by
  obtain ⟨_, firstA, lastA, _, endA⟩ := a.valid
  obtain ⟨_, firstB, lastB, beginB, _⟩ := b.valid
  unfold monthIndex at order
  unfold toordinal
  rcases Nat.lt_trichotomy a.year b.year with earlier | same | later
  · -- The year of `a` ends before the year of `b` begins.
    have within : daysBeforeMonth (isLeap a.year) a.month + daysInMonth (isLeap a.year) a.month ≤
        daysBeforeMonth (isLeap a.year) 13 := daysBeforeMonth_add_le firstA (by omega)
    have next := daysBeforeYear_succ a.valid.1
    have ends := @daysBeforeYear_mono (a.year + 1) b.year (by omega) earlier
    omega
  · rw [same] at endA ⊢
    have months := @daysBeforeMonth_add_le (isLeap b.year) a.month b.month firstA (by omega)
    omega
  · omega

end AlgoSystem.General
