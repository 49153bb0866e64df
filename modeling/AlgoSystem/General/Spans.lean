import Mathlib.Algebra.BigOperators.Group.List.Basic
import Mathlib.Algebra.Order.Group.Defs
import Mathlib.Tactic.Abel

/-!
# Spans of a growing quantity

A span is the pair of a quantity's values at its start and its end. Spans in order between two
values total at most their difference, and exactly that if each starts where the one before has
ended.
-/

namespace AlgoSystem.General.Spans

variable {G : Type*} [LinearOrder G] {a x y z z' : G} {spans : List (G × G)}

def Between : G → List (G × G) → G → Prop
  | a, [], z => a ≤ z
  | a, span :: spans, z => a ≤ span.1 ∧ span.1 ≤ span.2 ∧ Between span.2 spans z

def Joined : G → List (G × G) → G → Prop
  | a, [], z => a = z
  | a, span :: spans, z => a = span.1 ∧ Joined span.2 spans z

instance Joined.decidable : ∀ (a : G) (spans : List (G × G)) (z : G), Decidable (Joined a spans z)
  | a, [], z => inferInstanceAs (Decidable (a = z))
  | a, span :: spans, z =>
    have := Joined.decidable span.2 spans z
    inferInstanceAs (Decidable (a = span.1 ∧ Joined span.2 spans z))

section Total
variable {H : Type*} [AddCommGroup H]

def total (spans : List (H × H)) : H := (spans.map fun span => span.2 - span.1).sum

theorem total_append (spans spans' : List (H × H)) :
    total (spans ++ spans') = total spans + total spans' := by
  simp [total]

end Total

variable [AddCommGroup G] [IsOrderedAddMonoid G]

theorem Between.total_le (between : Between a spans z) : total spans ≤ z - a := by
  induction spans generalizing a with
  | nil => simpa [total, Between] using between
  | cons span spans ih =>
    have rest := ih between.2.2
    have gap : 0 ≤ span.1 - a := sub_nonneg.mpr between.1
    calc total (span :: spans) = (span.2 - span.1) + total spans := by simp [total]
      _ ≤ (span.1 - a) + ((span.2 - span.1) + (z - span.2)) :=
          le_add_of_nonneg_of_le gap (by gcongr)
      _ = z - a := by abel

theorem Between.total_eq_iff (between : Between a spans z) :
    total spans = z - a ↔ Joined a spans z := by
  induction spans generalizing a with
  | nil => simp [total, Joined, eq_comm, sub_eq_zero]
  | cons span spans ih =>
    have rest := between.2.2.total_le
    have split : z - a - total (span :: spans) =
        (span.1 - a) + (z - span.2 - total spans) := by
      simp only [total, List.map_cons, List.sum_cons]
      abel
    have gap : 0 ≤ span.1 - a := sub_nonneg.mpr between.1
    rw [Joined, ← ih between.2.2]
    constructor
    · intro equal
      rw [equal, sub_self] at split
      have both := (add_eq_zero_iff_of_nonneg gap (sub_nonneg.mpr rest)).mp split.symm
      exact ⟨(sub_eq_zero.mp both.1).symm, (sub_eq_zero.mp both.2).symm⟩
    · rintro ⟨joined, equal⟩
      rw [joined, equal, sub_self, sub_self, add_zero] at split
      rw [joined]
      exact (sub_eq_zero.mp split).symm

end AlgoSystem.General.Spans
