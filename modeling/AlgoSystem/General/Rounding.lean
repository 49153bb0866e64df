import Mathlib.Data.Rat.Floor
import Mathlib.Algebra.Order.Round
import Mathlib.Tactic.FieldSimp
import Mathlib.Tactic.Linarith
import Mathlib.Tactic.Ring

/-!
# Rounding to decimal places

`roundTo n x` rounds to `n` places, halves to the even digit. Values of at most `n` places are its
fixed points; they are closed under the arithmetic of amounts.
-/

namespace AlgoSystem.General

variable {places : ℕ} {x : ℚ}

def roundHalfEven (x : ℚ) : ℤ :=
  if x - ⌊x⌋ < 1 / 2 then ⌊x⌋
  else if 1 / 2 < x - ⌊x⌋ then ⌊x⌋ + 1
  else if ⌊x⌋ % 2 = 0 then ⌊x⌋
  else ⌊x⌋ + 1

def roundTo (places : ℕ) (x : ℚ) : ℚ := roundHalfEven (x * 10 ^ places) / 10 ^ places

def HasPlaces (places : ℕ) (x : ℚ) : Prop := roundTo places x = x

instance (places : ℕ) (x : ℚ) : Decidable (HasPlaces places x) :=
  inferInstanceAs (Decidable (_ = _))

@[simp] theorem roundHalfEven_intCast (n : ℤ) : roundHalfEven n = n := by
  simp [roundHalfEven]

theorem floor_le_roundHalfEven (x : ℚ) : ⌊x⌋ ≤ roundHalfEven x ∧ roundHalfEven x ≤ ⌊x⌋ + 1 := by
  unfold roundHalfEven
  split_ifs <;> omega

/-- Numbers that round to the same are near each other. -/
theorem lt_add_two_of_roundTo_eq {y : ℚ} (same : roundTo places x = roundTo places y) :
    y < x + 2 := by
  have scale : (1 : ℚ) ≤ 10 ^ places := one_le_pow₀ (by norm_num)
  have positive : (0 : ℚ) < 10 ^ places := one_pos.trans_le scale
  rw [roundTo, roundTo, div_left_inj' positive.ne', Int.cast_inj] at same
  have floors : (⌊y * 10 ^ places⌋ : ℚ) ≤ ⌊x * 10 ^ places⌋ + 1 := by
    exact_mod_cast (floor_le_roundHalfEven _).1.trans (same ▸ (floor_le_roundHalfEven _).2)
  have below := Int.floor_le (x * 10 ^ places)
  have above := Int.lt_floor_add_one (y * 10 ^ places)
  refine lt_of_mul_lt_mul_right ?_ positive.le
  rw [add_mul]
  linarith

theorem hasPlaces_iff : HasPlaces places x ↔ ∃ n : ℤ, x = n / 10 ^ places := by
  constructor
  · intro fixed
    exact ⟨_, fixed.symm⟩
  · rintro ⟨n, rfl⟩
    have whole : (n : ℚ) / 10 ^ places * 10 ^ places = n := by field_simp
    rw [HasPlaces, roundTo, whole, roundHalfEven_intCast]

theorem HasPlaces.sub {y : ℚ} (hx : HasPlaces places x) (hy : HasPlaces places y) :
    HasPlaces places (x - y) := by
  obtain ⟨m, rfl⟩ := hasPlaces_iff.mp hx
  obtain ⟨n, rfl⟩ := hasPlaces_iff.mp hy
  refine hasPlaces_iff.mpr ⟨m - n, ?_⟩
  push_cast
  ring

theorem HasPlaces.mul_natCast (hx : HasPlaces places x) (n : ℕ) : HasPlaces places (x * n) := by
  obtain ⟨m, rfl⟩ := hasPlaces_iff.mp hx
  refine hasPlaces_iff.mpr ⟨m * n, ?_⟩
  push_cast
  ring

end AlgoSystem.General
