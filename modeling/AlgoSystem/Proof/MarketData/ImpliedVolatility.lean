import AlgoSystem.MarketData.OptionsIntelligence
import Mathlib.Topology.Order.IntermediateValue
import Mathlib.Topology.Instances.Real.Lemmas

namespace AlgoSystem.Proof.MarketData.ImpliedVolatility
open AlgoSystem.MarketData Set

variable {price : ℝ → ℝ} {lo hi target x : ℝ}

def Nearest (price : ℝ → ℝ) (lo hi target x : ℝ) : Prop :=
  x ∈ Icc lo hi ∧ ∀ y ∈ Icc lo hi, |price x - target| ≤ |price y - target|

/-- Below the point the prices are less than the target, above it they are greater. -/
structure Splits (price : ℝ → ℝ) (lo hi target x : ℝ) : Prop where
  within : x ∈ Icc lo hi
  below : ∀ y ∈ Icc lo hi, y < x → price y < target
  above : ∀ y ∈ Icc lo hi, x < y → target < price y
  nearest : ∀ y ∈ Icc lo hi, y ≠ x → |price x - target| < |price y - target|

theorem exists_splits (bracket : lo < hi) (continuous : ContinuousOn price (Icc lo hi))
    (increasing : StrictMonoOn price (Icc lo hi)) (target : ℝ) :
    ∃ x, Splits price lo hi target x := by
  have first : lo ∈ Icc lo hi := left_mem_Icc.mpr bracket.le
  have last : hi ∈ Icc lo hi := right_mem_Icc.mpr bracket.le
  obtain early | late := lt_or_ge target (price lo)
  · have above : ∀ y ∈ Icc lo hi, lo < y → price lo < price y :=
      fun y mem later => increasing first mem later
    refine ⟨lo, first, fun y mem less => absurd less mem.1.not_gt, ?_, ?_⟩
    · intro y mem later
      exact early.trans (above y mem later)
    · intro y mem other
      have more := above y mem (mem.1.lt_of_ne other.symm)
      rw [abs_of_pos (sub_pos.mpr early), abs_of_pos (sub_pos.mpr (early.trans more))]
      exact sub_lt_sub_right more target
  obtain past | reached := lt_or_ge (price hi) target
  · have below : ∀ y ∈ Icc lo hi, y < hi → price y < price hi :=
      fun y mem before => increasing mem last before
    refine ⟨hi, last, ?_, fun y mem more => absurd more mem.2.not_gt, ?_⟩
    · intro y mem before
      exact (below y mem before).trans past
    · intro y mem other
      have less := below y mem (mem.2.lt_of_ne other)
      rw [abs_of_neg (sub_neg.mpr past), abs_of_neg (sub_neg.mpr (less.trans past))]
      exact neg_lt_neg (sub_lt_sub_right less target)
  · obtain ⟨x, within, rfl⟩ := intermediate_value_Icc bracket.le continuous ⟨late, reached⟩
    refine ⟨x, within, ?_, ?_, ?_⟩
    · intro y mem before
      exact increasing mem within before
    · intro y mem after
      exact increasing within mem after
    · intro y mem other
      rw [sub_self, abs_zero, abs_pos, sub_ne_zero]
      exact fun same => other (increasing.injOn mem within same)

theorem Splits.nearest_iff (splits : Splits price lo hi target x) (y : ℝ) :
    Nearest price lo hi target y ↔ y = x := by
  constructor
  · rintro ⟨mem, least⟩
    by_contra other
    exact (splits.nearest y mem other).not_ge (least x splits.within)
  · intro same
    subst same
    refine ⟨splits.within, ?_⟩
    intro z mem
    obtain equal | other := eq_or_ne z y
    · rw [equal]
    · exact (splits.nearest z mem other).le

theorem bisect_spec (splits : Splits price lo hi target x) (tolerance : ℝ) (n : Nat) {a b : ℝ}
    (low : lo ≤ a) (high : b ≤ hi) (mem : x ∈ Icc a b) :
    bisect price target tolerance n a b ∈ Icc a b ∧
      (|price (bisect price target tolerance n a b) - target| < tolerance ∨
        |bisect price target tolerance n a b - x| ≤ (b - a) / 2 ^ (n + 1)) := by
  induction n generalizing a b with
  | zero =>
    obtain ⟨after, before⟩ := mem
    refine ⟨⟨?_, ?_⟩, .inr ?_⟩
    · simp only [bisect]
      linarith
    · simp only [bisect]
      linarith
    · simp only [bisect, abs_le]
      constructor <;> linarith
  | succ n ih =>
    have middle : (a + b) / 2 ∈ Icc a b := by
      obtain ⟨after, before⟩ := mem
      constructor <;> linarith
    have within : (a + b) / 2 ∈ Icc lo hi := ⟨low.trans middle.1, middle.2.trans high⟩
    simp only [bisect]
    split
    · rename_i close
      exact ⟨middle, .inl close⟩
    split
    · rename_i more
      have here : x ∈ Icc a ((a + b) / 2) := by
        refine ⟨mem.1, le_of_not_gt fun before => ?_⟩
        exact (splits.below _ within before).not_gt more
      obtain ⟨there, result⟩ := ih low within.2 here
      refine ⟨⟨there.1, there.2.trans middle.2⟩, result.imp_right fun near => near.trans_eq ?_⟩
      rw [pow_succ 2 (n + 1)]
      field_simp
      ring
    · rename_i less
      have here : x ∈ Icc ((a + b) / 2) b := by
        refine ⟨le_of_not_gt fun after => ?_, mem.2⟩
        exact less (splits.above _ within after)
      obtain ⟨there, result⟩ := ih within.1 high here
      refine ⟨⟨middle.1.trans there.1, there.2⟩, result.imp_right fun near => near.trans_eq ?_⟩
      rw [pow_succ 2 (n + 1)]
      field_simp
      ring

/-- An answer is within the tolerance of the target or as near to the best volatility as the
iterations allow. -/
theorem impliedVolatility_nearest {blackScholesPrice : ℝ → ℝ → ℝ → ℝ → ℝ → OptionType → ℝ}
    {spot strike t r : ℝ} {optionType : OptionType} {tolerance : ℝ}
    (continuous : ContinuousOn (fun sigma => blackScholesPrice spot strike t r sigma optionType)
      (Icc lo hi))
    (increasing : StrictMonoOn (fun sigma => blackScholesPrice spot strike t r sigma optionType)
      (Icc lo hi))
    (spotPos : 0 < spot) (strikePos : 0 < strike) (tPos : 0 < t) (bracket : lo < hi)
    (optionPrice : ℝ) (maxIterations : Nat) :
    let price sigma := blackScholesPrice spot strike t r sigma optionType
    let result := impliedVolatility blackScholesPrice optionPrice spot strike t r optionType lo hi
      tolerance maxIterations
    (result = none ↔ optionPrice ≤ 0 ∨ optionPrice < intrinsic spot strike optionType - tolerance ∨
      optionPrice ∉ Icc (price lo - tolerance) (price hi + tolerance)) ∧
    ∀ sigma ∈ result, sigma ∈ Icc lo hi ∧ (|price sigma - optionPrice| ≤ tolerance ∨
      ∃ x, (∀ y, Nearest price lo hi optionPrice y ↔ y = x) ∧
        |sigma - x| ≤ (hi - lo) / 2 ^ (maxIterations + 1)) := by
  intro price result
  obtain ⟨x, splits⟩ := exists_splits bracket continuous increasing optionPrice
  constructor
  · simp only [result, impliedVolatility, spotPos.not_ge, strikePos.not_ge, tPos.not_ge, or_false,
      mem_Icc, not_and_or, not_le, price]
    grind
  · intro sigma found
    have answer : sigma = bisect price optionPrice tolerance maxIterations lo hi := by
      simp only [result, impliedVolatility] at found
      grind
    rw [answer]
    obtain ⟨within, near⟩ := bisect_spec splits tolerance maxIterations le_rfl le_rfl splits.within
    exact ⟨within, near.imp LT.lt.le fun close => ⟨x, splits.nearest_iff, close⟩⟩

theorem linear_price_nearest :
    let result := impliedVolatility (fun _ _ _ _ sigma _ => sigma) (1 / 3 : ℝ) 1 1 1 0 .ce 0 1
      (1 / 100) 3
    result ≠ none ∧ ∀ sigma ∈ result, sigma ∈ Icc (0 : ℝ) 1 := by
  obtain ⟨refused, answered⟩ := @impliedVolatility_nearest 0 1 (fun _ _ _ _ sigma _ => sigma)
    1 1 1 0 .ce (1 / 100) continuousOn_id strictMonoOn_id one_pos one_pos one_pos one_pos (1 / 3) 3
  refine ⟨fun none => ?_, fun sigma found => (answered sigma found).1⟩
  have reason := refused.mp none
  norm_num [intrinsic] at reason

end AlgoSystem.Proof.MarketData.ImpliedVolatility
