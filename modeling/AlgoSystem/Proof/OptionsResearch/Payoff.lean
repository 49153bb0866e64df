import AlgoSystem.General.Affine
import AlgoSystem.General.Sorted
import AlgoSystem.OptionsResearch.Payoff

namespace AlgoSystem.Proof.OptionsResearch.Payoff
open General AlgoSystem.OptionsResearch List

variable {legs : List ResolvedLeg} {leg : ResolvedLeg} {a b s t : ℚ}
variable {strike : ℚ} {points : List ℚ} {n : ℤ}

theorem affineOn_intrinsic (optionType : OptionType) (outside : strike ≤ a ∨ b ≤ strike) :
    AffineOn (intrinsic optionType strike) a b := by
  cases optionType with
  | call => exact affineOn_max_sub outside
  | put => exact affineOn_sub_max outside

theorem affineOn_legPayoff (outside : leg.strike ≤ a ∨ b ≤ leg.strike) :
    AffineOn (legPayoff leg) a b := by
  have value := (affineOn_intrinsic leg.optionType outside).const_mul (leg.side.sign : ℚ)
  apply (value.add (affineOn_const (-(leg.side.sign * leg.price.getD 0)))).congr
  intro s _ _
  rw [legPayoff, sub_eq_add_neg]

theorem affineOn_totalPnl (outside : ∀ leg ∈ legs, leg.strike ≤ a ∨ b ≤ leg.strike) :
    AffineOn (totalPnl legs) a b :=
  affineOn_sum fun leg mem => affineOn_legPayoff (outside leg mem)

def callBalance (legs : List (Side × OptionType)) : ℤ :=
  (legs.map fun (side, optionType) => if optionType = .call then side.sign else 0).sum

def kinds (legs : List ResolvedLeg) : List (Side × OptionType) :=
  legs.map fun leg => (leg.side, leg.optionType)

theorem totalPnl_tail (above : ∀ leg ∈ legs, leg.strike ≤ s) (later : s ≤ t) :
    totalPnl legs t - totalPnl legs s = callBalance (kinds legs) * (t - s) := by
  induction legs with
  | nil => simp [totalPnl, callBalance, kinds]
  | cons leg legs ih =>
    have rest := ih fun other mem => above other (mem_cons_of_mem leg mem)
    have here := above leg mem_cons_self
    have first : legPayoff leg t - legPayoff leg s =
        (if leg.optionType = .call then leg.side.sign else 0 : ℤ) * (t - s) := by
      cases kind : leg.optionType with
      | call =>
        simp only [legPayoff, kind, intrinsic, max_eq_left (sub_nonneg.mpr here),
          max_eq_left (sub_nonneg.mpr (here.trans later)), if_pos]
        ring
      | put =>
        simp only [legPayoff, kind, intrinsic, max_eq_right (sub_nonpos.mpr here),
          max_eq_right (sub_nonpos.mpr (here.trans later))]
        simp
    simp only [totalPnl, callBalance, kinds, map_cons, sum_cons] at rest ⊢
    push_cast at rest first ⊢
    linear_combination rest + first

theorem mem_payoffStrikes : strike ∈ payoffStrikes legs ↔ ∃ leg ∈ legs, leg.strike = strike := by
  rw [payoffStrikes, mem_insertionSort, mem_dedup, mem_map]

theorem le_highest (mem : leg ∈ legs) : leg.strike ≤ (payoffStrikes legs).getLastD 0 := by
  have listed : leg.strike ∈ (legs.map ResolvedLeg.strike).dedup :=
    mem_dedup.mpr (mem_map_of_mem mem)
  have nonempty : payoffStrikes legs ≠ [] := by
    apply ne_nil_of_mem
    exact mem_payoffStrikes.mpr ⟨leg, mem, rfl⟩
  have last := getLast?_eq_getLast_of_ne_nil nonempty
  rw [getLastD_eq_getLast?, last]
  exact (getLast?_insertionSort_eq_some.mp last).2 _ listed

theorem add_le_farPoint (lo hi : ℚ) : hi + 1000 ≤ farPoint lo hi :=
  add_le_add_right (le_max_right _ _) hi

theorem lt_farPoint (lo hi : ℚ) : hi < farPoint lo hi :=
  (lt_add_of_pos_right hi (by norm_num)).trans_le (add_le_farPoint lo hi)

theorem slopeRight_eq (legs : List ResolvedLeg) (lo : ℚ) :
    slopeRight legs lo ((payoffStrikes legs).getLastD 0) = callBalance (kinds legs) := by
  have far := lt_farPoint lo ((payoffStrikes legs).getLastD 0)
  rw [slopeRight, totalPnl_tail (fun _ mem => le_highest mem) far.le]
  exact mul_div_cancel_right₀ _ (sub_ne_zero.mpr far.ne')

/-! ## Extreme values

A factor `c` of either sign states the facts about least and greatest values at once. -/

theorem exists_strike_le (c : ℚ) (covered : 0 ≤ c * callBalance (kinds legs)) (price : 0 ≤ s) :
    ∃ p ∈ 0 :: payoffStrikes legs, c * totalPnl legs p ≤ c * totalPnl legs s := by
  have listed : ∀ leg ∈ legs, leg.strike ∈ payoffStrikes legs :=
    fun leg mem => mem_payoffStrikes.mpr ⟨leg, mem, rfl⟩
  refine exists_breakpoint_le (f := fun s => c * totalPnl legs s) ?_ ?_ price
  · intro a b apart
    exact (affineOn_totalPnl fun leg mem => apart leg.strike (listed leg mem)).const_mul c
  · intro u v above later
    have tail := totalPnl_tail (fun leg mem => above leg.strike (listed leg mem)) later
    have rise := mul_nonneg covered (sub_nonneg.mpr later)
    rw [mul_assoc, ← tail] at rise
    linarith

theorem exists_pnl_gt (c bound : ℚ) (steep : 1 ≤ c * callBalance (kinds legs)) :
    ∃ s, 0 ≤ s ∧ bound < c * totalPnl legs s := by
  obtain ⟨base, above, nonneg⟩ : ∃ base, (∀ leg ∈ legs, leg.strike ≤ base) ∧ 0 ≤ base :=
    ⟨_, fun _ mem => (le_highest mem).trans (le_max_left _ 0), le_max_right _ _⟩
  let rise := |bound - c * totalPnl legs base| + 1
  have far : 0 < rise := by positivity
  have needed : bound - c * totalPnl legs base < rise := lt_add_of_le_of_pos (le_abs_self _) one_pos
  have tail := totalPnl_tail above (le_add_of_nonneg_right far.le)
  have steeper : rise ≤ c * callBalance (kinds legs) * rise := le_mul_of_one_le_left far.le steep
  rw [add_sub_cancel_left] at tail
  refine ⟨base + rise, by linarith, ?_⟩
  rw [mul_assoc, ← tail] at steeper
  linarith

def pnlValues (legs : List ResolvedLeg) : Set ℚ := {v | ∃ s, 0 ≤ s ∧ totalPnl legs s = v}

theorem min_le_totalPnl (covered : 0 ≤ callBalance (kinds legs))
    (evaluated : 0 :: payoffStrikes legs ⊆ points) (price : 0 ≤ s) :
    (points.map (totalPnl legs)).min?.getD 0 ≤ totalPnl legs s := by
  obtain ⟨p, mem, less⟩ := exists_strike_le 1 (by simpa using covered) price
  have member := mem_map_of_mem (f := totalPnl legs) (evaluated mem)
  have least := (isLeast_min? member 0).2 member
  linarith

theorem totalPnl_le_max (covered : callBalance (kinds legs) ≤ 0)
    (evaluated : 0 :: payoffStrikes legs ⊆ points) (price : 0 ≤ s) :
    totalPnl legs s ≤ (points.map (totalPnl legs)).max?.getD 0 := by
  obtain ⟨p, mem, less⟩ := exists_strike_le (-1) (by simpa using covered) price
  have member := mem_map_of_mem (f := totalPnl legs) (evaluated mem)
  have most := (isGreatest_max? member 0).2 member
  linarith

theorem eps_lt_intCast : eps < (n : ℚ) ↔ 0 < n := by
  have small : (0 : ℚ) < eps ∧ eps < 1 := by norm_num [eps]
  constructor
  · intro over'
    exact_mod_cast small.1.trans over'
  · intro positive
    have whole : (1 : ℚ) ≤ n := by exact_mod_cast positive
    linarith

theorem intCast_lt_neg_eps : (n : ℚ) < -eps ↔ n < 0 := by
  rw [lt_neg, ← Int.cast_neg, eps_lt_intCast, Int.neg_pos]

theorem loss_bounded {n : Nat} (priced : (computePayoff legs n).priced = true)
    (covered : 0 ≤ callBalance (kinds legs)) :
    (computePayoff legs n).maxLossUnbounded = false ∧
      ∃ loss, (computePayoff legs n).maxLoss = some (roundTo 4 loss) ∧ 0 ≤ loss ∧
        ∀ s, 0 ≤ s → -loss ≤ totalPnl legs s := by
  have bounded : decide (((callBalance (kinds legs) : ℤ) : ℚ) < -eps) = false := by
    rw [decide_eq_false_iff_not, intCast_lt_neg_eps]
    omega
  unfold computePayoff at priced ⊢
  split_ifs at priced ⊢ with empty unpriced
  simp only [slopeRight_eq, bounded]
  refine ⟨trivial, _, rfl, le_max_right _ _, ?_⟩
  intro s price
  have least := min_le_totalPnl covered (subset_append_left _
    (if !decide (eps < ((callBalance (kinds legs) : ℤ) : ℚ)) && !false then
      [farPoint ((payoffStrikes legs).headD 0) ((payoffStrikes legs).getLastD 0)] else [])) price
  exact (neg_le_neg (le_max_left _ _)).trans ((neg_neg _).le.trans least)

/-- The flags are right, and the extremes are, before they are rounded, those of the payoff over all
prices. -/
theorem computePayoff_extremes {n : Nat} (nonempty : legs ≠ [])
    (priced : ∀ leg ∈ legs, leg.price ≠ none) (positive : ∀ leg ∈ legs, 0 < leg.strike) :
    ((computePayoff legs n).maxProfitUnbounded = true ↔ ¬ BddAbove (pnlValues legs)) ∧
    ((computePayoff legs n).maxLossUnbounded = true ↔ ¬ BddBelow (pnlValues legs)) ∧
    (∀ profit, (computePayoff legs n).maxProfit = some profit →
      ∃ most, IsGreatest (pnlValues legs) most ∧ profit = roundTo 4 most) ∧
    (∀ loss, (computePayoff legs n).maxLoss = some loss →
      ∃ least, IsLeast (pnlValues legs) least ∧ loss = roundTo 4 (max (-least) 0)) := by
  have highest : ∀ p ∈ payoffStrikes legs, 0 ≤ p := by
    intro p listed
    obtain ⟨leg, mem, rfl⟩ := mem_payoffStrikes.mp listed
    exact (positive leg mem).le
  obtain ⟨leg, mem⟩ := exists_mem_of_ne_nil legs nonempty
  have far := (positive leg mem).le.trans ((le_highest mem).trans
    (lt_farPoint ((payoffStrikes legs).headD 0) _).le)
  unfold computePayoff
  rw [if_neg nonempty, if_neg (by simpa using priced)]
  simp only [slopeRight_eq, eps_lt_intCast, intCast_lt_neg_eps]
  set points := 0 :: payoffStrikes legs ++ _ with evalPoints
  have evaluated : 0 :: payoffStrikes legs ⊆ points := subset_append_left _ _
  have attained : ∀ v ∈ points.map (totalPnl legs), v ∈ pnlValues legs := by
    intro v listed
    obtain ⟨p, point, rfl⟩ := mem_map.mp listed
    refine ⟨p, ?_, rfl⟩
    rw [evalPoints, cons_append, mem_cons, mem_append] at point
    rcases point with rfl | strike | tail
    · exact le_rfl
    · exact highest p strike
    · split_ifs at tail
      · rwa [mem_singleton.mp tail]
      · cases tail
  have origin : totalPnl legs 0 ∈ points.map (totalPnl legs) :=
    mem_map_of_mem (evaluated mem_cons_self)
  have greatest (falls : ¬ 0 < callBalance (kinds legs)) :
      IsGreatest (pnlValues legs) ((points.map (totalPnl legs)).max?.getD 0) := by
    refine ⟨attained _ (isGreatest_max? origin 0).1, ?_⟩
    rintro _ ⟨s, price, rfl⟩
    exact totalPnl_le_max (Int.not_lt.mp falls) evaluated price
  have least (rises : ¬ callBalance (kinds legs) < 0) :
      IsLeast (pnlValues legs) ((points.map (totalPnl legs)).min?.getD 0) := by
    refine ⟨attained _ (isLeast_min? origin 0).1, ?_⟩
    rintro _ ⟨s, price, rfl⟩
    exact min_le_totalPnl (Int.not_lt.mp rises) evaluated price
  refine ⟨?_, ?_, ?_, ?_⟩
  · rw [decide_eq_true_iff]
    constructor
    · rintro rises ⟨bound, isBound⟩
      obtain ⟨s, price, more⟩ := exists_pnl_gt 1 bound (by rw [one_mul]; exact_mod_cast rises)
      exact absurd (isBound ⟨s, price, rfl⟩) (by linarith)
    · intro unbounded
      by_contra falls
      exact unbounded ⟨_, (greatest falls).2⟩
  · rw [decide_eq_true_iff]
    constructor
    · rintro falls ⟨bound, isBound⟩
      obtain ⟨s, price, more⟩ := exists_pnl_gt (-1) (-bound)
        (by rw [neg_one_mul]; exact_mod_cast Int.neg_pos.mpr falls)
      exact absurd (isBound ⟨s, price, rfl⟩) (by linarith)
    · intro unbounded
      by_contra rises
      exact unbounded ⟨_, (least rises).2⟩
  · intro profit found
    split_ifs at found with unbounded
    cases found
    exact ⟨_, greatest (by simpa using unbounded), rfl⟩
  · intro loss found
    split_ifs at found with unbounded
    cases found
    exact ⟨_, least (by simpa using unbounded), rfl⟩

def strangle : List ResolvedLeg :=
  [⟨.buy, .put, 90, some 3, .ask⟩, ⟨.buy, .call, 110, some 2, .ask⟩]

theorem strangle_extremes : strangle ≠ [] ∧ (∀ leg ∈ strangle, leg.price ≠ none) ∧
    (∀ leg ∈ strangle, 0 < leg.strike) ∧ ¬ BddAbove (pnlValues strangle) ∧
    (∃ least, IsLeast (pnlValues strangle) least ∧ 5 = roundTo 4 (max (-least) 0)) := by
  have priced : ∀ leg ∈ strangle, leg.price ≠ none := by decide
  have positive : ∀ leg ∈ strangle, 0 < leg.strike := by decide +kernel
  obtain ⟨profit, -, -, loss⟩ := computePayoff_extremes (n := 1) (by decide) priced positive
  exact ⟨by decide, priced, positive, profit.mp (by decide +kernel), loss 5 (by decide +kernel)⟩

end AlgoSystem.Proof.OptionsResearch.Payoff
