import AlgoSystem.General.Affine
import AlgoSystem.General.Sorted
import AlgoSystem.MarketData.OptionsIntelligence

namespace AlgoSystem.Proof.MarketData.MaxPain
open AlgoSystem.MarketData General List

variable {chain : OptionChain} {s t k : ℚ}

def rowPayout (row : OptionChainRow) (s : ℚ) : ℚ :=
  max (s - row.strike) 0 * openInterest row.call + max (row.strike - s) 0 * openInterest row.put

def holderPayout (chain : OptionChain) (s : ℚ) : ℚ := (chain.rows.map (rowPayout · s)).sum

def strikes (chain : OptionChain) : List ℚ := chain.rows.map OptionChainRow.strike

def NonnegativeOi (chain : OptionChain) : Prop :=
  ∀ row ∈ chain.rows, 0 ≤ openInterest row.call ∧ 0 ≤ openInterest row.put

theorem candidatePayout_eq (distinct : (strikes chain).Nodup) (s : ℚ) :
    candidatePayout (oiByStrike chain) s = holderPayout chain s := by
  have entries := @Dict.entries_ofList _ _ _
    (chain.rows.map fun row => (row.strike, openInterest row.call, openInterest row.put))
    (by simpa [Function.comp_def, strikes] using distinct)
  rw [candidatePayout, oiByStrike, entries, map_map]
  rfl

theorem holderPayout_rises (nonneg : NonnegativeOi chain) (above : ∀ k ∈ strikes chain, k ≤ s)
    (later : s ≤ t) : holderPayout chain s ≤ holderPayout chain t := by
  apply sum_le_sum
  intro row mem
  have reached := above _ (mem_map_of_mem mem)
  have more := mul_le_mul_of_nonneg_right (sub_le_sub_right later row.strike)
    (Int.cast_nonneg (R := ℚ) (nonneg row mem).1)
  rw [rowPayout, rowPayout, max_eq_left (sub_nonneg.mpr reached), max_eq_right
    (sub_nonpos.mpr reached), max_eq_left (sub_nonneg.mpr (reached.trans later)),
    max_eq_right (sub_nonpos.mpr (reached.trans later))]
  linarith

theorem holderPayout_falls (nonneg : NonnegativeOi chain) (below : ∀ k ∈ strikes chain, t ≤ k)
    (later : s ≤ t) : holderPayout chain t ≤ holderPayout chain s := by
  apply sum_le_sum
  intro row mem
  have ahead := below _ (mem_map_of_mem mem)
  have less := mul_le_mul_of_nonneg_right (sub_le_sub_left later row.strike)
    (Int.cast_nonneg (R := ℚ) (nonneg row mem).2)
  rw [rowPayout, rowPayout, max_eq_right (sub_nonpos.mpr ahead), max_eq_left
    (sub_nonneg.mpr ahead), max_eq_right (sub_nonpos.mpr (later.trans ahead)),
    max_eq_left (sub_nonneg.mpr (later.trans ahead))]
  linarith

theorem exists_strike_payout_le (nonneg : NonnegativeOi chain) (listed : k ∈ strikes chain) (s : ℚ) :
    ∃ p ∈ strikes chain, holderPayout chain p ≤ holderPayout chain s := by
  obtain ⟨member, lowest⟩ := isLeast_min? listed 0
  by_cases early : s ≤ (strikes chain).min?.getD 0
  · exact ⟨_, member, holderPayout_falls nonneg (fun _ mem => lowest mem) early⟩
  · have affine : ∀ a b, (∀ p ∈ strikes chain, p ≤ a ∨ b ≤ p) →
        AffineOn (holderPayout chain) a b := by
      intro a b apart
      apply affineOn_sum
      intro row mem
      have outside := apart _ (mem_map_of_mem mem)
      apply (((affineOn_max_sub outside).const_mul (openInterest row.call : ℚ)).add
        ((affineOn_sub_max outside).const_mul (openInterest row.put : ℚ))).congr
      intro t _ _
      rw [rowPayout]
      ring
    obtain ⟨p, mem, less⟩ := exists_breakpoint_le affine
      (fun _ _ above later => holderPayout_rises nonneg above later) (not_le.mp early).le
    rcases mem_cons.mp mem with rfl | mem
    · exact ⟨_, member, less⟩
    · exact ⟨p, mem, less⟩

theorem maxPain_minimises (nonempty : chain.rows ≠ []) (distinct : (strikes chain).Nodup)
    (nonneg : NonnegativeOi chain) :
    (∃ strike, (calculateMaxPain chain).maxPainStrike = some strike ∧
      IsLeast {k | k ∈ strikes chain ∧ ∀ s, holderPayout chain k ≤ holderPayout chain s} strike) ∧
    ((calculateMaxPain chain).payouts.map Prod.fst).Pairwise (· < ·) ∧
    ∀ k p, (k, p) ∈ (calculateMaxPain chain).payouts ↔
      k ∈ strikes chain ∧ p = holderPayout chain k := by
  obtain ⟨row, rowInside⟩ := exists_mem_of_ne_nil _ nonempty
  have listed : row.strike ∈ strikes chain := mem_map_of_mem rowInside
  have filled : (strikes chain).insertionSort (· ≤ ·) ≠ [] :=
    ne_nil_of_mem (mem_insertionSort _ |>.mpr listed)
  have result : calculateMaxPain chain =
      let payouts := ((strikes chain).insertionSort (· ≤ ·)).map fun k => (k, holderPayout chain k)
      ⟨((payouts.filter fun p => p.2 = (payouts.map Prod.snd).min?.getD 0).map Prod.fst).min?,
        payouts⟩ := by
    rw [calculateMaxPain]
    simp only [candidatePayout_eq distinct]
    exact if_neg filled
  rw [result]
  generalize payoutsEq : ((strikes chain).insertionSort (· ≤ ·)).map
    (fun k => (k, holderPayout chain k)) = payouts
  dsimp only
  have mem_payouts : ∀ k p, (k, p) ∈ payouts ↔ k ∈ strikes chain ∧ p = holderPayout chain k := by
    intro k p
    rw [← payoutsEq]
    simp [mem_insertionSort, eq_comm]
  refine ⟨?_, ?_, mem_payouts⟩
  · have payout : holderPayout chain row.strike ∈ payouts.map Prod.snd :=
      mem_map_of_mem (f := Prod.snd) ((mem_payouts _ _).mpr ⟨listed, rfl⟩)
    obtain ⟨attained, least⟩ := isLeast_min? payout 0
    generalize (payouts.map Prod.snd).min?.getD 0 = minPayout at attained least ⊢
    obtain ⟨⟨best, _⟩, mem, rfl⟩ := mem_map.mp attained
    obtain ⟨bestListed, rfl⟩ := (mem_payouts _ _).mp mem
    have bound : ∀ s, holderPayout chain best ≤ holderPayout chain s := by
      intro s
      obtain ⟨p, strike, less⟩ := exists_strike_payout_le nonneg listed s
      exact (least (mem_map_of_mem (f := Prod.snd) ((mem_payouts p _).mpr ⟨strike, rfl⟩))).trans
        less
    have minimisers : ∀ k, k ∈ (payouts.filter fun p => p.2 = holderPayout chain best).map Prod.fst ↔
        k ∈ strikes chain ∧ ∀ s, holderPayout chain k ≤ holderPayout chain s := by
      intro k
      simp only [mem_map, mem_filter, decide_eq_true_eq, Prod.exists,
        exists_and_right, exists_eq_right]
      rw [mem_payouts]
      constructor
      · rintro ⟨strike, same⟩
        exact ⟨strike, fun s => same ▸ bound s⟩
      · rintro ⟨strike, minimal⟩
        exact ⟨strike, (bound k).antisymm (minimal best)⟩
    have found := (minimisers best).mpr ⟨bestListed, bound⟩
    obtain ⟨strike, first⟩ := Option.isSome_iff_exists.mp (isSome_min?_of_mem found)
    obtain ⟨member, lowest⟩ := min?_eq_some_iff.mp first
    exact ⟨strike, first, (minimisers strike).mp member,
      fun k minimal => lowest k ((minimisers k).mpr minimal)⟩
  · rw [← payoutsEq, map_map]
    simpa [Function.comp_def] using insertionSort_lt_of_nodup (f := id) (by simpa using distinct)

theorem three_strikes_max_pain :
    let quote (oi : Option Int) : Option OptionQuote := some ⟨"", none, none, oi⟩
    let chain : OptionChain := ⟨"NIFTY", 0, 0,
      [⟨110, quote (some 5), none⟩, ⟨90, none, quote none⟩, ⟨100, quote (some 3), quote (some 4)⟩], ""⟩
    NonnegativeOi chain ∧ (strikes chain).Nodup ∧ (calculateMaxPain chain).maxPainStrike = some 100 ∧
      ∀ s, holderPayout chain 100 ≤ holderPayout chain s := by
  intro quote chain
  have nonneg : NonnegativeOi chain := by unfold NonnegativeOi; decide
  have distinct : (strikes chain).Nodup := by decide +kernel
  have found : (calculateMaxPain chain).maxPainStrike = some 100 := by decide +kernel
  obtain ⟨⟨strike, same, least⟩, -⟩ := maxPain_minimises (by decide) distinct nonneg
  cases found.symm.trans same
  exact ⟨nonneg, distinct, found, least.1.2⟩

end AlgoSystem.Proof.MarketData.MaxPain
