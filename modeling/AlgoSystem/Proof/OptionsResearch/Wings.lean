import AlgoSystem.OptionsResearch.Candidates
import AlgoSystem.Proof.OptionsResearch.Payoff

namespace AlgoSystem.Proof.OptionsResearch.Wings
open General AlgoSystem.OptionsResearch Proof.OptionsResearch.Payoff List

variable {summary : MarketStructureSummary} {config : CandidateGenerationConfig} {atm : ℚ}
  {strategy : StrategyType} {templates : List LegTemplate} {leg : LegTemplate}
  {strikes resolved : List ℚ} {notes notes' : List Note} {target reference width : ℚ}
variable {s strike : ℚ} {note : Option Note} {i wingOf : Nat} {useHedgeWidth : Bool}

structure Nearest (strikes : List ℚ) (target s : ℚ) : Prop where
  listed : s ∈ strikes
  nearest : ∀ other ∈ strikes, |s - target| ≤ |other - target|
  lower : ∀ other ∈ strikes, |other - target| = |s - target| → s ≤ other

theorem nearest_nearestRealStrike (nonempty : strikes ≠ []) :
    Nearest strikes target (nearestRealStrike target strikes) := by
  cases found : strikes.argmin fun s => toLex (|s - target|, s) with
  | none => exact absurd (argmin_eq_none.mp found) nonempty
  | some s =>
    have least : ∀ other ∈ strikes,
        |s - target| < |other - target| ∨ |s - target| = |other - target| ∧ s ≤ other := by
      intro other mem
      exact Prod.Lex.toLex_le_toLex.mp
        (le_of_mem_argmin (f := fun s => toLex (|s - target|, s)) mem found)
    rw [nearestRealStrike, found, Option.getD_some]
    constructor
    · exact argmin_mem found
    · intro other mem
      exact (least other mem).elim le_of_lt fun same => same.1.le
    · intro other mem same
      exact (least other mem).elim (fun less => absurd same less.ne') And.right

def Beyond (optionType : OptionType) (reference s : ℚ) : Prop :=
  match optionType with
  | .put => s < reference
  | .call => reference < s

/-- A strike beyond the reference that is nearer to the target than the reference is; a put also
takes the lower one of two at the same distance. -/
def Within (optionType : OptionType) (reference width s : ℚ) : Prop :=
  match optionType with
  | .put => reference - 2 * width ≤ s ∧ s < reference
  | .call => reference < s ∧ s < reference + 2 * width

theorem put_beyond_iff (mem : reference ∈ strikes) (positive : 0 < width)
    (nearest : Nearest strikes (reference - width) s) :
    s < reference ↔ ∃ other ∈ strikes, reference - 2 * width ≤ other ∧ other < reference := by
  have distance : |reference - (reference - width)| = width := by
    rw [sub_sub_cancel, abs_of_pos positive]
  have near := nearest.nearest reference mem
  rw [distance, abs_le] at near
  constructor
  · intro below
    exact ⟨s, nearest.listed, by linarith, below⟩
  · rintro ⟨other, otherInside, low, high⟩
    have close := nearest.nearest other otherInside
    have bound : |other - (reference - width)| ≤ width := by
      rw [abs_le]
      constructor <;> linarith
    by_contra notBelow
    -- the nearest strike is the reference, and the other one is as near but lower
    have same : s = reference := by linarith
    have tie : |other - (reference - width)| = |s - (reference - width)| := by
      rw [same, distance] at close ⊢
      exact le_antisymm bound close
    have order := nearest.lower other otherInside tie
    linarith

theorem call_beyond_iff (mem : reference ∈ strikes) (positive : 0 < width)
    (nearest : Nearest strikes (reference + width) s) :
    reference < s ↔ ∃ other ∈ strikes, reference < other ∧ other < reference + 2 * width := by
  have distance : |reference - (reference + width)| = width := by
    rw [sub_add_cancel_left, abs_neg, abs_of_pos positive]
  have near := nearest.nearest reference mem
  constructor
  · intro above
    refine ⟨s, nearest.listed, above, ?_⟩
    by_contra far
    -- at the same distance the reference would have been taken
    have tie : |reference - (reference + width)| = |s - (reference + width)| := by
      refine le_antisymm ?_ near
      rw [distance, le_abs]
      left
      linarith
    have order := nearest.lower reference mem tie
    linarith
  · rintro ⟨other, otherInside, low, high⟩
    have close := nearest.nearest other otherInside
    have bound : |other - (reference + width)| < width := by
      rw [abs_lt]
      constructor <;> linarith
    have strict := abs_lt.mp (close.trans_lt bound)
    linarith [strict.1]

theorem beyond_iff_within (optionType : OptionType) (mem : reference ∈ strikes)
    (positive : 0 < width) :
    Beyond optionType reference
        (nearestRealStrike (wingTarget optionType reference width) strikes) ↔
      ∃ other ∈ strikes, Within optionType reference width other := by
  have nearest : Nearest strikes (wingTarget optionType reference width) _ :=
    nearest_nearestRealStrike (ne_nil_of_mem mem)
  cases optionType with
  | put => exact put_beyond_iff mem positive nearest
  | call => exact call_beyond_iff mem positive nearest

theorem mem_allStrikes :
    strike ∈ summary.allStrikes ↔ ∃ row ∈ summary.rows, row.strike = strike := by
  rw [MarketStructureSummary.allStrikes, mem_insertionSort, mem_dedup, mem_map]

theorem deltaTarget_listed {optionType : OptionType}
    (target : resolveDeltaTarget optionType summary config = .ok (strike, note)) :
    strike ∈ summary.allStrikes := by
  have listed : ∀ c ∈ deltaCandidates optionType summary, c.1 ∈ summary.allStrikes := by
    intro c mem
    obtain ⟨row, rowInside, taken⟩ := mem_filterMap.mp mem
    split_ifs at taken
    obtain ⟨delta, -, rfl⟩ := Option.map_eq_some_iff.mp taken
    exact mem_allStrikes.mpr ⟨row, rowInside, rfl⟩
  simp only [resolveDeltaTarget] at target
  split at target
  next best found =>
    cases target
    exact listed best (mem_of_mem_filter (argmin_mem found))
  next =>
    split at target
    next best found =>
      cases target
      exact listed best (argmin_mem found)
    next => cases target

theorem resolveStrike_listed (listed : atm ∈ summary.allStrikes)
    (found : resolveStrike summary config atm resolved leg = .ok (strike, note)) :
    strike ∈ summary.allStrikes := by
  unfold resolveStrike at found
  split at found
  · cases found
    exact listed
  · exact deltaTarget_listed found
  · cases found
    exact (nearest_nearestRealStrike (ne_nil_of_mem listed)).listed

theorem resolveStrikes_ok
    (found : resolveStrikes summary config atm templates resolved notes = .ok (strikes, notes')) :
    strikes.length = resolved.length + templates.length ∧ resolved <+: strikes ∧
      ∀ (i : Nat) leg, templates[i]? = some leg → ∃ strike note,
        strikes[resolved.length + i]? = some strike ∧
        resolveStrike summary config atm (strikes.take (resolved.length + i)) leg =
          .ok (strike, note) := by
  induction templates generalizing resolved notes with
  | nil =>
    cases found
    simp
  | cons first templates ih =>
    rw [resolveStrikes] at found
    split at found
    next => cases found
    next strike note here =>
      obtain ⟨length, ⟨later, rfl⟩, each⟩ := ih found
      refine ⟨by simp at length ⊢; omega, ⟨strike :: later, by simp⟩, ?_⟩
      intro i leg position
      cases i with
      | zero =>
        cases position
        exact ⟨strike, note, by simp, by simpa using here⟩
      | succ i =>
        obtain ⟨own, ownNote, at', from'⟩ := each i leg position
        have shift : resolved.length + (i + 1) = (resolved ++ [strike]).length + i := by
          simp
          omega
        rw [shift]
        exact ⟨own, ownNote, at', from'⟩

theorem strikes_listed (listed : atm ∈ summary.allStrikes)
    (found : resolveStrikes summary config atm templates [] [] = .ok (strikes, notes)) :
    ∀ s ∈ strikes, s ∈ summary.allStrikes := by
  obtain ⟨length, -, each⟩ := resolveStrikes_ok found
  intro s mem
  obtain ⟨i, bound, rfl⟩ := getElem_of_mem mem
  have position : i < templates.length := by simpa [length] using bound
  obtain ⟨strike, note, own, resolution⟩ := each i _ (getElem?_eq_getElem position)
  rw [length_nil, Nat.zero_add, getElem?_eq_getElem bound, Option.some.injEq] at own
  rw [own]
  exact resolveStrike_listed listed resolution

theorem wing_strike
    (found : resolveStrikes summary config atm templates [] [] = .ok (strikes, notes))
    (position : templates[i]? = some leg) (wing : leg.selector = .wing wingOf useHedgeWidth)
    (before : wingOf < i) :
    ∃ own reference, strikes[i]? = some own ∧ strikes[wingOf]? = some reference ∧
      own = nearestRealStrike
        (wingTarget leg.optionType reference (config.width useHedgeWidth)) summary.allStrikes := by
  obtain ⟨length, -, each⟩ := resolveStrikes_ok found
  obtain ⟨strike, note, own, resolution⟩ := each i leg position
  rw [length_nil, Nat.zero_add] at own resolution
  have bound : wingOf < strikes.length := before.trans (List.getElem?_eq_some_iff.mp own).1
  have reference : (strikes.take i).getD wingOf 0 = strikes[wingOf] := by
    rw [getD_eq_getElem?_getD, getElem?_take_of_lt before,
      getElem?_eq_getElem bound, Option.getD_some]
  simp only [resolveStrike, wing, reference, Except.ok.injEq, Prod.mk.injEq] at resolution
  exact ⟨strike, strikes[wingOf], own, getElem?_eq_getElem bound, resolution.1.symm⟩

def earlier (templates : List LegTemplate) : Bool :=
  templates.zipIdx.all fun (leg, i) => match leg.selector with
    | .wing wingOf _ => wingOf < i
    | _ => true

section
variable (found : strategyTemplates strategy = some templates)
include found

theorem earlier_templates : earlier templates = true := by
  cases strategy <;> cases found <;> rfl

theorem wingOf_lt (position : templates[i]? = some leg)
    (wing : leg.selector = .wing wingOf useHedgeWidth) : wingOf < i := by
  have all := earlier_templates found
  rw [earlier, all_eq_true] at all
  have own := all (leg, i) (mk_mem_zipIdx_iff_getElem?.mpr position)
  simpa [wing] using own

theorem callBalance_templates (defined : strategy ∈ definedRiskStrategies) :
    0 ≤ callBalance (templates.map fun leg => (leg.side, leg.optionType)) := by
  revert defined
  cases strategy <;> cases found <;> decide

end

theorem candidate_of_supported
    (supported : (generateCandidate strategy summary config).supported = true) :
    ∃ templates atm strikes notes, strategyTemplates strategy = some templates ∧
      summary.atmStrike = some atm ∧
      resolveStrikes summary config atm templates [] [] = .ok (strikes, notes) ∧
      generateCandidate strategy summary config = supportedCandidate strategy
        (List.zipWith (candidateLeg summary config) templates strikes) notes := by
  generalize candidate : generateCandidate strategy summary config = result at supported
  unfold generateCandidate at candidate
  split_ifs at candidate
  · subst candidate
    cases supported
  · split at candidate
    next =>
      subst candidate
      cases supported
    next templates template =>
      split at candidate
      next chain money =>
        split at candidate
        next =>
          subst candidate
          cases supported
        next strikes notes found =>
          exact ⟨templates, _, strikes, notes, template, money, found, candidate.symm⟩
      next =>
        subst candidate
        cases supported

theorem kinds_legs (length : strikes.length = templates.length) :
    kinds ((List.zipWith (candidateLeg summary config) templates strikes).map
        CandidateLeg.resolved) =
      templates.map fun leg => (leg.side, leg.optionType) := by
  rw [kinds, map_map, map_zipWith]
  apply ext_getElem?
  intro i
  rw [getElem?_zipWith, getElem?_map]
  cases position : templates[i]? with
  | none => rfl
  | some leg =>
    have bound := (List.getElem?_eq_some_iff.mp position).1
    rw [getElem?_eq_getElem (length.symm ▸ bound)]
    rfl

/-- A wing lies beyond its reference exactly where the chain has a strike beyond it that is nearer
to the target. The loss of a priced candidate of defined risk is at most the reported amount. -/
theorem wings_beyond_iff (money : summary.atmStrike = some atm)
    (listed : atm ∈ summary.allStrikes) (wide : 0 < config.wingWidth)
    (wideHedge : 0 < config.hedgeWingWidth)
    (supported : (generateCandidate strategy summary config).supported = true) :
    (∀ templates, strategyTemplates strategy = some templates →
      ∀ (i : Nat) leg wingOf useHedgeWidth, templates[i]? = some leg →
        leg.selector = .wing wingOf useHedgeWidth →
        ∃ own reference, (generateCandidate strategy summary config).legs[i]? = some own ∧
          (generateCandidate strategy summary config).legs[wingOf]? = some reference ∧
          own.optionType = leg.optionType ∧ own.strike ∈ summary.allStrikes ∧
          (Beyond leg.optionType reference.strike own.strike ↔ ∃ s ∈ summary.allStrikes,
              Within leg.optionType reference.strike (config.width useHedgeWidth) s)) ∧
    (strategy ∈ definedRiskStrategies →
      ∀ payoff, (generateCandidate strategy summary config).payoff = some payoff →
        payoff.priced = true → payoff.maxLossUnbounded = false ∧
          ∃ loss, payoff.maxLoss = some (roundTo 4 loss) ∧ 0 ≤ loss ∧
            ∀ s, 0 ≤ s → -loss ≤ totalPnl
              ((generateCandidate strategy summary config).legs.map CandidateLeg.resolved) s) := by
  obtain ⟨templates, atm', strikes, notes, template, money', found, candidate⟩ :=
    candidate_of_supported supported
  rw [money] at money'
  cases money'
  rw [candidate]
  have length : strikes.length = templates.length := by
    simpa using (resolveStrikes_ok found).1
  constructor
  · intro other otherTemplate i leg wingOf useHedgeWidth position wing
    rw [template] at otherTemplate
    cases otherTemplate
    have before := wingOf_lt template position wing
    obtain ⟨own, reference, ownAt, referenceAt, nearest⟩ := wing_strike found position wing before
    have bound : wingOf < templates.length :=
      before.trans (List.getElem?_eq_some_iff.mp position).1
    have referenceListed := strikes_listed listed found reference (mem_of_getElem? referenceAt)
    have ownListed := strikes_listed listed found own (mem_of_getElem? ownAt)
    have positive : 0 < config.width useHedgeWidth := by
      cases useHedgeWidth
      · exact wide
      · exact wideHedge
    refine ⟨candidateLeg summary config leg own,
      candidateLeg summary config templates[wingOf] reference, ?_, ?_, rfl, ownListed, ?_⟩
    · simp only [supportedCandidate, getElem?_zipWith, position, ownAt]
    · simp only [supportedCandidate, getElem?_zipWith, getElem?_eq_getElem bound, referenceAt]
    · have iff := beyond_iff_within leg.optionType referenceListed positive
      rw [← nearest] at iff
      exact iff
  · intro defined payoff priced isPriced
    cases priced
    apply loss_bounded isPriced
    rw [kinds_legs length]
    exact callBalance_templates template defined

def chain (strikes : List ℚ) : MarketStructureSummary where
  atmStrike := some 24000
  rows := strikes.flatMap fun strike =>
    [⟨strike, .call, some { ltp := some 100 }, none, none⟩,
      ⟨strike, .put, some { ltp := some 100 }, none, none⟩]

theorem iron_fly_wings_beyond :
    (∃ own reference,
      (generateCandidate .ironFly (chain [23900, 24000, 24100]) {}).legs[3]? = some own ∧
      (generateCandidate .ironFly (chain [23900, 24000, 24100]) {}).legs[1]? = some reference ∧
      reference.strike < own.strike) ∧
    ∃ payoff, (generateCandidate .ironFly (chain [23900, 24000, 24100]) {}).payoff = some payoff ∧
      payoff.maxLossUnbounded = false := by
  have supported : (generateCandidate .ironFly (chain [23900, 24000, 24100]) {}).supported = true :=
    by decide +kernel
  obtain ⟨wings, loss⟩ := wings_beyond_iff rfl (by decide +kernel) (by decide) (by decide) supported
  constructor
  · obtain ⟨own, reference, ownAt, referenceAt, -, -, iff⟩ := wings _ rfl 3 _ 1 false rfl rfl
    refine ⟨own, reference, ownAt, referenceAt, iff.mpr ⟨24100, by decide +kernel, ?_⟩⟩
    have strike : ((generateCandidate .ironFly (chain [23900, 24000, 24100]) {}).legs[1]?).map
        CandidateLeg.strike = some 24000 := by decide +kernel
    rw [referenceAt, Option.map_some, Option.some.injEq] at strike
    rw [strike]
    show (24000 : ℚ) < 24100 ∧ (24100 : ℚ) < 24000 + 2 * 100
    norm_num
  · exact ⟨_, rfl, (loss (by decide) _ rfl (by decide +kernel)).1⟩

/-- With the money at the lower edge of the chain both legs of a bear put spread have one strike. -/
theorem bear_put_spread_collapses :
    (generateCandidate .bearPutDebitSpread (chain [24000, 24100]) {}).supported = true ∧
      (generateCandidate .bearPutDebitSpread (chain [24000, 24100]) {}).legs.map
        (fun leg => (leg.side, leg.optionType, leg.strike)) =
          [(.buy, .put, 24000), (.sell, .put, 24000)] := by
  decide +kernel

end AlgoSystem.Proof.OptionsResearch.Wings
