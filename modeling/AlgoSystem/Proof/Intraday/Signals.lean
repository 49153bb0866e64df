import AlgoSystem.General.Sorted
import AlgoSystem.Intraday.Strategy

namespace AlgoSystem.Proof.Intraday.Signals
open General MarketData AlgoSystem.Intraday List

variable {config : Config} {now later : Int} {decision : SignalDecision}

variable {minutes : List Bar}

theorem mem_bins {bin : Int} :
    bin ∈ (minutes.map Bar.bin).dedup.insertionSort (· ≤ ·) ↔ ∃ m ∈ minutes, m.bin = bin := by
  rw [mem_insertionSort, mem_dedup, mem_map]

theorem filter_bin_eq_nil {bin : Int} (other : ∀ m ∈ minutes, m.bin ≠ bin) :
    minutes.filter (fun m => decide (m.bin = bin)) = [] := by
  refine filter_eq_nil_iff.mpr fun m mem => ?_
  rw [decide_eq_true_eq]
  exact other m mem

variable {past rest : List Bar}

theorem resample5min_append (before : ∀ a ∈ past, ∀ b ∈ rest, a.bin < b.bin) :
    resample5min (past ++ rest) = resample5min past ++ resample5min rest := by
  have disjoint : (past.map Bar.bin).Disjoint (rest.map Bar.bin) := by
    intro bin inPast inRest
    obtain ⟨a, ha, rfl⟩ := mem_map.mp inPast
    obtain ⟨b, hb, same⟩ := mem_map.mp inRest
    exact (before a ha b hb).ne' same
  have ordered : ∀ i ∈ (past.map Bar.bin).dedup, ∀ j ∈ (rest.map Bar.bin).dedup, i ≤ j := by
    intro i hi j hj
    obtain ⟨a, ha, rfl⟩ := mem_map.mp (mem_dedup.mp hi)
    obtain ⟨b, hb, rfl⟩ := mem_map.mp (mem_dedup.mp hj)
    exact (before a ha b hb).le
  simp only [resample5min, map_append, disjoint.dedup_append, insertionSort_append ordered,
    filterMap_append, filter_append]
  congr 1
  · refine filterMap_congr fun bin mem => ?_
    obtain ⟨a, ha, rfl⟩ := mem_bins.mp mem
    rw [filter_bin_eq_nil fun b hb => (before a ha b hb).ne', append_nil]
  · refine filterMap_congr fun bin mem => ?_
    obtain ⟨b, hb, rfl⟩ := mem_bins.mp mem
    rw [filter_bin_eq_nil fun a ha => (before a ha b hb).ne, nil_append]

theorem exists_of_mem_resample5min {bar : Bar} (mem : bar ∈ resample5min minutes) :
    ∃ m ∈ minutes, bar.ts = m.bin * fiveMinutes := by
  obtain ⟨bin, hbin, made⟩ := mem_filterMap.mp mem
  obtain ⟨m, hm, rfl⟩ := mem_bins.mp hbin
  refine ⟨m, hm, ?_⟩
  split at made
  · cases made
  · cases made
    rfl

theorem vwapFrom_append (past rest : List Bar) (sum : ℚ) (count : Nat) :
    ∃ sum' count',
      vwapFrom sum count (past ++ rest) = vwapFrom sum count past ++ vwapFrom sum' count' rest := by
  induction past generalizing sum count with
  | nil => exact ⟨sum, count, rfl⟩
  | cons minute past ih =>
    obtain ⟨sum', count', equal⟩ := ih (sum + (minute.high + minute.low + minute.close) / 3)
      (count + 1)
    exact ⟨sum', count', by simp [Intraday.vwapFrom, equal]⟩

theorem map_fst_vwapFrom (minutes : List Bar) (sum : ℚ) (count : Nat) :
    (vwapFrom sum count minutes).map Prod.fst = minutes.map Bar.ts := by
  induction minutes generalizing sum count with
  | nil => rfl
  | cons minute minutes ih => simp [Intraday.vwapFrom, ih]

theorem asof_vwap_append {ts : Int} (after : ∀ b ∈ rest, ts < b.ts) :
    asof (vwap (past ++ rest)) ts = asof (vwap past) ts := by
  obtain ⟨sum, count, equal⟩ := vwapFrom_append past rest 0 0
  have none : (vwapFrom sum count rest).filter (fun row => decide (row.1 ≤ ts)) = [] := by
    refine filter_eq_nil_iff.mpr fun row mem => ?_
    have key : row.1 ∈ rest.map Bar.ts := by
      rw [← map_fst_vwapFrom rest sum count]
      exact mem_map_of_mem mem
    obtain ⟨b, hb, same⟩ := mem_map.mp key
    have := after b hb
    simp only [decide_eq_true_eq]
    omega
  rw [asof, Intraday.vwap, equal, filter_append, none, append_nil]
  rfl

theorem ewmFrom_append (alpha : ℚ) (past rest : List ℚ) (mean : ℚ) :
    ∃ tail, ewmFrom alpha mean (past ++ rest) = ewmFrom alpha mean past ++ tail := by
  induction past generalizing mean with
  | nil => exact ⟨_, rfl⟩
  | cons x past ih =>
    obtain ⟨tail, equal⟩ := ih (alpha * x + (1 - alpha) * mean)
    exact ⟨tail, by simp [ewmFrom, equal]⟩

theorem ewm_append (span : Nat) (past rest : List ℚ) :
    ∃ tail, ewm span (past ++ rest) = ewm span past ++ tail := by
  cases past with
  | nil => exact ⟨_, rfl⟩
  | cons x past =>
    obtain ⟨tail, equal⟩ := ewmFrom_append (2 / (span + 1)) past rest x
    exact ⟨tail, by simp [ewm, equal]⟩

theorem length_ewmFrom (alpha : ℚ) (xs : List ℚ) (mean : ℚ) :
    (ewmFrom alpha mean xs).length = xs.length := by
  induction xs generalizing mean with
  | nil => rfl
  | cons x xs ih => simp [ewmFrom, ih]

theorem length_ewm (span : Nat) (xs : List ℚ) : (ewm span xs).length = xs.length := by
  cases xs <;> simp [ewm, length_ewmFrom]

theorem trendBars_append (config : Config) (past rest : List Bar) :
    ∃ tail, trendBars config (past ++ rest) = trendBars config past ++ tail ∧
      ∀ row ∈ tail, row.bar ∈ rest := by
  obtain ⟨fast, equalFast⟩ := ewm_append config.emaFast (past.map Bar.close) (rest.map Bar.close)
  obtain ⟨slow, equalSlow⟩ := ewm_append config.emaSlow (past.map Bar.close) (rest.map Bar.close)
  refine ⟨(rest.zip (fast.zip slow)).map fun row => ⟨row.1, row.2.1, row.2.2⟩, ?_, ?_⟩
  · simp only [trendBars, map_append, equalFast, equalSlow]
    rw [zip_append (by simp [length_ewm]), zip_append (by simp [length_ewm]),
      map_append]
  · intro row mem
    obtain ⟨pair, hpair, rfl⟩ := mem_map.mp mem
    exact (of_mem_zip hpair).1

variable {vwapMin : List (Int × ℚ)} {wasBelow wasAbove : Bool} {bars : List Bar}

theorem vwapScan_bar
    (found : VwapReclaim.scan config vwapMin now wasBelow wasAbove bars = some decision) :
    ∃ bar ∈ bars, bar.ts = decision.entryTs ∧ bar.close = decision.spot ∧ bar.ts ≤ now := by
  fun_induction VwapReclaim.scan config vwapMin now wasBelow wasAbove bars with
  | case1 => cases found
  | case2 => cases found
  | case3 wasBelow wasAbove bar bars _ _ ih =>
    obtain ⟨bar', mem, same⟩ := ih found
    exact ⟨bar', mem_cons_of_mem _ mem, same⟩
  | case4 _ _ _ _ reached =>
    cases found
    exact ⟨_, mem_cons_self, rfl, rfl, not_lt.mp reached⟩
  | case5 _ _ _ _ reached =>
    cases found
    exact ⟨_, mem_cons_self, rfl, rfl, not_lt.mp reached⟩
  | case6 wasBelow wasAbove bar bars _ _ _ _ _ _ _ ih =>
    obtain ⟨bar', mem, same⟩ := ih found
    exact ⟨bar', mem_cons_of_mem _ mem, same⟩

theorem vwapScan_append (more : List Bar)
    (found : VwapReclaim.scan config vwapMin now wasBelow wasAbove (bars ++ more) = some decision) :
    VwapReclaim.scan config vwapMin now wasBelow wasAbove bars = some decision ∨
      ∃ bar ∈ more, bar.ts = decision.entryTs := by
  induction bars generalizing wasBelow wasAbove with
  | nil =>
    obtain ⟨bar, mem, ts, -⟩ := vwapScan_bar found
    exact .inr ⟨bar, mem, ts⟩
  | cons bar bars ih =>
    simp only [cons_append, VwapReclaim.scan] at found ⊢
    by_cases ended : now < bar.ts
    · simp [ended] at found
    · rw [if_neg ended] at found ⊢
      cases value : asof vwapMin bar.ts with
      | none =>
        simp only [value] at found ⊢
        exact ih found
      | some v =>
        simp only [value] at found ⊢
        split_ifs at found ⊢
        · exact .inl found
        · exact .inl found
        · exact ih found

theorem vwapScan_extend {vwapMin' : List (Int × ℚ)} (more : List Bar)
    (reached : ∀ bar ∈ bars, bar.ts ≤ later)
    (same : ∀ bar ∈ bars, asof vwapMin' bar.ts = asof vwapMin bar.ts)
    (found : VwapReclaim.scan config vwapMin now wasBelow wasAbove bars = some decision) :
    VwapReclaim.scan config vwapMin' later wasBelow wasAbove (bars ++ more) = some decision := by
  induction bars generalizing wasBelow wasAbove with
  | nil => cases found
  | cons bar bars ih =>
    have here := same bar mem_cons_self
    have tail := fun bar' mem => same bar' (mem_cons_of_mem bar mem)
    have tailReached := fun bar' mem => reached bar' (mem_cons_of_mem bar mem)
    simp only [cons_append, VwapReclaim.scan, here] at found ⊢
    by_cases ended : now < bar.ts
    · simp [ended] at found
    · rw [if_neg ended] at found
      rw [if_neg (reached bar mem_cons_self).not_gt]
      cases value : asof vwapMin bar.ts with
      | none =>
        simp only [value] at found ⊢
        exact ih tailReached tail found
      | some v =>
        simp only [value] at found ⊢
        split_ifs at found ⊢
        · exact found
        · exact found
        · exact ih tailReached tail found

variable {prev : TrendBar} {rows : List TrendBar}

theorem emaScan_bar (found : Ema20Pullback.scan config now prev rows = some decision) :
    ∃ row ∈ rows, row.bar.ts = decision.entryTs ∧ row.bar.close = decision.spot ∧
      row.bar.ts ≤ now := by
  induction rows generalizing prev with
  | nil => cases found
  | cons cur rows ih =>
    simp only [Ema20Pullback.scan] at found
    split_ifs at found with ended
    · cases found
      exact ⟨cur, mem_cons_self, rfl, rfl, not_lt.mp ended⟩
    · cases found
      exact ⟨cur, mem_cons_self, rfl, rfl, not_lt.mp ended⟩
    · obtain ⟨row, mem, same⟩ := ih found
      exact ⟨row, mem_cons_of_mem cur mem, same⟩

theorem emaScan_append (more : List TrendBar)
    (found : Ema20Pullback.scan config now prev (rows ++ more) = some decision) :
    Ema20Pullback.scan config now prev rows = some decision ∨
      ∃ row ∈ more, row.bar.ts = decision.entryTs := by
  induction rows generalizing prev with
  | nil =>
    obtain ⟨row, mem, ts, -⟩ := emaScan_bar found
    exact .inr ⟨row, mem, ts⟩
  | cons cur rows ih =>
    simp only [cons_append, Ema20Pullback.scan] at found ⊢
    split_ifs at found ⊢
    · exact .inl found
    · exact .inl found
    · exact ih found

theorem emaScan_extend (more : List TrendBar) (reached : ∀ row ∈ rows, row.bar.ts ≤ later)
    (found : Ema20Pullback.scan config now prev rows = some decision) :
    Ema20Pullback.scan config later prev (rows ++ more) = some decision := by
  induction rows generalizing prev with
  | nil => cases found
  | cons cur rows ih =>
    simp only [cons_append, Ema20Pullback.scan] at found ⊢
    by_cases ended : now < cur.bar.ts
    · simp [ended] at found
    · rw [if_neg ended] at found
      rw [if_neg (reached cur mem_cons_self).not_gt]
      split_ifs at found ⊢
      · exact found
      · exact found
      · exact ih (fun row mem => reached row (mem_cons_of_mem cur mem)) found

structure Complete (decision : SignalDecision) (past rest : List Bar) : Prop where
  upTo : ∀ m ∈ past, m.bin * fiveMinutes ≤ decision.entryTs
  after : ∀ m ∈ rest, decision.entryTs < m.bin * fiveMinutes

theorem Complete.left {fresh : List Bar} (complete : Complete decision past (rest ++ fresh)) :
    Complete decision past rest :=
  ⟨complete.upTo, fun m mem => complete.after m (mem_append_left fresh mem)⟩

section Complete
variable {past rest : List Bar} (complete : Complete decision past rest)
include complete

theorem Complete.resample : resample5min (past ++ rest) = resample5min past ++ resample5min rest := by
  refine resample5min_append fun a ha b hb => ?_
  have first := complete.upTo a ha
  have second := complete.after b hb
  simp only [fiveMinutes, oneMinute] at first second
  omega

theorem Complete.bar_upTo (bar : Bar) (mem : bar ∈ resample5min past) :
    bar.ts ≤ decision.entryTs := by
  obtain ⟨m, hm, same⟩ := exists_of_mem_resample5min mem
  exact same ▸ complete.upTo m hm

theorem Complete.bar_after (bar : Bar) (mem : bar ∈ resample5min rest) :
    decision.entryTs < bar.ts := by
  obtain ⟨m, hm, same⟩ := exists_of_mem_resample5min mem
  exact same ▸ complete.after m hm

theorem Complete.asof_vwap {bar : Bar} (mem : bar ∈ resample5min past) :
    asof (vwap (past ++ rest)) bar.ts = asof (vwap past) bar.ts := by
  refine asof_vwap_append fun m hm => ?_
  have first := complete.bar_upTo bar mem
  have second := complete.after m hm
  have start : m.bin * fiveMinutes ≤ m.ts := Int.ediv_mul_le _ (by decide)
  omega

end Complete

theorem trendBars_bar {row : TrendBar} (mem : row ∈ trendBars config bars) : row.bar ∈ bars := by
  obtain ⟨pair, hpair, rfl⟩ := mem_map.mp mem
  exact (of_mem_zip hpair).1

theorem detect_bar (found : detect config minutes now = some decision) :
    ∃ bar ∈ resample5min minutes, bar.ts = decision.entryTs ∧ bar.close = decision.spot ∧
      bar.ts ≤ now := by
  unfold detect at found
  split at found
  · obtain ⟨bar, mem, same⟩ := vwapScan_bar found
    exact ⟨bar, mem_of_mem_filter mem, same⟩
  · simp only [Ema20Pullback.detect] at found
    split_ifs at found
    split at found
    · cases found
    next first rest rows =>
      obtain ⟨row, mem, same⟩ := emaScan_bar found
      have member := rows ▸ mem_cons_of_mem first mem
      exact ⟨row.bar, trendBars_bar (mem_of_mem_filter member), same⟩

section Agree
variable {past rest rest' : List Bar} (complete : Complete decision past rest)
  (complete' : Complete decision past rest') (reached : decision.entryTs ≤ later)
include complete complete' reached

theorem vwap_detect_agrees (found : VwapReclaim.detect config (past ++ rest) now = some decision) :
    VwapReclaim.detect config (past ++ rest') later = some decision := by
  simp only [VwapReclaim.detect, complete.resample, complete'.resample, filter_append]
    at found ⊢
  have inPast : VwapReclaim.scan config (vwap (past ++ rest)) now false false
      ((resample5min past).filter fun bar => betweenTime config.scanFrom config.scanTo bar.ts) =
      some decision := by
    refine (vwapScan_append _ found).resolve_right ?_
    rintro ⟨bar, mem, same⟩
    have := complete.bar_after bar (mem_of_mem_filter mem)
    omega
  refine vwapScan_extend _ ?_ ?_ inPast
  · intro bar mem
    exact (complete.bar_upTo bar (mem_of_mem_filter mem)).trans reached
  · intro bar mem
    have member := mem_of_mem_filter mem
    rw [complete.asof_vwap member, complete'.asof_vwap member]

theorem ema_detect_agrees (enough : config.emaSlow ≤ (resample5min (past ++ rest')).length)
    (found : Ema20Pullback.detect config (past ++ rest) now = some decision) :
    Ema20Pullback.detect config (past ++ rest') later = some decision := by
  simp only [Ema20Pullback.detect] at found ⊢
  rw [if_neg enough.not_gt]
  split at found
  · cases found
  · rw [complete.resample] at found
    rw [complete'.resample]
    obtain ⟨tail, split, inRest⟩ :=
      trendBars_append config (resample5min past) (resample5min rest)
    obtain ⟨tail', split', -⟩ :=
      trendBars_append config (resample5min past) (resample5min rest')
    rw [split, filter_append] at found
    rw [split', filter_append]
    have notLater : ∀ row ∈ tail, row.bar.ts ≠ decision.entryTs := by
      intro row mem
      have := complete.bar_after row.bar (inRest row mem)
      omega
    cases upTo : (trendBars config (resample5min past)).filter fun row =>
        betweenTime config.scanFrom config.scanTo row.bar.ts with
    | nil =>
      rw [upTo, nil_append] at found
      split at found
      · cases found
      next first rows equal =>
        obtain ⟨row, mem, same, -⟩ := emaScan_bar found
        have member : row ∈ tail :=
          mem_of_mem_filter (equal ▸ mem_cons_of_mem first mem)
        exact absurd same (notLater row member)
    | cons first rows =>
      rw [upTo] at found
      refine emaScan_extend _ ?_ ((emaScan_append _ found).resolve_right ?_)
      · intro row mem
        have member := mem_of_mem_filter (upTo ▸ mem_cons_of_mem first mem)
        exact (complete.bar_upTo row.bar (trendBars_bar member)).trans reached
      · rintro ⟨row, mem, same⟩
        exact notLater row (mem_of_mem_filter mem) same

/-- Frames with the same minutes up to the end of a signal bar agree on the signal. -/
theorem detect_agrees
    (enough : config.algo = .ema20Pullback → config.emaSlow ≤ (resample5min (past ++ rest')).length)
    (found : detect config (past ++ rest) now = some decision) :
    detect config (past ++ rest') later = some decision := by
  unfold detect at found ⊢
  cases algo : config.algo with
  | vwapReclaim =>
    simp only [algo] at found ⊢
    exact vwap_detect_agrees complete complete' reached found
  | ema20Pullback =>
    simp only [algo] at found ⊢
    exact ema_detect_agrees complete complete' reached (enough algo) found

end Agree

theorem map_ts_resample5min (minutes : List Bar) : (resample5min minutes).map Bar.ts =
    ((minutes.map Bar.bin).dedup.insertionSort (· ≤ ·)).map (· * fiveMinutes) := by
  rw [resample5min, map_filterMap]
  refine (filterMap_congr fun bin mem => ?_).trans (congrFun filterMap_eq_map _)
  obtain ⟨m, hm, rfl⟩ := mem_bins.mp mem
  have member : m ∈ minutes.filter fun minute => minute.bin = m.bin :=
    mem_filter.mpr ⟨hm, by simp⟩
  split
  next none => simp [none] at member
  · rfl

theorem length_resample5min_le (minutes more : List Bar) :
    (resample5min minutes).length ≤ (resample5min (minutes ++ more)).length := by
  have bins : ∀ minutes, (resample5min minutes).length = (minutes.map Bar.bin).dedup.length := by
    intro minutes
    have lengths := congrArg List.length (map_ts_resample5min minutes)
    rwa [length_map, length_map, length_insertionSort] at lengths
  rw [bins, bins]
  refine (subperm_of_subset (nodup_dedup _) ?_).length_le
  intro bin mem
  rw [mem_dedup] at mem ⊢
  rw [map_append]
  exact mem_append_left _ mem

theorem enough_of_detect (found : detect config minutes now = some decision)
    (algo : config.algo = .ema20Pullback) : config.emaSlow ≤ (resample5min minutes).length := by
  simp only [detect, algo, Ema20Pullback.detect] at found
  split_ifs at found with few
  exact not_lt.mp few

variable {past rest fresh : List Bar}

theorem detect_stays (complete : Complete decision past (rest ++ fresh)) (passed : now ≤ later)
    (found : detect config (past ++ rest) now = some decision) :
    detect config (past ++ (rest ++ fresh)) later = some decision := by
  obtain ⟨bar, -, ts, -, reached⟩ := detect_bar found
  refine detect_agrees complete.left complete (by omega) (fun algo => ?_) found
  refine (enough_of_detect found algo).trans ?_
  rw [← List.append_assoc]
  exact length_resample5min_le _ fresh

end AlgoSystem.Proof.Intraday.Signals
