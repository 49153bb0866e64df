import AlgoSystem.General.Lists
import AlgoSystem.Proof.Intraday.Signals

namespace AlgoSystem.Proof.Intraday.Repaint
open General MarketData AlgoSystem.Intraday Signals List

variable {config : Config} {now later : Int} {decision : SignalDecision}
variable {a bar' : Bar} {row : TrendBar} {rest own fresh : List Bar} {vwapMin : List (Int × ℚ)}
  {wasBelow wasAbove : Bool}

def barClose (minutes : List Bar) (ts : Int) : Option ℚ :=
  (minutes.filter fun minute => minute.bin * fiveMinutes = ts).getLast?.map Bar.close

theorem bin_mul_le (minute : Bar) : minute.bin * fiveMinutes ≤ minute.ts :=
  Int.ediv_mul_le _ (by decide)

variable {b : Bar}

theorem bin_mono (before : a.ts ≤ b.ts) : a.bin ≤ b.bin :=
  Int.ediv_le_ediv (by decide) before

theorem bin_mul_mono (before : a.ts ≤ b.ts) : a.bin * fiveMinutes ≤ b.bin * fiveMinutes :=
  Int.mul_le_mul_of_nonneg_right (bin_mono before) (by decide)

variable {bin : Int}

theorem bin_mul_eq_iff {minute : Bar} :
    minute.bin * fiveMinutes = bin * fiveMinutes ↔ minute.bin = bin := by
  simp only [fiveMinutes, oneMinute]
  omega

variable {minutes : List Bar} {bar : Bar}

theorem barClose_of_mem (mem : bar ∈ resample5min minutes) :
    barClose minutes bar.ts = some bar.close := by
  obtain ⟨bin, -, made⟩ := mem_filterMap.mp mem
  split at made
  · cases made
  next first rest own =>
    cases made
    simp only [barClose, aggregate, bin_mul_eq_iff, own, getLast?_cons, Option.map_some]

variable {bars : List Bar}

theorem detect_barClose (found : detect config minutes now = some decision) :
    barClose minutes decision.entryTs = some decision.spot := by
  obtain ⟨bar, mem, ts, close, -⟩ := detect_bar found
  rw [← ts, ← close]
  exact barClose_of_mem mem

theorem resample5min_own {first : Bar} (own : ∀ m ∈ first :: rest, m.bin = bin) :
    resample5min (first :: rest) = [aggregate bin first rest] := by
  have bins : (first :: rest).map Bar.bin = List.replicate (rest.length + 1) bin := by
    refine eq_replicate_iff.mpr ⟨by simp, fun b mem => ?_⟩
    obtain ⟨m, hm, rfl⟩ := mem_map.mp mem
    exact own m hm
  have all : (first :: rest).filter (fun m => decide (m.bin = bin)) = first :: rest :=
    filter_eq_self.mpr fun m hm => decide_eq_true (own m hm)
  rw [resample5min, bins, replicate_dedup (Nat.succ_ne_zero _)]
  simp [all]

theorem vwapScan_congr {vwapMin' : List (Int × ℚ)}
    (same : ∀ b ∈ bars, asof vwapMin' b.ts = asof vwapMin b.ts) :
    VwapReclaim.scan config vwapMin' now wasBelow wasAbove bars =
      VwapReclaim.scan config vwapMin now wasBelow wasAbove bars := by
  induction bars generalizing wasBelow wasAbove with
  | nil => rfl
  | cons b bars ih =>
    have here := same b mem_cons_self
    have tail := fun b' mem => same b' (mem_cons_of_mem b mem)
    simp only [VwapReclaim.scan, here, ih tail]

theorem vwapScan_snoc (ts : bar'.ts = bar.ts) (opening : bar'.opening = bar.opening)
    (close : bar'.close = bar.close) :
    VwapReclaim.scan config vwapMin now wasBelow wasAbove (bars ++ [bar']) =
      VwapReclaim.scan config vwapMin now wasBelow wasAbove (bars ++ [bar]) := by
  induction bars generalizing wasBelow wasAbove with
  | nil => simp only [nil_append, VwapReclaim.scan, signalAt, ts, opening, close]
  | cons b bars ih => simp only [cons_append, VwapReclaim.scan, ih]

theorem emaScan_snoc {prev row' : TrendBar} {rows : List TrendBar} (ts : row'.bar.ts = row.bar.ts)
    (close : row'.bar.close = row.bar.close) (fast : row'.emaFast = row.emaFast)
    (slow : row'.emaSlow = row.emaSlow) :
    Ema20Pullback.scan config now prev (rows ++ [row']) =
      Ema20Pullback.scan config now prev (rows ++ [row]) := by
  induction rows generalizing prev with
  | nil => simp only [nil_append, Ema20Pullback.scan, signalAt, ts, close, fast, slow]
  | cons cur rows ih => simp only [cons_append, Ema20Pullback.scan, ih]

theorem trendBars_snoc (config : Config) (bars : List Bar) (bar : Bar) :
    ∃ fast slow, ∀ bar' : Bar, bar'.close = bar.close →
      trendBars config (bars ++ [bar']) = trendBars config bars ++ [⟨bar', fast, slow⟩] := by
  obtain ⟨fast, equalFast⟩ := ewm_append config.emaFast (bars.map Bar.close) [bar.close]
  obtain ⟨slow, equalSlow⟩ := ewm_append config.emaSlow (bars.map Bar.close) [bar.close]
  have single : ∀ {span : Nat} {tail : List ℚ},
      ewm span (bars.map Bar.close ++ [bar.close]) = ewm span (bars.map Bar.close) ++ tail →
      ∃ x, tail = [x] := by
    intro span tail equal
    have lengths := congrArg List.length equal
    simp only [length_ewm, length_append, length_map, length_singleton] at lengths
    exact length_eq_one_iff.mp (by omega)
  obtain ⟨f, rfl⟩ := single equalFast
  obtain ⟨s, rfl⟩ := single equalSlow
  refine ⟨f, s, fun bar' close => ?_⟩
  simp only [trendBars, map_append, map_cons, map_nil, close, equalFast, equalSlow]
  rw [zip_append (by simp [length_ewm]), zip_append (by simp [length_ewm]),
    map_append]
  rfl

theorem detect_congr {minutes' : List Bar} (resampled : resample5min minutes = bars ++ [bar])
    (resampled' : resample5min minutes' = bars ++ [bar']) (ts : bar'.ts = bar.ts)
    (opening : bar'.opening = bar.opening) (close : bar'.close = bar.close)
    (same : ∀ b ∈ bars ++ [bar], asof (vwap minutes') b.ts = asof (vwap minutes) b.ts) :
    detect config minutes' now = detect config minutes now := by
  unfold detect
  cases config.algo with
  | vwapReclaim =>
    simp only [VwapReclaim.detect, resampled, resampled']
    rw [← vwapScan_congr fun b mem => same b (mem_of_mem_filter mem)]
    simp only [filter_append, filter_singleton, ts]
    cases betweenTime config.scanFrom config.scanTo bar.ts with
    | true => exact vwapScan_snoc ts opening close
    | false => rfl
  | ema20Pullback =>
    obtain ⟨fast, slow, rows⟩ := trendBars_snoc config bars bar
    simp only [Ema20Pullback.detect, resampled, resampled', length_append,
      length_singleton, rows bar rfl, rows bar' close, filter_append,
      filter_singleton, ts]
    cases betweenTime config.scanFrom config.scanTo bar.ts with
    | true =>
      cases (trendBars config bars).filter fun row =>
          betweenTime config.scanFrom config.scanTo row.bar.ts with
      | nil => rfl
      | cons first rest =>
        have swapped : Ema20Pullback.scan config now first (rest ++ [⟨bar', fast, slow⟩]) =
            Ema20Pullback.scan config now first (rest ++ [⟨bar, fast, slow⟩]) :=
          emaScan_snoc ts close rfl rfl
        simp only [cons_append, cond_true, swapped]
    | false => rfl

theorem upTo_downward (increasing : minutes.Pairwise fun a b => a.ts < b.ts) (ts : Int) :
    minutes.Pairwise fun a b => b.bin * fiveMinutes ≤ ts → a.bin * fiveMinutes ≤ ts :=
  increasing.imp fun before => (bin_mul_mono before.le).trans

theorem asof_vwap_grows {early : List Bar} (first : Bar) (rest : List Bar)
    (isEarly : ∀ m ∈ early, m.bin < bin) (inBin : first.bin = bin)
    (after : ∀ m ∈ own, first.ts < m.ts)
    (mem : b ∈ resample5min early ++ [aggregate bin first rest]) :
    asof (vwap (early ++ first :: rest ++ own)) b.ts = asof (vwap (early ++ first :: rest)) b.ts := by
  refine asof_vwap_append fun m hm => ?_
  have start : bin * fiveMinutes < m.ts := by
    have lower := bin_mul_le first
    rw [inBin] at lower
    exact lower.trans_lt (after m hm)
  rcases mem_append.mp mem with old | last
  · obtain ⟨e, he, same⟩ := exists_of_mem_resample5min old
    have earlier := isEarly e he
    rw [same]
    simp only [fiveMinutes, oneMinute] at start ⊢
    omega
  · rw [mem_singleton.mp last]
    exact start

variable {past : List Bar}

theorem detect_grows (increasing : (past ++ own).Pairwise fun a b => a.ts < b.ts)
    (upTo : ∀ m ∈ past, m.bin ≤ bin) (started : ∃ m ∈ past, m.bin = bin)
    (inBin : ∀ m ∈ own, m.bin = bin)
    (close : barClose (past ++ own) (bin * fiveMinutes) = barClose past (bin * fiveMinutes)) :
    detect config (past ++ own) now = detect config past now := by
  obtain ⟨pastOrder, -, fresh⟩ := pairwise_append.mp increasing
  obtain ⟨early, current, rfl, isEarly, notEarly⟩ := exists_split (fun m : Bar => m.bin < bin)
    (pastOrder.imp fun before => (bin_mono before.le).trans_lt)
  have inCurrent : ∀ m ∈ current, m.bin = bin := fun m hm =>
    le_antisymm (upTo m (mem_append_right _ hm)) (not_lt.mp (notEarly m hm))
  cases current with
  | nil =>
    obtain ⟨m, hm, same⟩ := started
    rw [append_nil] at hm
    exact absurd same (isEarly m hm).ne
  | cons first rest =>
    have whole : ∀ m ∈ first :: (rest ++ own), m.bin = bin := by
      rw [← cons_append, forall_mem_append]
      exact ⟨inCurrent, inBin⟩
    have before : resample5min (early ++ first :: rest) =
        resample5min early ++ [aggregate bin first rest] := by
      rw [resample5min_append fun a ha b hb => inCurrent b hb ▸ isEarly a ha,
        resample5min_own inCurrent]
    have after : resample5min (early ++ first :: rest ++ own) =
        resample5min early ++ [aggregate bin first (rest ++ own)] := by
      rw [List.append_assoc, cons_append,
        resample5min_append fun a ha b hb => whole b hb ▸ isEarly a ha, resample5min_own whole]
    refine detect_congr before after rfl rfl ?_ ?_
    · have newClose := barClose_of_mem (after ▸ mem_append_right _ mem_cons_self)
      have oldClose := barClose_of_mem (before ▸ mem_append_right _ mem_cons_self)
      exact Option.some.inj (newClose.symm.trans (close.trans oldClose))
    · exact fun b mem => asof_vwap_grows first rest isEarly
        (inCurrent first mem_cons_self) (fun m hm => fresh first (by simp) m hm) mem

theorem barClose_append {ts : Int} (other : ∀ m ∈ rest, m.bin * fiveMinutes ≠ ts) :
    barClose (past ++ rest) ts = barClose past ts := by
  have none : rest.filter (fun m => decide (m.bin * fiveMinutes = ts)) = [] := by
    refine filter_eq_nil_iff.mpr fun m mem => ?_
    rw [decide_eq_true_eq]
    exact other m mem
  rw [barClose, filter_append, none, append_nil]
  rfl

section
variable (increasing : (past ++ fresh).Pairwise fun a b => a.ts < b.ts)
include increasing

theorem exists_complete {m : Bar} (inPast : m ∈ past)
    (beyond : decision.entryTs < m.bin * fiveMinutes) :
    ∃ front back, past = front ++ back ∧ Complete decision front (back ++ fresh) := by
  obtain ⟨pastOrder, -, cross⟩ := pairwise_append.mp increasing
  obtain ⟨front, back, rfl, inFront, inBack⟩ := exists_split
    (fun m : Bar => m.bin * fiveMinutes ≤ decision.entryTs)
    (upTo_downward pastOrder decision.entryTs)
  refine ⟨front, back, rfl, inFront, forall_mem_append.mpr ⟨?_, ?_⟩⟩
  · exact fun b hb => not_le.mp (inBack b hb)
  · exact fun b hb => beyond.trans_le (bin_mul_mono (cross m inPast b hb).le)

/-- As the day goes on, the first signal bar never moves back. -/
theorem entryTs_le_of_grows {earlier : SignalDecision}
    (found : detect config past now = some earlier)
    (again : detect config (past ++ fresh) later = some decision) :
    earlier.entryTs ≤ decision.entryTs := by
  by_contra before
  obtain ⟨bar, mem, ts, -, reached⟩ := detect_bar found
  obtain ⟨signal, inPast, start⟩ := exists_of_mem_resample5min mem
  have beyond : decision.entryTs < signal.bin * fiveMinutes := by omega
  obtain ⟨front, back, rfl, complete⟩ := exists_complete increasing inPast beyond
  rw [List.append_assoc] at again
  -- the minutes up to the end of this bar were there before, so it gave the signal then
  have same := detect_agrees complete complete.left (by omega : _ ≤ now) (enough_of_detect found)
    again
  rw [found] at same
  cases same
  exact before le_rfl

variable (passed : now ≤ later)
include passed

theorem detect_again_of_complete {m : Bar} (inPast : m ∈ past)
    (beyond : decision.entryTs < m.bin * fiveMinutes)
    (found : detect config past now = some decision) :
    detect config (past ++ fresh) later = some decision := by
  obtain ⟨front, back, rfl, complete⟩ := exists_complete increasing inPast beyond
  rw [List.append_assoc]
  exact detect_stays complete passed found

theorem detect_again_of_forming (forming : ∀ m ∈ past, m.bin * fiveMinutes ≤ decision.entryTs)
    (found : detect config past now = some decision)
    (close : barClose (past ++ fresh) decision.entryTs = some decision.spot) :
    detect config (past ++ fresh) later = some decision := by
  obtain ⟨bar, mem, ts, -⟩ := detect_bar found
  obtain ⟨signal, inPast, start⟩ := exists_of_mem_resample5min mem
  rw [ts] at start
  obtain ⟨-, freshOrder, cross⟩ := pairwise_append.mp increasing
  -- the new minutes of the bar, and those after it
  obtain ⟨own, after, rfl, inOwn, inAfter⟩ := exists_split
    (fun m : Bar => m.bin * fiveMinutes ≤ decision.entryTs)
    (upTo_downward freshOrder decision.entryTs)
  have ownBin : ∀ m ∈ own, m.bin = signal.bin := by
    intro m hm
    have upper := inOwn m hm
    have lower := bin_mul_mono (cross signal inPast m (mem_append_left _ hm)).le
    exact bin_mul_eq_iff.mp (le_antisymm (upper.trans start.le) lower)
  have upTo : ∀ m ∈ past, m.bin ≤ signal.bin := by
    intro m hm
    have bound := forming m hm
    rw [start] at bound
    simp only [fiveMinutes, oneMinute] at bound
    omega
  rw [← List.append_assoc] at increasing close ⊢
  rw [barClose_append fun m hm => (not_le.mp (inAfter m hm)).ne'] at close
  have grown : detect config (past ++ own) now = some decision := by
    rw [detect_grows (pairwise_append.mp increasing).1 upTo ⟨signal, inPast, rfl⟩ ownBin ?_, found]
    rw [← start, close, detect_barClose found]
  rw [← append_nil (past ++ own)] at grown
  refine detect_stays ⟨?_, fun b hb => not_le.mp (inAfter b hb)⟩ passed grown
  rw [forall_mem_append]
  exact ⟨forming, inOwn⟩

end

theorem detect_again_iff {past fresh : List Bar}
    (increasing : (past ++ fresh).Pairwise fun a b => a.ts < b.ts) (passed : now ≤ later)
    (found : detect config past now = some decision) :
    detect config (past ++ fresh) later = some decision ↔
      barClose (past ++ fresh) decision.entryTs = some decision.spot := by
  refine ⟨detect_barClose, fun close => ?_⟩
  by_cases ended : ∃ m ∈ past, decision.entryTs < m.bin * fiveMinutes
  · obtain ⟨m, inPast, beyond⟩ := ended
    exact detect_again_of_complete increasing passed inPast beyond found
  · push Not at ended
    exact detect_again_of_forming increasing passed ended found close

def tuesdayAt (minute : Int) : Int := 20396 * oneDay + hhmm 9 minute

def candle (minute : Int) (opening close : ℚ) : Bar :=
  ⟨tuesdayAt minute, opening, max opening close, min opening close, close⟩

def reclaiming : List Bar := [candle 30 100 98, candle 35 90 110]

def reclaimed : SignalDecision := ⟨.ce, 50, 110, tuesdayAt 35⟩

theorem detect_again_while_close_holds :
    detect VwapReclaim.config (reclaiming ++ [candle 36 105 110]) (tuesdayAt 36) = some reclaimed :=
  (detect_again_iff (by decide +kernel) (by decide : tuesdayAt 35 ≤ tuesdayAt 36)
    (by decide +kernel)).mpr (by decide +kernel)

theorem forming_bar_repaints :
    (reclaiming ++ [candle 36 110 80]).Pairwise (fun a b => a.ts < b.ts) ∧
      detect VwapReclaim.config reclaiming (tuesdayAt 35) = some reclaimed ∧
      detect VwapReclaim.config (reclaiming ++ [candle 36 110 80]) (tuesdayAt 36) = none := by
  refine ⟨?_, ?_, ?_⟩ <;> decide +kernel

end AlgoSystem.Proof.Intraday.Repaint
