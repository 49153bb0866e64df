import Mathlib.Algebra.BigOperators.Ring.List
import Mathlib.Algebra.Order.BigOperators.Group.List
import Mathlib.Algebra.Order.Ring.Rat
import Mathlib.Tactic.LinearCombination
import Mathlib.Tactic.Ring
import AlgoSystem.MarketData.StraddleChart
import AlgoSystem.Proof.MarketData.Candles

namespace AlgoSystem.Proof.MarketData.StraddleVwap
open AlgoSystem.MarketData General List

section Weights
variable {α : Type} (price plotted traded : α → ℚ)

def weighed (weight : α → ℚ) (l : List α) : ℚ := (l.map fun a => price a * weight a).sum

/-- The price is the average so far, or the two weights are in the proportion they had so far. -/
def Harmless (earlier : List α) (a : α) : Prop :=
  price a * (earlier.map plotted).sum = weighed price plotted earlier ∨
    traded a * (earlier.map plotted).sum = plotted a * (earlier.map traded).sum

def Agree (l : List α) : Prop :=
  weighed price plotted l * (l.map traded).sum = weighed price traded l * (l.map plotted).sum

variable {price plotted traded} {earlier l : List α} {a : α}

theorem averages_step {PV W XV X v w x : ℚ} (same : PV * X = XV * W)
    (weight : 0 < W ∨ W = 0 ∧ PV = 0 ∧ X = 0 ∧ XV = 0) :
    (PV + v * w) * (X + x) = (XV + v * x) * (W + w) ↔ v * W = PV ∨ x * W = w * X := by
  obtain positive | ⟨rfl, rfl, rfl, rfl⟩ := weight
  · have product : ((PV + v * w) * (X + x) - (XV + v * x) * (W + w)) * W =
        (PV - v * W) * (x * W - w * X) := by
      linear_combination (W + w) * same
    rw [← sub_eq_zero, ← mul_eq_zero_iff_right positive.ne', product, mul_eq_zero, sub_eq_zero,
      sub_eq_zero]
    exact or_congr_left eq_comm
  · simp only [mul_zero, zero_add, true_or, iff_true]
    ring

theorem weighed_snoc (weight : α → ℚ) (l : List α) (a : α) :
    weighed price weight (l ++ [a]) = weighed price weight l + price a * weight a := by
  simp [weighed]

theorem harmless_of_constant {c : ℚ} (before : ∀ b ∈ earlier, price b = c) (own : price a = c) :
    Harmless price plotted traded earlier a := by
  left
  have factors : earlier.map (fun b => price b * plotted b) = earlier.map fun b => c * plotted b :=
    map_congr_left fun b mem => by rw [before b mem]
  rw [own, weighed, factors, sum_map_mul_left]

theorem agree_snoc (positive : ∀ b ∈ earlier, 0 < plotted b)
    (same : Agree price plotted traded earlier) :
    Agree price plotted traded (earlier ++ [a]) ↔ Harmless price plotted traded earlier a := by
  simp only [Agree, weighed_snoc, map_append, map_cons, map_nil, sum_append, sum_singleton]
  apply averages_step same
  cases earlier with
  | nil => simp [weighed]
  | cons b rest =>
    refine .inl (sum_pos _ ?_ (by simp))
    intro w member
    obtain ⟨c, isHere, rfl⟩ := mem_map.mp member
    exact positive c isHere

theorem averages_iff (positive : ∀ a ∈ l, 0 < plotted a) :
    (∀ earlier a later, l = earlier ++ a :: later → Agree price plotted traded (earlier ++ [a])) ↔
      ∀ earlier a later, l = earlier ++ a :: later →
        Harmless price plotted traded earlier a := by
  have before {earlier later : List α} {a : α} (here : l = earlier ++ a :: later) :
      ∀ b ∈ earlier, 0 < plotted b :=
    fun b mem => positive b (here ▸ mem_append_left _ mem)
  constructor
  · intro same earlier a later here
    refine (agree_snoc (before here) ?_).mp (same earlier a later here)
    induction earlier using List.reverseRecOn with
    | nil => simp [Agree, weighed]
    | append_singleton front b _ => exact same front b (a :: later) (by simpa using here)
  · intro harmless earlier a later here
    -- from the front: every point before is harmless as well
    induction earlier using List.reverseRecOn generalizing a later with
    | nil => exact (agree_snoc (before here) (by simp [Agree, weighed])).mpr (harmless [] a later here)
    | append_singleton front b ih =>
      refine (agree_snoc (before here) ?_).mpr (harmless _ a later here)
      exact ih b (a :: later) (by simpa using here)

end Weights

section Traded
variable {ticks : List (Tick ℚ)}

def cumulative (ticks : List (Tick ℚ)) (keep : Tick ℚ → Bool) : Int :=
  ((0 : Int) :: (ticks.filter keep).filterMap Tick.volume).getLast (List.cons_ne_nil _ _)

def tradedIn (ticks : List (Tick ℚ)) (minute : Int) : Int :=
  cumulative ticks (fun tick => tick.minute ≤ minute) -
    cumulative ticks fun tick => tick.minute < minute

def Cumulative (ticks : List (Tick ℚ)) : Prop :=
  (0 :: ticks.filterMap Tick.volume).Pairwise (· ≤ ·)

theorem tradedIn_nonneg (reports : Cumulative ticks) (minute : Int) : 0 ≤ tradedIn ticks minute := by
  apply Int.sub_nonneg_of_le
  have sub : ((0 : Int) :: (ticks.filter fun t => t.minute ≤ minute).filterMap Tick.volume).Sublist
      (0 :: ticks.filterMap Tick.volume) := (filter_sublist.filterMap _).cons_cons 0
  apply (reports.sublist sub).rel_getLast
  have before : (ticks.filter fun t => t.minute < minute) ⊆
      ticks.filter fun t => t.minute ≤ minute := by
    intro t member
    simp only [mem_filter, decide_eq_true_eq] at member ⊢
    exact ⟨member.1, member.2.le⟩
  exact cons_subset_cons 0 (filterMap_subset _ before) (getLast_mem _)

variable {calls : List (Call ℚ)} {key : SeriesKey}

def ticksOf (calls : List (Call ℚ)) (key : SeriesKey) : List (Tick ℚ) :=
  calls.filterMap (Call.tickFor key)

theorem candleVolume_nonneg (reports : Cumulative (ticksOf calls key)) (timestamp : Int) :
    0 ≤ candleVolume (candleAt (minuteCandles calls key) timestamp) := by
  cases found : candleAt (minuteCandles calls key) timestamp with
  | none => exact le_rfl
  | some c =>
    have emitted : c ∈ minuteCandles calls key := mem_reverse.mp (mem_of_find?_eq_some found)
    obtain ⟨-, summarized, -⟩ := performAll_candles "1minute" calls key
    show 0 ≤ c.volume.getD 0
    cases volume : c.volume with
    | none => exact le_rfl
    | some v =>
      -- the volume of a candle is one that a tick of its minute reported
      have last := (summarized c emitted).volume.symm.trans volume
      obtain ⟨tick, mem, reported⟩ :=
        mem_map.mp (reduceOption_mem_iff.mp (mem_of_getLast? last))
      obtain ⟨call, member, received⟩ := exists_call_of_mem_accepted (mem_of_mem_filter mem)
      apply (pairwise_cons.mp reports).1
      exact mem_filterMap.mpr ⟨tick, mem_filterMap.mpr ⟨call, member, received⟩, reported⟩

end Traded

section Chart
variable {calls : List (Call ℚ)} {ceKey peKey : SeriesKey} {ce pe : List (Tick ℚ)}
  {points : List StraddlePoint}

theorem weight_pos (ceReports : Cumulative (ticksOf calls ceKey))
    (peReports : Cumulative (ticksOf calls peKey)) (lastCe lastPe : Option ℚ)
    (spot : List (Candle ℚ)) :
    ∀ p ∈ straddleFrom (minuteCandles calls ceKey) (minuteCandles calls peKey) lastCe lastPe spot,
      0 < p.weight := by
  induction spot generalizing lastCe lastPe with
  | nil => simp [straddleFrom]
  | cons s spot ih =>
    intro p member
    simp only [straddleFrom] at member
    split at member
    · obtain rfl | later := mem_cons.mp member
      · have first := candleVolume_nonneg ceReports s.timestamp
        have second := candleVolume_nonneg peReports s.timestamp
        unfold StraddlePoint.weight
        split
        · norm_num
        · simp only [Option.getD_some, Int.cast_pos]
          omega
      · exact ih _ _ p later
    · exact ih _ _ p member

theorem vwapFrom_getElem? (positive : ∀ p ∈ points, 0 < p.weight) (PV : ℚ) {W : ℚ}
    (nonneg : 0 ≤ W) {earlier later : List StraddlePoint} {p : StraddlePoint}
    (here : points = earlier ++ p :: later) :
    (vwapFrom PV W points)[earlier.length]? =
      some (p.t, (PV + weighed StraddlePoint.v StraddlePoint.weight (earlier ++ [p])) /
        (W + ((earlier ++ [p]).map StraddlePoint.weight).sum)) := by
  subst here
  induction earlier generalizing PV W with
  | nil =>
    have weight := add_pos_of_nonneg_of_pos nonneg (positive p (by simp))
    simp [vwapFrom, weighed, weight]
  | cons q earlier ih =>
    have weight := add_nonneg nonneg (positive q (by simp)).le
    have rest := ih (PV + q.v * q.weight) weight
      fun r mem => positive r (mem_cons_of_mem _ mem)
    simpa [vwapFrom, weighed, add_assoc] using rest

def tradedAt (ce pe : List (Tick ℚ)) (p : StraddlePoint) : ℚ :=
  ((tradedIn ce p.t + tradedIn pe p.t : Int) : ℚ)

theorem tradedAt_nonneg (ceReports : Cumulative ce) (peReports : Cumulative pe)
    (p : StraddlePoint) : 0 ≤ tradedAt ce pe p := by
  have first := tradedIn_nonneg ceReports p.t
  have second := tradedIn_nonneg peReports p.t
  exact Int.cast_nonneg (Int.add_nonneg first second)

theorem weighed_of_sum_eq_zero (ceReports : Cumulative ce) (peReports : Cumulative pe)
    (nothing : (points.map (tradedAt ce pe)).sum = 0) :
    weighed StraddlePoint.v (tradedAt ce pe) points = 0 := by
  apply sum_eq_zero
  intro x member
  obtain ⟨p, mem, rfl⟩ := mem_map.mp member
  have none : tradedAt ce pe p = 0 := by
    apply all_zero_of_le_zero_le_of_sum_eq_zero _ nothing (mem_map_of_mem mem)
    intro y isTraded
    obtain ⟨q, -, rfl⟩ := mem_map.mp isTraded
    exact tradedAt_nonneg ceReports peReports q
  rw [none, mul_zero]

/-- The chart weighs a minute with the volume of the whole day so far. Its VWAP is the true one
exactly when every point is harmless. -/
theorem vwap_exact_iff (ceReports : Cumulative (ticksOf calls ceKey))
    (peReports : Cumulative (ticksOf calls peKey)) (spot : List (Candle ℚ)) :
    let ce := ticksOf calls ceKey
    let pe := ticksOf calls peKey
    let points := buildStraddleSeries spot (minuteCandles calls ceKey) (minuteCandles calls peKey)
    (∀ earlier p later, points = earlier ++ p :: later →
        0 < ((earlier ++ [p]).map (tradedAt ce pe)).sum →
        (vwap points)[earlier.length]? =
          some (p.t, weighed StraddlePoint.v (tradedAt ce pe) (earlier ++ [p]) /
            ((earlier ++ [p]).map (tradedAt ce pe)).sum)) ↔
      ∀ earlier p later, points = earlier ++ p :: later →
        Harmless StraddlePoint.v StraddlePoint.weight (tradedAt ce pe) earlier p := by
  intro ce pe points
  have positive : ∀ p ∈ points, 0 < p.weight := weight_pos ceReports peReports none none spot
  rw [← averages_iff positive]
  refine forall_congr' fun earlier => forall_congr' fun p => forall_congr' fun later =>
    imp_congr_right fun here => ?_
  have plotted : 0 < ((earlier ++ [p]).map StraddlePoint.weight).sum := by
    apply sum_pos _ _ (by simp)
    intro w member
    obtain ⟨q, mem, rfl⟩ := mem_map.mp member
    apply positive q
    rw [here, append_cons]
    exact mem_append_left _ mem
  have nonneg : 0 ≤ ((earlier ++ [p]).map (tradedAt ce pe)).sum := by
    apply sum_nonneg
    intro x member
    obtain ⟨q, -, rfl⟩ := mem_map.mp member
    exact tradedAt_nonneg ceReports peReports q
  rw [vwap, vwapFrom_getElem? positive 0 le_rfl here, zero_add, zero_add]
  obtain traded | nothing := nonneg.lt_or_eq
  · simp only [traded, forall_const, Option.some_inj, Prod.mk.injEq, true_and]
    exact div_eq_div_iff plotted.ne' traded.ne'
  · rw [Agree, weighed_of_sum_eq_zero ceReports peReports nothing.symm, ← nothing]
    simp

end Chart

def spot : SeriesKey := .index "NIFTY" "NSE"

/-- A minute's ticks of the spot (at 25000), the call option and the put option, and its flush. -/
def minute (n : Int) (ce pe : ℚ) (volume : Int) : List (Call ℚ) :=
  let ts := n * oneMinute
  [.onIndexTick "NIFTY" "NSE" ⟨ts, 25000, none, none⟩, .onOptionTick 1 ⟨ts, ce, some volume, none⟩,
    .onOptionTick 2 ⟨ts, pe, some volume, none⟩, .flush (ts + oneMinute)]

theorem constant_straddle_vwap :
    let calls := minute 0 100 50 10 ++ minute 1 110 40 20 ++ [.forceCloseAll (2 * oneMinute)]
    (vwap (buildStraddleSeries (minuteCandles calls spot) (minuteCandles calls (.option 1))
      (minuteCandles calls (.option 2))))[1]? = some (oneMinute, 150) := by
  intro calls
  have points : buildStraddleSeries (minuteCandles calls spot) (minuteCandles calls (.option 1))
      (minuteCandles calls (.option 2)) =
        [⟨0, 150, 25000, 100, 50, some 20⟩] ++ [⟨oneMinute, 150, 25000, 110, 40, some 40⟩] := by
    decide +kernel
  have exact := (@vwap_exact_iff calls (.option 1) (.option 2) (by unfold Cumulative; decide)
    (by unfold Cumulative; decide) (minuteCandles calls spot)).mpr
    fun earlier p later here => by
      have prices : ∀ q ∈ earlier ++ p :: later, q.v = 150 := by
        rw [← here, points]
        decide
      exact harmless_of_constant (fun q mem => prices q (mem_append_left _ mem))
        (prices p (by simp))
  have last := exact _ _ [] points (by decide +kernel)
  exact last.trans (by decide +kernel)

theorem rising_straddle_vwap :
    let calls := minute 0 100 50 10 ++ minute 1 200 50 20
    let points := buildStraddleSeries (minuteCandles calls spot) (minuteCandles calls (.option 1))
      (minuteCandles calls (.option 2))
    (points.map (tradedAt (ticksOf calls (.option 1)) (ticksOf calls (.option 2))),
        points.map StraddlePoint.v) = ([20, 20], [150, 250]) ∧
      (vwap points)[1]? = some (oneMinute, 650 / 3) := by
  decide +kernel

end AlgoSystem.Proof.MarketData.StraddleVwap
