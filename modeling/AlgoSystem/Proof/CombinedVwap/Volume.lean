import AlgoSystem.CombinedVwap.Candles
import AlgoSystem.General.Runs
import AlgoSystem.General.Spans
import Mathlib.Algebra.Order.Ring.Rat
import Mathlib.Data.List.Induction

namespace AlgoSystem.Proof.CombinedVwap.Volume
open General AlgoSystem.CombinedVwap List
open AlgoSystem.VwapHedge (DateTime Candle Tick previousMinute)

inductive LiveAlgo where
  | combined
  | hedge

namespace LiveAlgo

def flushes : LiveAlgo → DateTime → Bool
  | .combined => CombinedVwap.flushes
  | .hedge => VwapHedge.flushes

def candle (ohlc : List Candle) (ticks : List Tick) (dt : DateTime) : LiveAlgo → Candle
  | .combined =>
    let buffer := ticks.foldl Buffer.updateCandle {}
    CombinedVwap.liveCandle ohlc buffer.ltpList buffer.volList dt
  | .hedge => VwapHedge.liveCandle ohlc ticks dt

def uses (dt : DateTime) (tick : Tick) : LiveAlgo → Bool
  | .combined => true
  | .hedge => tick.minute = dt.minute ∨ tick.minute = previousMinute dt.minute

end LiveAlgo

structure Feed where
  ohlc : List Candle
  live : List Candle := []
  ticks : List Tick := []
  taken : List (DateTime × List Tick) := []

inductive FeedEvent where
  | tick (tick : Tick)
  | flush (dt : DateTime)

def feedStep (algo : LiveAlgo) (s : Feed) : FeedEvent → Option Feed
  | .tick tick => some { s with ticks := s.ticks ++ [tick] }
  | .flush dt =>
    if algo.flushes dt then
      let candle := algo.candle s.ohlc s.ticks dt
      some {
        ohlc := s.ohlc ++ [candle]
        live := s.live ++ [candle]
        ticks := []
        taken := s.taken ++ [(dt, s.ticks)] }
    else none

def consumed (s : Feed) : List Tick := s.taken.flatMap Prod.snd

def firstVolume (s : Feed) : ℚ := ((consumed s).head?.map Tick.volume).getD 0

def lastVolume (s : Feed) : ℚ := ((consumed s).getLast?.map Tick.volume).getD 0

def span (algo : LiveAlgo) (flush : DateTime × List Tick) : Option (ℚ × ℚ) :=
  match flush.2.filter fun tick => algo.uses flush.1 tick with
  | [] => none
  | first :: rest => some (first.volume, (rest.getLast?.getD first).volume)

def spans (algo : LiveAlgo) (s : Feed) : List (ℚ × ℚ) := s.taken.filterMap (span algo)

theorem foldl_updateCandle (ticks : List Tick) :
    ticks.foldl Buffer.updateCandle {} = ⟨ticks, ticks, ticks⟩ := by
  induction ticks using List.reverseRecOn with
  | nil => rfl
  | append_singleton ticks tick ih => rw [foldl_concat, ih, Buffer.updateCandle]

theorem candle_volume (algo : LiveAlgo) (ohlc : List Candle) (ticks : List Tick) (dt : DateTime) :
    (algo.candle ohlc ticks dt).volume = Spans.total (span algo (dt, ticks)).toList := by
  cases algo with
  | combined =>
    simp only [LiveAlgo.candle, foldl_updateCandle, Buffer.ltpList, Buffer.volList,
      Buffer.minLength, min_self, take_length, span, LiveAlgo.uses, filter_true]
    rcases ticks with _ | ⟨first, _ | ⟨second, rest⟩⟩
    · rfl
    · simp [CombinedVwap.liveCandle, candleVolume, Spans.total]
    · simp [CombinedVwap.liveCandle, candleVolume, Spans.total]
  | hedge =>
    simp only [LiveAlgo.candle, VwapHedge.liveCandle, span, LiveAlgo.uses]
    cases ticks.filter fun tick =>
        decide (tick.minute = dt.minute ∨ tick.minute = previousMinute dt.minute) with
    | nil => rfl
    | cons first rest => simp [Spans.total]

def arrivals (events : List FeedEvent) : List Tick :=
  events.filterMap fun
    | .tick tick => some tick
    | .flush _ => none

variable {algo : LiveAlgo} {s t : Feed} {events : List FeedEvent}

theorem consumed_append_ticks (path : run (feedStep algo) s events = some t) :
    consumed t ++ t.ticks = consumed s ++ s.ticks ++ arrivals events := by
  induction events generalizing s with
  | nil =>
    cases path
    simp [arrivals]
  | cons event events ih =>
    obtain ⟨u, first, rest⟩ := run_cons_eq_some.mp path
    rw [ih rest]
    cases event with
    | tick tick =>
      cases first
      simp [consumed, arrivals]
    | flush dt =>
      simp only [feedStep] at first
      split at first
      · cases first
        simp [consumed, arrivals]
      · cases first

theorem live_volume (path : run (feedStep algo) s events = some t)
    (start : (s.live.map Candle.volume).sum = Spans.total (spans algo s)) :
    (t.live.map Candle.volume).sum = Spans.total (spans algo t) := by
  refine run_invariant (I := fun s => (s.live.map Candle.volume).sum = Spans.total (spans algo s))
    (fun s event t same taken => ?_) path start
  cases event with
  | tick tick =>
    cases taken
    exact same
  | flush dt =>
    simp only [feedStep] at taken
    split at taken
    · cases taken
      have added : [(dt, s.ticks)].filterMap (span algo) = (span algo (dt, s.ticks)).toList := by
        cases found : span algo (dt, s.ticks) <;> simp [found]
      simp only [spans, filterMap_append, added, Spans.total_append, map_append,
        sum_append, map_cons, map_nil, sum_singleton] at same ⊢
      rw [same, candle_volume]
    · cases taken

theorem span_eq_some {dt : DateTime} {ticks : List Tick} {x y : ℚ}
    (rising : ticks.Pairwise fun s t => s.volume ≤ t.volume)
    (found : span algo (dt, ticks) = some (x, y)) :
    ∃ first ∈ ticks, ∃ last ∈ ticks, x = first.volume ∧ y = last.volume ∧ x ≤ y := by
  unfold span at found
  split at found
  · cases found
  next first rest used =>
    cases found
    have mem : ∀ tick ∈ first :: rest, tick ∈ ticks := by
      rw [← used]
      exact fun tick => mem_of_mem_filter
    have order := rising.filter (fun tick => algo.uses dt tick)
    rw [used, pairwise_cons] at order
    refine ⟨first, mem first mem_cons_self, rest.getLast?.getD first, ?_, rfl, rfl, ?_⟩
    · cases last : rest.getLast? with
      | none => exact mem first mem_cons_self
      | some tick => exact mem tick (mem_cons_of_mem _ (mem_of_getLast? last))
    · cases last : rest.getLast? with
      | none => exact le_rfl
      | some tick => exact order.1 tick (mem_of_getLast? last)

theorem between_spans (algo : LiveAlgo) {taken : List (DateTime × List Tick)} {a z : ℚ}
    (rising : (taken.flatMap Prod.snd).Pairwise fun s t => s.volume ≤ t.volume) (order : a ≤ z)
    (bounds : ∀ tick ∈ taken.flatMap Prod.snd, a ≤ tick.volume ∧ tick.volume ≤ z) :
    Spans.Between a (taken.filterMap (span algo)) z := by
  induction taken generalizing a with
  | nil => exact order
  | cons flush taken ih =>
    obtain ⟨dt, ticks⟩ := flush
    rw [flatMap_cons, pairwise_append] at rising
    rw [flatMap_cons, forall_mem_append] at bounds
    cases found : span algo (dt, ticks) with
    | none =>
      rw [filterMap_cons_none found]
      exact ih rising.2.1 order bounds.2
    | some pair =>
      obtain ⟨x, y⟩ := pair
      obtain ⟨first, inFirst, last, inLast, rfl, rfl, upward⟩ := span_eq_some rising.1 found
      rw [filterMap_cons_some found]
      refine ⟨(bounds.1 first inFirst).1, upward, ih rising.2.1 (bounds.1 last inLast).2 ?_⟩
      intro tick later
      exact ⟨rising.2.2 last inLast tick later, (bounds.2 tick later).2⟩

theorem volumes_between (rising : (consumed s).Pairwise fun a b => a.volume ≤ b.volume) :
    ∀ tick ∈ consumed s, firstVolume s ≤ tick.volume ∧ tick.volume ≤ lastVolume s := by
  intro tick mem
  constructor
  · obtain ⟨first, rest, ticks⟩ := exists_cons_of_ne_nil (ne_nil_of_mem mem)
    rw [ticks, pairwise_cons] at rising
    rw [ticks] at mem
    rcases mem_cons.mp mem with rfl | later
    · simp [firstVolume, ticks]
    · simpa [firstVolume, ticks] using rising.1 tick later
  · rcases eq_nil_or_concat (consumed s) with none | ⟨front, last, ticks⟩
    · simp [none] at mem
    · rw [ticks, concat_eq_append] at rising mem
      rcases mem_append.mp mem with old | last
      · simpa [lastVolume, ticks] using (pairwise_append.mp rising).2.2 tick old
      · simp [lastVolume, ticks, mem_singleton.mp last]

/-- The candles have all the volume between the first and the last tick taken from the buffer
exactly if each used tick is followed, in the next candle, by one with the same volume of the day. -/
theorem volume_conserved_iff (algo : LiveAlgo) {ohlc : List Candle} {events : List FeedEvent}
    {s : Feed} (path : run (feedStep algo) { ohlc } events = some s)
    (rising : (arrivals events).Pairwise fun a b => a.volume ≤ b.volume) :
    (s.live.map Candle.volume).sum = lastVolume s - firstVolume s ↔
      Spans.Joined (firstVolume s) (spans algo s) (lastVolume s) := by
  rw [live_volume path rfl]
  apply Spans.Between.total_eq_iff
  have order : (consumed s).Pairwise fun a b => a.volume ≤ b.volume := by
    have all := consumed_append_ticks path
    simp only [consumed, flatMap_nil, nil_append] at all
    rw [← all] at rising
    exact (pairwise_append.mp rising).1
  refine between_spans algo order ?_ (volumes_between order)
  cases ticks : consumed s with
  | nil => simp [firstVolume, lastVolume, ticks]
  | cons first rest =>
    have bounds := volumes_between order first (by simp [ticks])
    exact bounds.1.trans bounds.2

def twoCandles (reopened : ℚ) : List FeedEvent :=
  [.tick ⟨31, 100, 500⟩, .tick ⟨32, 101, 520⟩, .flush ⟨10, 32, 59, 800000⟩,
    .tick ⟨33, 102, reopened⟩, .tick ⟨34, 103, 560⟩, .flush ⟨10, 34, 59, 800000⟩]

theorem volume_of_joined_candles :
    ∃ s, run (feedStep .hedge) { ohlc := [] } (twoCandles 520) = some s ∧
      (s.live.map Candle.volume).sum = lastVolume s - firstVolume s := by
  have ends : (run (feedStep .hedge) { ohlc := [] } (twoCandles 520)).map
      (fun s => (firstVolume s, spans .hedge s, lastVolume s)) =
      some (500, [(500, 520), (520, 560)], 560) := by decide +kernel
  obtain ⟨s, path, final⟩ := Option.map_eq_some_iff.mp ends
  simp only [Prod.mk.injEq] at final
  obtain ⟨first, joined, last⟩ := final
  refine ⟨s, path, (volume_conserved_iff .hedge path (by decide +kernel)).mpr ?_⟩
  rw [first, joined, last]
  decide +kernel

def volumes (algo : LiveAlgo) (events : List FeedEvent) : Option (ℚ × ℚ) :=
  (run (feedStep algo) { ohlc := [] } events).map fun s =>
    ((s.live.map Candle.volume).sum, lastVolume s - firstVolume s)

theorem volume_lost_between_candles :
    (arrivals (twoCandles 540)).Pairwise (fun a b => a.volume ≤ b.volume) ∧
      volumes .combined (twoCandles 540) = some (40, 60) ∧
      volumes .hedge (twoCandles 540) = some (40, 60) := by
  decide +kernel

end AlgoSystem.Proof.CombinedVwap.Volume
