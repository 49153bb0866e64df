import AlgoSystem.Proof.MarketData.Series

namespace AlgoSystem.Proof.MarketData
open AlgoSystem.MarketData General List

def candleSymbol : SeriesKey → String
  | .index symbol _ => symbol
  | .option contractId => "contract:" ++ toString contractId

variable {P : Type} [LinearOrder P]

section
variable (agg : CandleAggregator P)
include agg

theorem series_onIndexTick (symbol exchange : String) (tick : Tick P) (key : SeriesKey) :
    (agg.onIndexTick symbol exchange tick).series key =
      ((Call.onIndexTick symbol exchange tick).tickFor key).elim (agg.series key)
        (agg.series key).add := by
  cases key with
  | index s e =>
    simp only [CandleAggregator.series, CandleAggregator.onIndexTick, Dict.get?_upsert,
      Call.tickFor, SeriesKey.index.injEq, Prod.mk.injEq]
    by_cases same : s = symbol ∧ e = exchange
    · obtain ⟨rfl, rfl⟩ := same
      simp
    · simp [same]
  | option id => simp [CandleAggregator.series, CandleAggregator.onIndexTick, Call.tickFor]

theorem series_onOptionTick (contractId : Int) (tick : Tick P) (key : SeriesKey) :
    (agg.onOptionTick contractId tick).series key =
      ((Call.onOptionTick contractId tick).tickFor key).elim (agg.series key)
        (agg.series key).add := by
  cases key with
  | index s e => simp [CandleAggregator.series, CandleAggregator.onOptionTick, Call.tickFor]
  | option id =>
    simp only [CandleAggregator.series, CandleAggregator.onOptionTick, Dict.get?_upsert,
      Call.tickFor, SeriesKey.option.injEq]
    by_cases same : id = contractId
    · subst same
      simp
    · simp [same]

omit [LinearOrder P] in
theorem series_flush (now : Int) (key : SeriesKey) :
    (agg.flush now).2.series key = ((agg.series key).closeThrough (minuteStart now)).2 := by
  cases key <;> simp only [CandleAggregator.series, CandleAggregator.flush, Dict.get?_mapValues]
  · cases agg.index.get? _ <;> rfl
  · cases agg.option.get? _ <;> rfl

omit [LinearOrder P] in
theorem candles_flush (now : Int) (key : SeriesKey) :
    (agg.flush now).1.candles key =
      ((agg.series key).closeThrough (minuteStart now)).1.map
        (toCandle (candleSymbol key) agg.interval) := by
  cases key with
  | index symbol exchange =>
    refine (Dict.filterMap_flatMap_entries agg.index (fun k s =>
      (s.closeThrough (minuteStart now)).1.map (toCandle k.1 agg.interval))
      (symbol, exchange)).trans ?_
    simp only [CandleAggregator.series, candleSymbol]
    cases agg.index.get? (symbol, exchange) <;> rfl
  | option contractId =>
    refine (Dict.filterMap_flatMap_entries agg.option (fun k s =>
      (s.closeThrough (minuteStart now)).1.map
        (toCandle ("contract:" ++ toString k) agg.interval)) contractId).trans ?_
    simp only [CandleAggregator.series, candleSymbol]
    cases agg.option.get? contractId <;> rfl

omit [LinearOrder P] in
theorem series_finishCurrent (key : SeriesKey) :
    agg.finishCurrent.series key = (agg.series key).rollover := by
  cases key <;> simp only [CandleAggregator.series, CandleAggregator.finishCurrent, Dict.get?_mapValues]
  · cases agg.index.get? _ <;> rfl
  · cases agg.option.get? _ <;> rfl

end

def History.receive (h : History P) : Option (Tick P) → History P
  | none => h
  | some tick => h.add tick

def History.call (key : SeriesKey) (h : History P) : Call P → History P
  | .onIndexTick symbol exchange tick =>
    h.receive ((Call.onIndexTick symbol exchange tick).tickFor key)
  | .onOptionTick contractId tick => h.receive ((Call.onOptionTick contractId tick).tickFor key)
  | .flush now => h.closeThrough (minuteStart now)
  | .forceCloseAll now => h.rollover.closeThrough (minuteStart (now + oneMinute))

variable {h : History P}

theorem History.receive_faithful (tick : Option (Tick P)) (faithful : h.Faithful)
    (settled : h.Settled) : (h.receive tick).Faithful ∧ (h.receive tick).Settled := by
  cases tick with
  | none => exact ⟨faithful, settled⟩
  | some tick => exact add_faithful faithful settled tick

theorem History.call_faithful (key : SeriesKey) (call : Call P) (faithful : h.Faithful)
    (settled : h.Settled) :
    (h.call key call).Faithful ∧ (h.call key call).Settled := by
  cases call with
  | onIndexTick symbol exchange tick | onOptionTick contractId tick =>
    exact receive_faithful _ faithful settled
  | flush now => exact ⟨closeThrough_faithful faithful _, closeThrough_settled _ _⟩
  | forceCloseAll now =>
    exact ⟨closeThrough_faithful (rollover_faithful faithful) _, closeThrough_settled _ _⟩

theorem History.calls_faithful (key : SeriesKey) (calls : List (Call P)) (faithful : h.Faithful)
    (settled : h.Settled) :
    (calls.foldl (History.call key) h).Faithful := by
  induction calls generalizing h with
  | nil => exact faithful
  | cons call calls ih =>
    obtain ⟨faithful, settled⟩ := call_faithful key call faithful settled
    exact ih faithful settled

theorem History.receive_fields (h : History P) (tick : Option (Tick P)) :
    (h.receive tick).series = tick.elim h.series h.series.add ∧
    (h.receive tick).accepted = h.accepted ++ (tick.filter h.series.accepts).toList ∧
    (h.receive tick).emitted = h.emitted := by
  cases tick with
  | none => simp [receive]
  | some tick => exact ⟨rfl, rfl, rfl⟩

omit [LinearOrder P] in
theorem candles_none (key : SeriesKey) : ({} : Emitted P).candles key = [] := by
  cases key <;> rfl

structure Follows (key : SeriesKey) (h : History P) (agg : CandleAggregator P) (call : Call P) :
    Prop where
  series : (h.call key call).series = (agg.perform call).2.series key
  interval : (agg.perform call).2.interval = agg.interval
  accepted : (h.call key call).accepted =
    h.accepted ++ ((call.tickFor key).filter (agg.series key).accepts).toList
  emitted : (h.call key call).emitted.map (toCandle (candleSymbol key) agg.interval) =
    h.emitted.map (toCandle (candleSymbol key) agg.interval) ++ (agg.perform call).1.candles key

variable {key : SeriesKey} {agg : CandleAggregator P}

theorem call_follows (same : h.series = agg.series key) (call : Call P) :
    Follows key h agg call := by
  cases call with
  | onIndexTick symbol exchange tick =>
    obtain ⟨series, accepted, emitted⟩ :=
      h.receive_fields ((Call.onIndexTick symbol exchange tick).tickFor key)
    rw [same] at series accepted
    constructor
    · exact series.trans (series_onIndexTick agg symbol exchange tick key).symm
    · rfl
    · exact accepted
    · simp [History.call, CandleAggregator.perform, emitted, candles_none]
  | onOptionTick contractId tick =>
    obtain ⟨series, accepted, emitted⟩ :=
      h.receive_fields ((Call.onOptionTick contractId tick).tickFor key)
    rw [same] at series accepted
    constructor
    · exact series.trans (series_onOptionTick agg contractId tick key).symm
    · rfl
    · exact accepted
    · simp [History.call, CandleAggregator.perform, emitted, candles_none]
  | flush now =>
    constructor
    · simp [CandleAggregator.perform, History.call, History.closeThrough, same, series_flush]
    · rfl
    · simp [Call.tickFor, History.call, History.closeThrough]
    · simp [CandleAggregator.perform, History.call, History.closeThrough, same, candles_flush]
  | forceCloseAll now =>
    have interval : agg.finishCurrent.interval = agg.interval := rfl
    constructor
    · simp [CandleAggregator.perform, CandleAggregator.forceCloseAll, History.call,
        History.closeThrough, History.rollover, same, series_flush, series_finishCurrent]
    · rfl
    · simp [Call.tickFor, History.call, History.closeThrough, History.rollover]
    · simp [CandleAggregator.perform, CandleAggregator.forceCloseAll, History.call, interval,
        History.closeThrough, History.rollover, same, candles_flush, series_finishCurrent]

omit [LinearOrder P] in
theorem candles_append (a b : Emitted P) (key : SeriesKey) :
    (a.append b).candles key = a.candles key ++ b.candles key := by
  cases key <;> simp [Emitted.append, Emitted.candles]

theorem calls_follow (key : SeriesKey) (calls : List (Call P)) (same : h.series = agg.series key) :
    let after := calls.foldl (History.call key) h
    after.series = (agg.performAll calls).2.series key ∧
    after.accepted = h.accepted ++ agg.accepted key calls ∧
    after.emitted.map (toCandle (candleSymbol key) agg.interval) =
      h.emitted.map (toCandle (candleSymbol key) agg.interval) ++
        (agg.performAll calls).1.candles key := by
  induction calls generalizing h agg with
  | nil => simp [CandleAggregator.performAll, CandleAggregator.accepted, same, candles_none]
  | cons call calls ih =>
    have step := call_follows same call
    obtain ⟨series, accepted, emitted⟩ := ih step.series
    rw [step.interval] at emitted
    refine ⟨series, ?_, ?_⟩
    · simp only [foldl_cons, accepted, step.accepted, CandleAggregator.accepted, List.append_assoc]
    · simp only [foldl_cons, emitted, step.emitted, CandleAggregator.performAll,
        candles_append, List.append_assoc]

theorem performAll_snoc (agg : CandleAggregator P) (calls : List (Call P)) (call : Call P) :
    agg.performAll (calls ++ [call]) =
      ((agg.performAll calls).1.append ((agg.performAll calls).2.perform call).1,
        ((agg.performAll calls).2.perform call).2) := by
  induction calls generalizing agg with
  | nil => simp [CandleAggregator.performAll, Emitted.append]
  | cons first calls ih =>
    simp only [cons_append, CandleAggregator.performAll, ih]
    simp [Emitted.append]

theorem exists_call_of_mem_accepted {calls : List (Call P)} {tick : Tick P}
    (mem : tick ∈ agg.accepted key calls) :
    ∃ call ∈ calls, call.tickFor key = some tick := by
  induction calls generalizing agg with
  | nil => simp [CandleAggregator.accepted] at mem
  | cons call calls ih =>
    rcases mem_append.mp mem with here | later
    · have found := Option.mem_toList.mp here
      exact ⟨call, mem_cons_self, (Option.filter_eq_some_iff.mp found).1⟩
    · obtain ⟨call', member, found⟩ := ih later
      exact ⟨call', mem_cons_of_mem call member, found⟩

omit [LinearOrder P] in
theorem countP_minute_eq_one {buckets : List (Bucket P)} {minute : Int}
    (increasing : buckets.Pairwise fun b c => b.minute < c.minute)
    (present : ∃ b ∈ buckets, b.minute = minute) :
    buckets.countP (fun b => b.minute = minute) = 1 := by
  have distinct : (buckets.map Bucket.minute).Nodup := by
    rw [List.Nodup, pairwise_map]
    exact increasing.imp fun h => h.ne
  have member : minute ∈ buckets.map Bucket.minute := mem_map.mpr present
  have count := count_eq_one_of_mem distinct member
  rw [List.count, countP_map] at count
  rw [← count]
  apply countP_congr
  simp

theorem performAll_candles (interval : String) (calls : List (Call P)) (key : SeriesKey) :
    let agg : CandleAggregator P := { interval }
    let candles := (agg.performAll calls).1.candles key
    let held := ((agg.performAll calls).2.series key).held
    let ticks := agg.accepted key calls
    (candles.Pairwise fun c d => c.timestamp < d.timestamp) ∧
    (∀ c ∈ candles,
      Summarizes (ofMinute ticks c.timestamp) c.opening c.high c.low c.close c.volume c.oi) ∧
    (∀ b ∈ held, BucketOf (ofMinute ticks b.minute) b) ∧
    (∀ tick ∈ ticks, candles.countP (fun c => c.timestamp = tick.minute) +
      held.countP (fun b => b.minute = tick.minute) = 1) := by
  intro agg candles held ticks
  have start : ({} : History P).series = agg.series key := by cases key <;> rfl
  obtain ⟨series, accepted, emitted⟩ := calls_follow key calls start
  have faithful := History.calls_faithful key calls History.faithful_empty
    (fun _ => rfl)
  set after := calls.foldl (History.call key) ({} : History P) with hafter
  have buckets : after.buckets = after.emitted ++ held := by
    rw [History.buckets, series]
  have accepted : after.accepted = ticks := by simpa using accepted
  have emitted : candles = after.emitted.map (toCandle (candleSymbol key) interval) := by
    simpa using emitted.symm
  have increasing := faithful.increasing
  rw [buckets] at increasing
  refine ⟨?_, ?_, ?_, ?_⟩
  · rw [emitted, pairwise_map]
    exact (pairwise_append.mp increasing).1
  · rw [emitted]
    intro c member
    obtain ⟨b, present, rfl⟩ := mem_map.mp member
    have summary := faithful.summarized b (by simp [buckets, present])
    rw [accepted] at summary
    exact summary
  · intro b member
    have summary := faithful.summarized b (by simp [buckets, member])
    rwa [accepted] at summary
  · intro tick member
    have present := faithful.covered tick (accepted ▸ member)
    rw [buckets] at present
    have one := countP_minute_eq_one increasing present
    rw [countP_append] at one
    rw [emitted, countP_map]
    exact one

theorem exists_call_of_mem_candles {interval : String} {calls : List (Call P)} {c : Candle P}
    (mem : c ∈ (({ interval } : CandleAggregator P).performAll calls).1.candles key) :
    ∃ call ∈ calls, ∃ tick, call.tickFor key = some tick := by
  obtain ⟨-, summarized, -⟩ := performAll_candles interval calls key
  have first := (summarized c mem).ohlc.first
  rw [head?_map, Option.map_eq_some_iff] at first
  obtain ⟨tick, head, -⟩ := first
  have accepted := mem_of_mem_filter (mem_of_mem_head? head)
  obtain ⟨call, member, found⟩ := exists_call_of_mem_accepted accepted
  exact ⟨call, member, tick, found⟩

end AlgoSystem.Proof.MarketData
