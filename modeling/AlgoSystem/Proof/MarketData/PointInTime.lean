import AlgoSystem.MarketData.OptionHistory
import AlgoSystem.Proof.MarketData.Durability

namespace AlgoSystem.Proof.MarketData.PointInTime
open General AlgoSystem.MarketData Proof.MarketData Durability List

inductive Arrival where
  | index (symbol : String) (tick : Tick ℚ)
  | option (contractId : Int) (tick : Tick ℚ)
  | flush (now : Int)

def Arrival.tick? : Arrival → Option (Tick ℚ)
  | .index _ tick => some tick
  | .option _ tick => some tick
  | .flush _ => none

structure BarSpec where
  interval : String
  start : Int
  length : Int

structure Query where
  formats : Formats
  underlying : String
  expiry : Int
  asOf : Int
  strikeWindow : Option Nat
  contracts : ContractTable
  exchangeOf : String → String
  others : List BarSpec

namespace Query
variable (q : Query)

def callOf : Arrival → Call ℚ
  | .index symbol tick => .onIndexTick symbol (q.exchangeOf symbol) tick
  | .option contractId tick => .onOptionTick contractId tick
  | .flush now => .flush now

def calls (arrivals : List Arrival) (stopAt : Int) : List (Call ℚ) :=
  arrivals.map q.callOf ++ [.forceCloseAll stopAt]

def ticksIn (arrivals : List Arrival) (bar : BarSpec) : List (Tick ℚ) :=
  arrivals.filterMap fun
    | .index symbol tick =>
      if symbol = q.underlying ∧ bar.start ≤ tick.ts ∧ tick.ts < bar.start + bar.length then
        some tick
      else none
    | _ => none

def otherRow (arrivals : List Arrival) (bar : BarSpec) : Option (MarketCandle ℚ) :=
  match q.ticksIn arrivals bar with
  | [] => none
  | first :: rest => some
      { symbol := q.underlying
        exchange := q.exchangeOf q.underlying
        interval := bar.interval
        timestamp := bar.start
        opening := first.price
        high := rest.foldl (fun high tick => max high tick.price) first.price
        low := rest.foldl (fun low tick => min low tick.price) first.price
        close := (rest.getLast?.getD first).price
        volume := none
        oi := none }

def begun : Pipeline ℚ :=
  { agg := {}, db := { contracts := q.contracts.rows.map fun contract => (contract.id : Int) } }

def recorded (arrivals : List Arrival) (stopAt : Int) : CandleDb ℚ :=
  let pipeline := ((q.calls arrivals stopAt).map fun call => .call call none).foldl
    Pipeline.perform q.begun
  { pipeline.db with
    marketCandles := pipeline.db.marketCandles ++ q.others.filterMap (q.otherRow arrivals) }

def chain (arrivals : List Arrival) (stopAt : Int) : Except OptionsDataError HistoricalChain :=
  getHistoricalChain q.formats q.contracts (q.recorded arrivals stopAt) q.underlying q.expiry q.asOf
    q.strikeWindow

def Listed : Arrival → Prop
  | .option contractId _ => ∃ contract ∈ q.contracts.rows, (contract.id : Int) = contractId
  | _ => True

/-- Histories that are the same up to `asOf` give the same chain. -/
def NoLookAhead : Prop :=
  ∀ (common later₁ later₂ : List Arrival) (stop₁ stop₂ : Int),
    (∀ arrival ∈ common ++ (later₁ ++ later₂), q.Listed arrival) →
    (∀ arrival ∈ common, ∀ tick ∈ arrival.tick?, tick.ts ≤ q.asOf) →
    (∀ arrival ∈ later₁ ++ later₂, ∀ tick ∈ arrival.tick?, q.asOf < tick.ts) →
    q.chain (common ++ later₁) stop₁ = q.chain (common ++ later₂) stop₂

/-- No contract is listed, or `asOf` is the last instant of a minute and no other bar that began
by then goes on. -/
def Settled : Prop :=
  listedContracts q.contracts q.underlying q.expiry = [] ∨
    (q.asOf + 1) % oneMinute = 0 ∧
      ∀ bar ∈ q.others, q.asOf < bar.start ∨ bar.start + bar.length ≤ q.asOf + 1

end Query

section Buckets
variable {key : SeriesKey} {asOf : Int}

def begunBuckets (asOf : Int) (h : History ℚ) : List (Bucket ℚ) :=
  h.buckets.filter fun b => b.minute ≤ asOf

theorem begunBuckets_add (h : History ℚ) {tick : Tick ℚ} (later : asOf < tick.minute) :
    begunBuckets asOf (h.add tick) = begunBuckets asOf h := by
  cases accepts : h.series.accepts tick with
  | false =>
    simp [begunBuckets, History.buckets, History.add, add_of_not_accepts accepts]
  | true =>
    have hidden : ¬ tick.minute ≤ asOf := by omega
    obtain ⟨-, ⟨current, added⟩ | ⟨b, current, same, added⟩ | ⟨b, current, newer, added⟩⟩ :=
      add_cases accepts
    · simp [begunBuckets, History.buckets, History.add, added, Series.held, current, later]
    · have old : ¬ b.minute ≤ asOf := by omega
      simp [begunBuckets, History.buckets, History.add, added, Series.held, current, old]
    · simp [begunBuckets, History.buckets, History.add, added, Series.held, current,
        filter_cons, hidden]

theorem begunBuckets_call (h : History ℚ) {call : Call ℚ}
    (later : ∀ tick ∈ call.tickFor key, asOf < tick.minute) :
    begunBuckets asOf (h.call key call) = begunBuckets asOf h := by
  have received : ∀ received : Option (Tick ℚ), (∀ tick ∈ received, asOf < tick.minute) →
      begunBuckets asOf (h.receive received) = begunBuckets asOf h := by
    intro received later
    cases received with
    | none => rfl
    | some tick => exact begunBuckets_add h (later tick rfl)
  cases call with
  | onIndexTick symbol exchange tick | onOptionTick contractId tick => exact received _ later
  | flush now => rw [History.call, begunBuckets, History.closeThrough_buckets, begunBuckets]
  | forceCloseAll now =>
    rw [History.call, begunBuckets, History.closeThrough_buckets, begunBuckets]
    simp [History.buckets, History.rollover]

theorem begunBuckets_foldl (h : History ℚ) {calls : List (Call ℚ)}
    (later : ∀ call ∈ calls, ∀ tick ∈ call.tickFor key, asOf < tick.minute) :
    begunBuckets asOf (calls.foldl (History.call key) h) = begunBuckets asOf h := by
  induction calls generalizing h with
  | nil => rfl
  | cons call calls ih =>
    rw [foldl_cons, ih _ fun c mem => later c (mem_cons_of_mem _ mem),
      begunBuckets_call h (later call mem_cons_self)]

theorem held_forceCloseAll (key : SeriesKey) (h : History ℚ) (now : Int) :
    (h.call key (.forceCloseAll now)).series.held = [] := by
  simp [History.call, History.closeThrough, History.rollover, Series.closeThrough, Series.held]

theorem candles_begun (key : SeriesKey) (asOf : Int) (calls : List (Call ℚ))
    (stopAt : Int) :
    ((({} : CandleAggregator ℚ).performAll (calls ++ [.forceCloseAll stopAt])).1.candles key).filter
      (fun c => c.timestamp ≤ asOf) =
    (begunBuckets asOf (calls.foldl (History.call key) {})).map
      (toCandle (candleSymbol key) "1minute") := by
  have start : ({} : History ℚ).series = ({} : CandleAggregator ℚ).series key := by
    cases key <;> rfl
  obtain ⟨-, -, emitted⟩ := calls_follow key (calls ++ [.forceCloseAll stopAt]) start
  have all := held_forceCloseAll key (calls.foldl (History.call key) {}) stopAt
  have unchanged : begunBuckets asOf
      ((calls.foldl (History.call key) {}).call key (.forceCloseAll stopAt)) =
      begunBuckets asOf (calls.foldl (History.call key) {}) :=
    begunBuckets_call _ (by simp [Call.tickFor])
  rw [foldl_append, foldl_cons, foldl_nil, map_nil, nil_append] at emitted
  rw [← emitted, ← unchanged, begunBuckets, History.buckets, all, append_nil, filter_map]
  rfl

end Buckets

section Alike
variable {formats : Formats} {contracts : ContractTable} {underlying : String} {expiry asOf : Int}

def indexRows (underlying : String) (asOf : Int) (rows : List (MarketCandle ℚ)) :
    List (MarketCandle ℚ) :=
  rows.filter fun row => row.symbol = underlying ∧ row.timestamp ≤ asOf

def optionRows (id asOf : Int) (rows : List (OptionCandle ℚ)) : List (OptionCandle ℚ) :=
  rows.filter fun row => row.contractId = id ∧ row.timestamp ≤ asOf

structure Alike (underlying : String) (asOf : Int) (db₁ db₂ : CandleDb ℚ) : Prop where
  index : indexRows underlying asOf db₁.marketCandles = indexRows underlying asOf db₂.marketCandles
  option : ∀ id, optionRows id asOf db₁.optionCandles = optionRows id asOf db₂.optionCandles

theorem getHistoricalChain_congr {db₁ db₂ : CandleDb ℚ} (alike : Alike underlying asOf db₁ db₂)
    (strikeWindow : Option Nat) :
    getHistoricalChain formats contracts db₁ underlying expiry asOf strikeWindow =
      getHistoricalChain formats contracts db₂ underlying expiry asOf strikeWindow := by
  have latest : latestCandle db₁ asOf = latestCandle db₂ asOf := by
    funext contract
    exact congrArg _ (alike.option contract.id)
  have quotes : historicalQuotes formats contracts db₁ underlying expiry asOf =
      historicalQuotes formats contracts db₂ underlying expiry asOf := by
    rw [historicalQuotes, historicalQuotes, latest]
  have spot : historicalSpot db₁ underlying asOf = historicalSpot db₂ underlying asOf :=
    congrArg (fun rows => (latestBy _ rows).map _) alike.index
  rw [getHistoricalChain, getHistoricalChain, quotes, spot]

end Alike

section Recorded
variable (q : Query) {arrivals : List Arrival} (stopAt : Int)

variable {key : SeriesKey} {tick : Tick ℚ}

theorem tickFor_callOf {arrival : Arrival} (found : (q.callOf arrival).tickFor key = some tick) :
    (∃ symbol, arrival = .index symbol tick ∧ key = .index symbol (q.exchangeOf symbol)) ∨
      ∃ contractId, arrival = .option contractId tick ∧ key = .option contractId := by
  cases arrival with
  | index symbol own =>
    obtain ⟨rfl, ⟨⟩⟩ := Option.ite_none_right_eq_some.mp found
    exact .inl ⟨symbol, rfl, rfl⟩
  | option contractId own =>
    obtain ⟨rfl, ⟨⟩⟩ := Option.ite_none_right_eq_some.mp found
    exact .inr ⟨contractId, rfl, rfl⟩
  | flush now => cases found

theorem exists_arrival {call : Call ℚ} (mem : call ∈ q.calls arrivals stopAt)
    (found : call.tickFor key = some tick) :
    ∃ arrival ∈ arrivals, (q.callOf arrival).tickFor key = some tick := by
  obtain mem | stop := mem_append.mp mem
  · obtain ⟨arrival, member, rfl⟩ := mem_map.mp mem
    exact ⟨arrival, member, found⟩
  · rw [mem_singleton.mp stop] at found
    cases found

theorem recorded_tables (listed : ∀ arrival ∈ arrivals, q.Listed arrival) :
    let out := ({} : CandleAggregator ℚ).performAll (q.calls arrivals stopAt)
    (q.recorded arrivals stopAt).marketCandles =
        out.1.index.map indexRow ++ q.others.filterMap (q.otherRow arrivals) ∧
      (q.recorded arrivals stopAt).optionCandles = out.1.option.map optionRow := by
  have known : ∀ call ∈ q.calls arrivals stopAt, ∀ id tick,
      call.tickFor (.option id) = some tick →
      id ∈ q.contracts.rows.map fun contract => (contract.id : Int) := by
    intro call mem id tick found
    obtain ⟨arrival, member, received⟩ := exists_arrival q stopAt mem found
    obtain ⟨_, -, other⟩ | ⟨_, rfl, same⟩ := tickFor_callOf q received
    · cases other
    · cases same
      obtain ⟨contract, row, eq⟩ := listed _ member
      exact mem_map.mpr ⟨contract, row, eq⟩
  obtain ⟨-, -, index, option⟩ := tables_of_calls "1minute" (q.calls arrivals stopAt) known
  exact ⟨by rw [Query.recorded, Query.begun, index], by rw [Query.recorded, Query.begun, option]⟩

def seriesOf (key : SeriesKey) (arrivals : List Arrival) : History ℚ :=
  (arrivals.map q.callOf).foldl (History.call key) {}

theorem visible_options (listed : ∀ arrival ∈ arrivals, q.Listed arrival) (id : Int) :
    optionRows id q.asOf (q.recorded arrivals stopAt).optionCandles =
    (begunBuckets q.asOf (seriesOf q (.option id) arrivals)).map fun b =>
      optionRow (id, toCandle (candleSymbol (.option id)) "1minute" b) := by
  obtain ⟨-, table⟩ := recorded_tables q stopAt listed
  have selected := candles_begun (.option id) q.asOf (arrivals.map q.callOf) stopAt
  rw [table, optionRows, filter_map_of_key (fun c => c.timestamp ≤ q.asOf) id]
  · rw [Emitted.candles] at selected
    rw [Query.calls, selected, map_map]
    rfl
  · intro item _
    rw [← Bool.decide_and]
    rfl

theorem index_key {item : IndexKey × Candle ℚ}
    (mem : item ∈ (({} : CandleAggregator ℚ).performAll (q.calls arrivals stopAt)).1.index)
    (symbol : item.1.1 = q.underlying) :
    item.1 = (q.underlying, q.exchangeOf q.underlying) := by
  obtain ⟨⟨symbol', exchange⟩, candle⟩ := item
  obtain rfl : symbol' = q.underlying := symbol
  have emitted : candle ∈ (({} : CandleAggregator ℚ).performAll
      (q.calls arrivals stopAt)).1.candles (.index q.underlying exchange) :=
    mem_filterMap.mpr ⟨_, mem, by simp⟩
  obtain ⟨call, member, tick, found⟩ := exists_call_of_mem_candles emitted
  obtain ⟨arrival, -, received⟩ := exists_arrival q stopAt member found
  obtain ⟨_, -, same⟩ | ⟨_, -, other⟩ := tickFor_callOf q received
  · cases same
    rfl
  · cases other

theorem visible_index (listed : ∀ arrival ∈ arrivals, q.Listed arrival) :
    let exchange := q.exchangeOf q.underlying
    indexRows q.underlying q.asOf (q.recorded arrivals stopAt).marketCandles =
    ((begunBuckets q.asOf (seriesOf q (.index q.underlying exchange) arrivals)).map fun b =>
      indexRow ((q.underlying, exchange),
        toCandle (candleSymbol (.index q.underlying exchange)) "1minute" b)) ++
    indexRows q.underlying q.asOf (q.others.filterMap (q.otherRow arrivals)) := by
  intro exchange
  obtain ⟨table, -⟩ := recorded_tables q stopAt listed
  have selected := candles_begun (.index q.underlying exchange) q.asOf
    (arrivals.map q.callOf) stopAt
  rw [table, indexRows, filter_append, filter_map_of_key (fun c => c.timestamp ≤ q.asOf)
    (q.underlying, exchange)]
  · rw [Emitted.candles] at selected
    rw [Query.calls, selected, map_map]
    rfl
  · intro item mem
    have key : item.1.1 = q.underlying ↔ item.1 = (q.underlying, exchange) :=
      ⟨index_key q stopAt mem, fun same => by rw [same]⟩
    simp [indexRow, key]

theorem minute_of_later {asOf : Int} (boundary : (asOf + 1) % oneMinute = 0)
    (later : asOf < tick.ts) : asOf < tick.minute := by
  rw [Tick.minute, minuteStart]
  simp only [oneMinute] at *
  omega

variable {common later : List Arrival}

theorem begunBuckets_later (boundary : (q.asOf + 1) % oneMinute = 0)
    (after : ∀ arrival ∈ later, ∀ tick ∈ arrival.tick?, q.asOf < tick.ts) :
    begunBuckets q.asOf (seriesOf q key (common ++ later)) =
      begunBuckets q.asOf (seriesOf q key common) := by
  rw [seriesOf, map_append, foldl_append]
  refine begunBuckets_foldl _ ?_
  intro call mem tick found
  obtain ⟨arrival, member, rfl⟩ := mem_map.mp mem
  refine minute_of_later boundary (after arrival member tick ?_)
  obtain ⟨_, rfl, -⟩ | ⟨_, rfl, -⟩ := tickFor_callOf q found
  · rfl
  · rfl

theorem otherRow_later {bar : BarSpec} (ended : bar.start + bar.length ≤ q.asOf + 1)
    (after : ∀ arrival ∈ later, ∀ tick ∈ arrival.tick?, q.asOf < tick.ts) :
    q.otherRow (common ++ later) bar = q.otherRow common bar := by
  have none_later : q.ticksIn later bar = [] := by
    rw [Query.ticksIn, filterMap_eq_nil_iff]
    intro arrival mem
    cases arrival with
    | index symbol tick =>
      have beyond := after _ mem tick rfl
      refine if_neg ?_
      rintro ⟨-, -, within⟩
      omega
    | option contractId tick | flush now => rfl
  have ticks : q.ticksIn (common ++ later) bar = q.ticksIn common bar := by
    rw [Query.ticksIn, filterMap_append]
    exact (congrArg _ none_later).trans (append_nil _)
  rw [Query.otherRow, ticks, Query.otherRow]

theorem otherRow_eq_some {arrivals : List Arrival} {bar : BarSpec} {row : MarketCandle ℚ}
    (found : q.otherRow arrivals bar = some row) :
    row.symbol = q.underlying ∧ row.timestamp = bar.start := by
  rw [Query.otherRow] at found
  split at found
  · cases found
  · cases found
    exact ⟨rfl, rfl⟩

theorem otherRows_later
    (bars : ∀ bar ∈ q.others, q.asOf < bar.start ∨ bar.start + bar.length ≤ q.asOf + 1)
    (after : ∀ arrival ∈ later, ∀ tick ∈ arrival.tick?, q.asOf < tick.ts) :
    indexRows q.underlying q.asOf (q.others.filterMap (q.otherRow (common ++ later))) =
      indexRows q.underlying q.asOf (q.others.filterMap (q.otherRow common)) := by
  rw [indexRows, indexRows, filter_filterMap, filter_filterMap]
  refine filterMap_congr ?_
  intro bar mem
  obtain hidden | ended := bars bar mem
  · have unseen : ∀ arrivals, Option.filter (fun row : MarketCandle ℚ =>
        row.symbol = q.underlying ∧ row.timestamp ≤ q.asOf) (q.otherRow arrivals bar) = none := by
      intro arrivals
      rw [Option.filter_eq_none_iff]
      intro row found
      obtain ⟨-, time⟩ := otherRow_eq_some q found
      simp only [decide_eq_true_eq, not_and]
      omega
    rw [unseen, unseen]
  · rw [otherRow_later q ended after]

theorem alike_of_settled (stop stopAt : Int) (boundary : (q.asOf + 1) % oneMinute = 0)
    (bars : ∀ bar ∈ q.others, q.asOf < bar.start ∨ bar.start + bar.length ≤ q.asOf + 1)
    (listed : ∀ arrival ∈ common ++ later, q.Listed arrival)
    (after : ∀ arrival ∈ later, ∀ tick ∈ arrival.tick?, q.asOf < tick.ts) :
    Alike q.underlying q.asOf (q.recorded (common ++ later) stopAt) (q.recorded common stop) := by
  have before : ∀ arrival ∈ common, q.Listed arrival :=
    fun arrival mem => listed arrival (mem_append_left _ mem)
  constructor
  · rw [visible_index q stopAt listed, visible_index q stop before,
      begunBuckets_later q boundary after, otherRows_later q bars after]
  · intro id
    rw [visible_options q stopAt listed, visible_options q stop before,
      begunBuckets_later q boundary after]

theorem noLookAhead_of_settled (settled : q.Settled) : q.NoLookAhead := by
  intro common later₁ later₂ stop₁ stop₂ listed _ after
  obtain unlisted | ⟨boundary, bars⟩ := settled
  · simp [Query.chain, getHistoricalChain, unlisted]
  · have same : ∀ later stop, (∀ arrival ∈ later, arrival ∈ later₁ ++ later₂) →
        q.chain (common ++ later) stop = q.chain common 0 := by
      intro later stop part
      refine getHistoricalChain_congr (alike_of_settled q 0 stop boundary bars ?_ ?_) _
      · intro arrival mem
        refine listed arrival (mem_append.mpr ?_)
        exact (mem_append.mp mem).imp_right (part arrival)
      · intro arrival mem
        exact after arrival (part arrival mem)
    rw [same later₁ stop₁ fun _ => mem_append_left _, same later₂ stop₂ fun _ => mem_append_right _]

end Recorded

section Chains
variable {formats : Formats} {contracts : ContractTable} {db : CandleDb ℚ} {underlying : String}
  {expiry asOf : Int}

theorem latestBy_mem {R : Type} {time : R → Int} {rows : List R} {row : R}
    (latest : latestBy time rows = some row) : row ∈ rows :=
  (mem_insertionSort _).mp (mem_of_mem_head? latest)

theorem latestBy_eq_none {R : Type} {time : R → Int} {rows : List R} :
    latestBy time rows = none ↔ rows = [] := by
  rw [latestBy, head?_eq_none_iff, ← length_eq_zero_iff, length_insertionSort, length_eq_zero_iff]

theorem historicalSpot_eq_none :
    historicalSpot db underlying asOf = none ↔ indexRows underlying asOf db.marketCandles = [] := by
  rw [historicalSpot, Option.map_eq_none_iff, latestBy_eq_none]
  rfl

variable {quote : HistoricalQuote}

theorem close_of_quote
    (mem : quote ∈ historicalQuotes formats contracts db underlying expiry asOf) :
    ∃ id, ∃ row ∈ optionRows id asOf db.optionCandles, quote.ltp = row.close := by
  obtain ⟨contract, -, found⟩ := mem_filterMap.mp mem
  obtain ⟨row, latest, rfl⟩ := Option.map_eq_some_iff.mp found
  exact ⟨contract.id, row, latestBy_mem latest, rfl⟩

theorem quotes_ne_nil {contract : OptionContract}
    (listed : contract ∈ listedContracts contracts underlying expiry)
    (visible : optionRows contract.id asOf db.optionCandles ≠ []) :
    historicalQuotes formats contracts db underlying expiry asOf ≠ [] := by
  cases latest : latestCandle db asOf contract with
  | none => exact absurd (latestBy_eq_none.mp latest) visible
  | some row =>
    have mem : historicalQuote formats underlying expiry contract row ∈
        historicalQuotes formats contracts db underlying expiry asOf :=
      mem_filterMap.mpr ⟨contract, listed, by rw [latest]; rfl⟩
    exact ne_nil_of_mem mem

def HistoricalRow.Quotes (row : HistoricalRow) (quote : HistoricalQuote) : Prop :=
  row.call = some quote ∨ row.put = some quote

theorem historicalRow_quotes {quotes : List HistoricalQuote} {strike : ℚ}
    (shown : HistoricalRow.Quotes (historicalRow quotes strike) quote) : quote ∈ quotes := by
  obtain side | side := shown
  · exact mem_of_mem_filter (mem_of_getLast? side)
  · exact mem_of_mem_filter (mem_of_getLast? side)

theorem exists_historicalRow_quotes {quotes : List HistoricalQuote} (mem : quote ∈ quotes) :
    ∃ shown, HistoricalRow.Quotes (historicalRow quotes quote.strike) shown := by
  have member : ∀ optionType, quote.optionType = optionType →
      ∃ shown, (quotes.filter fun other =>
        other.strike = quote.strike ∧ other.optionType = optionType).getLast? = some shown := by
    intro optionType side
    rw [← Option.isSome_iff_exists, getLast?_isSome]
    exact ne_nil_of_mem (mem_filter.mpr ⟨mem, by simp [side]⟩)
  cases side : quote.optionType with
  | ce => exact (member .ce side).imp fun _ => .inl
  | pe => exact (member .pe side).imp fun _ => .inr

theorem getHistoricalChain_of_quotes (strikeWindow : Option Nat)
    (quotes : historicalQuotes formats contracts db underlying expiry asOf ≠ []) :
    ∃ chain,
      getHistoricalChain formats contracts db underlying expiry asOf strikeWindow = .ok chain ∧
      chain.spot = historicalSpot db underlying asOf ∧
      (chain.spot = none → ∃ row ∈ chain.rows, ∃ quote, HistoricalRow.Quotes row quote) ∧
      ∀ row ∈ chain.rows, ∀ quote, HistoricalRow.Quotes row quote →
        quote ∈ historicalQuotes formats contracts db underlying expiry asOf := by
  have listed : listedContracts contracts underlying expiry ≠ [] := by
    intro none
    rw [historicalQuotes, none] at quotes
    exact quotes rfl
  rw [getHistoricalChain, if_neg (by simpa using listed)]
  simp only [List.isEmpty_iff, quotes, if_false]
  refine ⟨_, rfl, rfl, ?_, ?_⟩
  · intro spot
    obtain ⟨quote, mem⟩ := exists_mem_of_ne_nil _ quotes
    simp only at spot
    simp only [spot, Option.bind_none]
    refine ⟨_, mem_map_of_mem ?_, exists_historicalRow_quotes mem⟩
    rw [mem_insertionSort, mem_dedup]
    exact mem_map_of_mem mem
  · intro row mem quote shown
    obtain ⟨strike, -, rfl⟩ := mem_map.mp mem
    exact historicalRow_quotes shown

end Chains

section Leaks
variable (q : Query) {contract : OptionContract}

def quotesAt (arrivals : List Arrival) (stopAt : Int) : List HistoricalQuote :=
  historicalQuotes q.formats q.contracts (q.recorded arrivals stopAt) q.underlying q.expiry q.asOf

def pricedAt (ts : Int) (price : ℚ) : Tick ℚ := { ts, price }

def firstTick (contract : OptionContract) : Arrival := .option contract.id (pricedAt q.asOf 1)

def nextTick (contract : OptionContract) : Arrival := .option contract.id (pricedAt (q.asOf + 1) 2)

def nextIndexTick : Arrival := .index q.underlying (pricedAt (q.asOf + 1) 2)

theorem minuteStart_le (ts : Int) : minuteStart ts ≤ ts := by
  simp only [minuteStart, oneMinute]
  omega

theorem begunBuckets_first (id : Int) :
    begunBuckets q.asOf (seriesOf q (.option id) [firstTick q contract]) =
      if id = contract.id then [Bucket.start (pricedAt q.asOf 1)] else [] := by
  have begun : minuteStart q.asOf ≤ q.asOf := minuteStart_le _
  by_cases own : id = contract.id <;>
    simp [seriesOf, firstTick, Query.callOf, History.call, Call.tickFor, own, History.receive,
      begunBuckets, History.buckets, History.add, Series.add, Series.late, Series.held, Tick.minute,
      pricedAt, begun]

theorem begunBuckets_next (id : Int) (same : minuteStart (q.asOf + 1) = minuteStart q.asOf) :
    begunBuckets q.asOf (seriesOf q (.option id) [firstTick q contract, nextTick q contract]) =
      if id = contract.id then
        [(Bucket.start (pricedAt q.asOf 1)).update (pricedAt (q.asOf + 1) 2)]
      else [] := by
  have begun : minuteStart q.asOf ≤ q.asOf := minuteStart_le _
  by_cases own : id = contract.id <;>
    simp [seriesOf, firstTick, nextTick, Query.callOf, History.call, Call.tickFor, own,
      History.receive, begunBuckets, History.buckets, History.add, Series.add, Series.late,
      Series.held, Tick.minute, pricedAt, begun, same]

theorem begunBuckets_nextIndex (id : Int) :
    begunBuckets q.asOf (seriesOf q (.option id) [firstTick q contract, nextIndexTick q]) =
      begunBuckets q.asOf (seriesOf q (.option id) [firstTick q contract]) := by
  simp [seriesOf, nextIndexTick, Query.callOf, History.call, Call.tickFor, History.receive]

section
variable (listed : contract ∈ listedContracts q.contracts q.underlying q.expiry)
include listed

theorem listed_contract (tick : Tick ℚ) : q.Listed (.option contract.id tick) :=
  ⟨contract, mem_of_mem_filter listed, rfl⟩

section Shown
variable {arrivals : List Arrival} (stopAt : Int)
  (known : ∀ arrival ∈ arrivals, q.Listed arrival)
include known

theorem quotes_shown
    (visible : begunBuckets q.asOf (seriesOf q (.option contract.id) arrivals) ≠ []) :
    quotesAt q arrivals stopAt ≠ [] := by
  refine quotes_ne_nil listed ?_
  rw [visible_options q stopAt known]
  simpa using visible

omit listed in
theorem ltp_shown {price : ℚ} (closes : ∀ id, ∀ b ∈ begunBuckets q.asOf
      (seriesOf q (.option id) arrivals), b.close = price) {quote : HistoricalQuote}
    (mem : quote ∈ quotesAt q arrivals stopAt) : quote.ltp = price := by
  obtain ⟨id, row, visible, ltp⟩ := close_of_quote mem
  rw [visible_options q stopAt known] at visible
  obtain ⟨b, begun, rfl⟩ := mem_map.mp visible
  exact ltp.trans (closes id b begun)

end Shown

theorem spot_first (stopAt : Int) :
    historicalSpot (q.recorded [firstTick q contract] stopAt) q.underlying q.asOf = none := by
  have known : ∀ arrival ∈ [firstTick q contract], q.Listed arrival := by
    simpa [firstTick] using listed_contract q listed _
  rw [historicalSpot_eq_none, visible_index q stopAt known, append_eq_nil_iff]
  constructor
  · simp [seriesOf, firstTick, Query.callOf, History.call, Call.tickFor, History.receive,
      begunBuckets, History.buckets, Series.held]
  · simp [indexRows, Query.otherRow, Query.ticksIn, firstTick]

theorem shared_of_noLookAhead (safe : q.NoLookAhead) {next : Arrival}
    (known : ∀ arrival ∈ [firstTick q contract, next], q.Listed arrival)
    (after : ∀ tick ∈ next.tick?, q.asOf < tick.ts)
    (visible : begunBuckets q.asOf (seriesOf q (.option contract.id)
      [firstTick q contract, next]) ≠ []) :
    historicalSpot (q.recorded [firstTick q contract, next] 0) q.underlying q.asOf = none ∧
    ∃ quote, quote ∈ quotesAt q [firstTick q contract] 0 ∧
      quote ∈ quotesAt q [firstTick q contract, next] 0 := by
  have knownFirst : ∀ arrival ∈ [firstTick q contract], q.Listed arrival :=
    fun arrival mem => known arrival (by simp_all)
  have equal := safe [firstTick q contract] [] [next] 0 0 known
    (by simp [firstTick, pricedAt, Arrival.tick?]) (by simpa using after)
  obtain ⟨chain, found, spot, quoted, origin⟩ := getHistoricalChain_of_quotes q.strikeWindow
    (quotes_shown q listed 0 knownFirst (by simp [begunBuckets_first]))
  obtain ⟨chain', found', spot', -, origin'⟩ := getHistoricalChain_of_quotes q.strikeWindow
    (quotes_shown q listed 0 known visible)
  obtain rfl : chain = chain' :=
    Except.ok.inj (found.symm.trans (equal.trans found'))
  have unknown : chain.spot = none := spot.trans (spot_first q listed 0)
  obtain ⟨row, mem, quote, shown⟩ := quoted unknown
  exact ⟨spot'.symm.trans unknown, quote, origin row mem quote shown,
    origin' row mem quote shown⟩

theorem leaks_of_open_minute (isOpen : (q.asOf + 1) % oneMinute ≠ 0) : ¬ q.NoLookAhead := by
  intro safe
  have same : minuteStart (q.asOf + 1) = minuteStart q.asOf := by
    simp only [minuteStart, oneMinute] at *
    omega
  have known : ∀ arrival ∈ [firstTick q contract, nextTick q contract], q.Listed arrival := by
    simpa [firstTick, nextTick] using ⟨listed_contract q listed _, listed_contract q listed _⟩
  obtain ⟨-, quote, before, after⟩ := shared_of_noLookAhead q listed safe known
    (by simp [nextTick, pricedAt, Arrival.tick?]) (by simp [begunBuckets_next q _ same])
  have one : quote.ltp = 1 := by
    refine ltp_shown q 0 (fun arrival mem => known arrival (by simp_all)) ?_ before
    intro id b begun
    rw [begunBuckets_first] at begun
    split at begun
    · rw [mem_singleton.mp begun]
      rfl
    · cases begun
  have two : quote.ltp = 2 := by
    refine ltp_shown q 0 known ?_ after
    intro id b begun
    rw [begunBuckets_next q id same] at begun
    split at begun
    · rw [mem_singleton.mp begun]
      rfl
    · cases begun
  exact absurd (one.symm.trans two) (by decide)

theorem leaks_of_open_bar {bar : BarSpec} (isBar : bar ∈ q.others) (begun : bar.start ≤ q.asOf)
    (isOpen : q.asOf + 1 < bar.start + bar.length) : ¬ q.NoLookAhead := by
  intro safe
  have known : ∀ arrival ∈ [firstTick q contract, nextIndexTick q], q.Listed arrival := by
    simp only [forall_mem_cons]
    exact ⟨listed_contract q listed _, trivial, by simp⟩
  obtain ⟨unknown, -⟩ := shared_of_noLookAhead q listed safe known
    (by simp [nextIndexTick, pricedAt, Arrival.tick?])
    (by simp [begunBuckets_nextIndex, begunBuckets_first])
  rw [historicalSpot_eq_none, visible_index q 0 known, append_eq_nil_iff, indexRows,
    filter_eq_nil_iff] at unknown
  have row : ∃ row, q.otherRow [firstTick q contract, nextIndexTick q] bar = some row := by
    rw [Query.otherRow, Query.ticksIn]
    simp only [firstTick, nextIndexTick, pricedAt, filterMap_cons, filterMap_nil]
    rw [if_pos ⟨trivial, by omega, isOpen⟩]
    exact ⟨_, rfl⟩
  obtain ⟨row, present⟩ := row
  obtain ⟨symbol, time⟩ := otherRow_eq_some q present
  refine unknown.2 row (mem_filterMap.mpr ⟨bar, isBar, present⟩) ?_
  simp [symbol, time, begun]

end

end Leaks

theorem noLookAhead_iff_settled (q : Query) : q.NoLookAhead ↔ q.Settled := by
  refine ⟨?_, noLookAhead_of_settled q⟩
  intro safe
  cases listed : listedContracts q.contracts q.underlying q.expiry with
  | nil => exact .inl listed
  | cons contract rest =>
    have mem : contract ∈ listedContracts q.contracts q.underlying q.expiry := by
      rw [listed]
      exact mem_cons_self
    refine .inr ⟨?_, ?_⟩
    · by_contra isOpen
      exact leaks_of_open_minute q mem isOpen safe
    · intro bar isBar
      by_contra isOpen
      rw [not_or, Int.not_lt, Int.not_le] at isOpen
      exact leaks_of_open_bar q mem isBar isOpen.1 isOpen.2 safe

def midMinute : Query where
  formats := ⟨fun _ => "2026-11-26", fun _ => "24000"⟩
  underlying := "NIFTY"
  expiry := 0
  asOf := 30000000
  strikeWindow := none
  contracts := ⟨[{
    id := 1
    underlying := "NIFTY"
    exchange := .nfo
    provider := "icici_breeze"
    providerToken := none
    symbol := "NIFTY|2026-11-26|24000|CE"
    expiry := 0
    strike := 24000
    optionType := .ce }], by simp⟩
  exchangeOf := fun _ => "NSE"
  others := []

def callPrices (chain : Except OptionsDataError HistoricalChain) : List (Option ℚ) :=
  match chain with
  | .ok chain => chain.rows.map fun row => row.call.map HistoricalQuote.ltp
  | .error _ => []

theorem later_tick_in_chain :
    let early := [.option 1 (pricedAt 10000000 100)]
    let late := [.option 1 (pricedAt 50000000 150)]
    callPrices (midMinute.chain (early ++ []) 60000000) = [some 100] ∧
      callPrices (midMinute.chain (early ++ late) 60000000) = [some 150] ∧
      ¬ midMinute.NoLookAhead := by
  have first : callPrices (midMinute.chain ([.option 1 (pricedAt 10000000 100)] ++ []) 60000000) =
      [some 100] := by decide +kernel
  have second : callPrices (midMinute.chain
      ([.option 1 (pricedAt 10000000 100)] ++ [.option 1 (pricedAt 50000000 150)]) 60000000) =
      [some 150] := by decide +kernel
  refine ⟨first, second, ?_⟩
  intro safe
  have equal := safe [.option 1 (pricedAt 10000000 100)] [] [.option 1 (pricedAt 50000000 150)]
    60000000 60000000 (by simp [Query.Listed, midMinute])
    (by simp [Arrival.tick?, pricedAt, midMinute]) (by simp [Arrival.tick?, pricedAt, midMinute])
  rw [equal, second] at first
  exact absurd first (by decide)

end AlgoSystem.Proof.MarketData.PointInTime
