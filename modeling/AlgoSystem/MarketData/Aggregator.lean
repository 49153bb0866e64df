import AlgoSystem.General.Dict
import Mathlib.Order.Lattice

/-!
`trading/market_data/aggregator.py`. The lock makes each definition on `CandleAggregator` below one
critical section; only `forceCloseAll` has two. A timezone-aware datetime is an `Int`, the
microseconds of UTC since the epoch.
-/

namespace AlgoSystem.MarketData
open General

def oneMinute : Int := 60000000

def minuteStart (ts : Int) : Int := ts / oneMinute * oneMinute

structure Tick (P : Type) where
  ts : Int
  price : P
  volume : Option Int := none
  oi : Option Int := none

def Tick.minute {P : Type} (tick : Tick P) : Int := minuteStart tick.ts

structure Bucket (P : Type) where
  minute : Int
  opening : P
  high : P
  low : P
  close : P
  volume : Option Int := none
  oi : Option Int := none

structure Series (P : Type) where
  current : Option (Bucket P) := none
  finished : List (Bucket P) := []
  lastClosed : Option Int := none

structure Candle (P : Type) where
  symbol : String
  interval : String
  timestamp : Int
  opening : P
  high : P
  low : P
  close : P
  volume : Option Int
  oi : Option Int
  deriving DecidableEq

section Bucketing
variable {P : Type} [LinearOrder P]

def Bucket.start (tick : Tick P) : Bucket P :=
  ⟨tick.minute, tick.price, tick.price, tick.price, tick.price, tick.volume, tick.oi⟩

def Bucket.update (b : Bucket P) (tick : Tick P) : Bucket P :=
  { b with
    high := max b.high tick.price
    low := min b.low tick.price
    close := tick.price
    volume := match tick.volume with | some v => some v | none => b.volume
    oi := match tick.oi with | some v => some v | none => b.oi }

def Series.late (s : Series P) (tick : Tick P) : Bool :=
  match s.lastClosed with
  | some closed => decide (tick.minute ≤ closed)
  | none => false

def Series.add (s : Series P) (tick : Tick P) : Series P :=
  if s.late tick then s
  else match s.current with
    | none => { s with current := some (Bucket.start tick) }
    | some b =>
      if tick.minute = b.minute then { s with current := some (b.update tick) }
      else if b.minute < tick.minute then
        { s with finished := s.finished ++ [b], current := some (Bucket.start tick) }
      else s  -- a minute that was never opened is not reordered into place

def advanceClosed (closed : Option Int) (b : Bucket P) : Option Int :=
  match closed with
  | none => some b.minute
  | some m => if m < b.minute then some b.minute else some m

def Series.closeThrough (s : Series P) (nowMinute : Int) : List (Bucket P) × Series P :=
  match s.current with
  | none => (s.finished, ⟨none, [], s.finished.foldl advanceClosed s.lastClosed⟩)
  | some b =>
    if b.minute < nowMinute then
      let out := s.finished ++ [b]
      (out, ⟨none, [], out.foldl advanceClosed s.lastClosed⟩)
    else (s.finished, ⟨some b, [], s.finished.foldl advanceClosed s.lastClosed⟩)

def Series.rollover (s : Series P) : Series P :=
  match s.current with
  | none => s
  | some b => { s with finished := s.finished ++ [b], current := none }

def toCandle (symbol interval : String) (b : Bucket P) : Candle P :=
  ⟨symbol, interval, b.minute, b.opening, b.high, b.low, b.close, b.volume, b.oi⟩

end Bucketing

abbrev IndexKey := String × String

structure CandleAggregator (P : Type) where
  interval : String := "1minute"
  index : Dict IndexKey (Series P) := .empty
  option : Dict Int (Series P) := .empty

structure Emitted (P : Type) where
  index : List (IndexKey × Candle P) := []
  option : List (Int × Candle P) := []

def Emitted.append {P : Type} (a b : Emitted P) : Emitted P :=
  ⟨a.index ++ b.index, a.option ++ b.option⟩

namespace CandleAggregator
variable {P : Type} [LinearOrder P]

def onIndexTick (agg : CandleAggregator P) (symbol exchange : String) (tick : Tick P) :
    CandleAggregator P :=
  { agg with index := agg.index.upsert (symbol, exchange) {} (·.add tick) }

def onOptionTick (agg : CandleAggregator P) (contractId : Int) (tick : Tick P) :
    CandleAggregator P :=
  { agg with option := agg.option.upsert contractId {} (·.add tick) }

def flush (agg : CandleAggregator P) (now : Int) : Emitted P × CandleAggregator P :=
  let nowMinute := minuteStart now
  ({ index := agg.index.entries.flatMap fun p =>
       ((p.2.closeThrough nowMinute).1.map (toCandle p.1.1 agg.interval)).map fun c => (p.1, c)
     option := agg.option.entries.flatMap fun p =>
       ((p.2.closeThrough nowMinute).1.map
         (toCandle ("contract:" ++ toString p.1) agg.interval)).map fun c => (p.1, c) },
   { agg with
     index := agg.index.mapValues fun s => (s.closeThrough nowMinute).2
     option := agg.option.mapValues fun s => (s.closeThrough nowMinute).2 })

def finishCurrent (agg : CandleAggregator P) : CandleAggregator P :=
  { agg with
    index := agg.index.mapValues Series.rollover
    option := agg.option.mapValues Series.rollover }

def forceCloseAll (agg : CandleAggregator P) (now : Int) : Emitted P × CandleAggregator P :=
  agg.finishCurrent.flush (now + oneMinute)

end CandleAggregator

inductive Call (P : Type) where
  | onIndexTick (symbol exchange : String) (tick : Tick P)
  | onOptionTick (contractId : Int) (tick : Tick P)
  | flush (now : Int)
  | forceCloseAll (now : Int)

inductive SeriesKey where
  | index (symbol exchange : String)
  | option (contractId : Int)
  deriving DecidableEq

section Calls
variable {P : Type} [LinearOrder P]

def CandleAggregator.perform (agg : CandleAggregator P) : Call P → Emitted P × CandleAggregator P
  | .onIndexTick symbol exchange tick => ({}, agg.onIndexTick symbol exchange tick)
  | .onOptionTick contractId tick => ({}, agg.onOptionTick contractId tick)
  | .flush now => agg.flush now
  | .forceCloseAll now => agg.forceCloseAll now

def CandleAggregator.performAll (agg : CandleAggregator P) :
    List (Call P) → Emitted P × CandleAggregator P
  | [] => ({}, agg)
  | call :: calls =>
    let first := agg.perform call
    let rest := first.2.performAll calls
    (first.1.append rest.1, rest.2)

def CandleAggregator.series (agg : CandleAggregator P) : SeriesKey → Series P
  | .index symbol exchange => (agg.index.get? (symbol, exchange)).getD {}
  | .option contractId => (agg.option.get? contractId).getD {}

def Emitted.candles (out : Emitted P) : SeriesKey → List (Candle P)
  | .index symbol exchange =>
    out.index.filterMap fun q => if q.1 = (symbol, exchange) then some q.2 else none
  | .option contractId =>
    out.option.filterMap fun q => if q.1 = contractId then some q.2 else none

def Call.tickFor (key : SeriesKey) : Call P → Option (Tick P)
  | .onIndexTick symbol exchange tick =>
    if key = .index symbol exchange then some tick else none
  | .onOptionTick contractId tick => if key = .option contractId then some tick else none
  | .flush _ => none
  | .forceCloseAll _ => none

/-- `add` enters the tick into a bucket, that is, takes neither of its two drop branches. -/
def Series.accepts (s : Series P) (tick : Tick P) : Bool :=
  !s.late tick && match s.current with
    | none => true
    | some b => decide (b.minute ≤ tick.minute)

def CandleAggregator.accepted (agg : CandleAggregator P) (key : SeriesKey) :
    List (Call P) → List (Tick P)
  | [] => []
  | call :: calls =>
    ((call.tickFor key).filter (agg.series key).accepts).toList ++
      (agg.perform call).2.accepted key calls

def Series.held (s : Series P) : List (Bucket P) := s.finished ++ s.current.toList

end Calls

end AlgoSystem.MarketData
