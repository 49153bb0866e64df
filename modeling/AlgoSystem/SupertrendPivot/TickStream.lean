import AlgoSystem.MarketData.MarketHours
import Mathlib.Data.Rat.Defs
import Mathlib.Algebra.Order.Ring.Unbundled.Rat

/-!
`trading/algos/supertrendPivotAlgo/tick_stream.py`. A naive IST datetime is an `Int`, in
microseconds. The lock of the aggregator makes `addTick` and `finalizeDue` one step each.
-/

namespace AlgoSystem.SupertrendPivot
open AlgoSystem.MarketData (oneMinute)

def candleIntervalMinutes : Nat := 5

def floorToBucket (ts : Int) (minutes : Nat) : Int :=
  ts - ts / oneMinute % 60 % minutes * oneMinute - ts % oneMinute

structure Candle where
  datetime : Int
  opening : ℚ
  high : ℚ
  low : ℚ
  close : ℚ
  volume : ℚ
  deriving DecidableEq

structure Tick where
  price : Option ℚ
  timestamp : Option Int := none
  cumulativeVolume : Option ℚ := none

structure CandleAggregator where
  interval : Nat
  completed : List Candle := []
  current : Option Candle := none
  lastVolume : Option ℚ := none
  lastFinalizedBucket : Option Int := none

def newCandle (bucket : Int) (price : ℚ) : Candle := ⟨bucket, price, price, price, price, 0⟩

namespace CandleAggregator

def create (intervalMinutes : Nat) : CandleAggregator :=
  { interval := if intervalMinutes = 0 then candleIntervalMinutes else intervalMinutes }

variable (agg : CandleAggregator)

def finalizeLocked : CandleAggregator :=
  match agg.current with
  | none => agg
  | some c =>
    { agg with completed := agg.completed ++ [c], lastFinalizedBucket := some c.datetime }

def rejects (bucket : Int) : Bool := agg.lastFinalizedBucket.any (bucket ≤ ·)

def openCandle (bucket : Int) (price : ℚ) : CandleAggregator :=
  match agg.current with
  | none => { agg with current := some (newCandle bucket price) }
  | some c =>
    if c.datetime < bucket then
      { agg.finalizeLocked with current := some (newCandle bucket price) }
    else agg

def volumeDelta (cumulativeVolume : Option ℚ) : ℚ :=
  match cumulativeVolume, agg.lastVolume with
  | some volume, some last => if last ≤ volume then volume - last else 0
  | _, _ => 0

def updateCandle (price : ℚ) (cumulativeVolume : Option ℚ) : CandleAggregator :=
  { agg with
    current := agg.current.map fun c => { c with
      high := max c.high price
      low := min c.low price
      close := price
      volume := c.volume + agg.volumeDelta cumulativeVolume }
    lastVolume := cumulativeVolume.or agg.lastVolume }

def addTick (tick : Tick) (now : Int) : CandleAggregator :=
  match tick.price with
  | none => agg
  | some price =>
    let bucket := floorToBucket (tick.timestamp.getD now) agg.interval
    if agg.rejects bucket then agg
    else (agg.openCandle bucket price).updateCandle price tick.cumulativeVolume

def finalizeDue (now : Int) : CandleAggregator × Bool :=
  match agg.current with
  | none => (agg, false)
  | some c =>
    if c.datetime + agg.interval * oneMinute ≤ now then
      ({ agg.finalizeLocked with current := none }, true)
    else (agg, false)

def snapshot (includeForming : Bool := false) : List Candle :=
  agg.completed ++ (if includeForming then agg.current.toList else [])

end CandleAggregator

inductive StreamEvent where
  | addTick (tick : Tick) (now : Int)
  | finalizeDue (now : Int)

def CandleAggregator.step (agg : CandleAggregator) : StreamEvent → CandleAggregator
  | .addTick tick now => agg.addTick tick now
  | .finalizeDue now => (agg.finalizeDue now).1

end AlgoSystem.SupertrendPivot
