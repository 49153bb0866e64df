import AlgoSystem.SupertrendPivot.TickStream
import Mathlib.Data.List.Sort

/-!
`trading/algos/supertrendPivotAlgo/market_data.py`. What `_fetch_rest_candles` returns is an
argument, `none` if it raises. Readings of `time.monotonic()` are arguments, in microseconds like the
datetimes.
-/

namespace AlgoSystem.SupertrendPivot
open AlgoSystem.MarketData (oneMinute oneDay minuteStart)

def restCandleCacheTtl : Int := 30 * oneMinute
def marketOpen : Int := 555 * oneMinute

def dateOf (datetime : Int) : Int := datetime / oneDay

def timeOf (datetime : Int) : Int := datetime % oneDay

structure Window where
  fromDate : Int
  toDate : Int

def Window.covers (window : Window) (c : Candle) : Bool :=
  window.fromDate ≤ c.datetime && c.datetime ≤ window.toDate

def requestWindow (now : Int) (lookbackDays : Nat) : Window where
  fromDate := minuteStart (now - lookbackDays * oneDay)
  toDate := minuteStart now

def dropDuplicatesKeepLast : List Candle → List Candle
  | [] => []
  | c :: cs =>
    if cs.any (·.datetime = c.datetime) then dropDuplicatesKeepLast cs
    else c :: dropDuplicatesKeepLast cs

def dropDuplicatesKeepFirst (candles : List Candle) : List Candle :=
  (dropDuplicatesKeepLast candles.reverse).reverse

structure MarketData where
  stream : Option CandleAggregator := none
  restCache : Option (List Candle) := none
  restCacheTime : Int := 0

namespace MarketData

variable (md : MarketData)

/-- The clock is read when the candles are asked for and again after a fetch. -/
def getRestCandles (asked answered : Int) (fetched : Option (List Candle)) :
    Option (List Candle × MarketData) :=
  let ttl := if md.stream.isSome then restCandleCacheTtl else 0
  let age := asked - md.restCacheTime
  match md.restCache with
  | some cached =>
    if age < ttl then some (cached, md)
    else match fetched with
      | none => some (cached, md)
      | some df => some (df, { md with restCache := some df, restCacheTime := answered })
  | none =>
    match fetched with
    | none => none
    | some df => some (df, { md with restCache := some df, restCacheTime := answered })

/-- The live candles that may replace REST bars: completed, not before the open, one for each
datetime. -/
def liveCandles : List Candle :=
  match md.stream with
  | none => []
  | some agg =>
    dropDuplicatesKeepFirst (agg.snapshot.filter fun c => marketOpen ≤ timeOf c.datetime)

def mergeLiveCandles (restDf : List Candle) : List Candle :=
  if md.liveCandles.isEmpty then restDf
  else
    (dropDuplicatesKeepLast (restDf ++ md.liveCandles)).insertionSort
      fun a b => a.datetime ≤ b.datetime

def getCandles (asked answered : Int) (fetched : Option (List Candle)) :
    Option (List Candle × MarketData) :=
  (md.getRestCandles asked answered fetched).map fun (restDf, md) => (md.mergeLiveCandles restDf, md)

end MarketData

end AlgoSystem.SupertrendPivot
