import Mathlib.Algebra.Order.Ring.Unbundled.Rat
import AlgoSystem.MarketData.Aggregator

/-!
`buildStraddleSeries` of `straddleSeries.ts` and `vwap` of `chart/indicators.ts` in
`frontend/src/components/straddle-pulse`, over the candles that the aggregator has emitted.
-/

namespace AlgoSystem.MarketData

def minuteCandles (calls : List (Call ℚ)) (key : SeriesKey) : List (Candle ℚ) :=
  (({} : CandleAggregator ℚ).performAll calls).1.candles key

structure StraddlePoint where
  t : Int
  v : ℚ
  spot : ℚ
  ce : ℚ
  pe : ℚ
  volume : Option Int
  deriving DecidableEq

def candleAt (candles : List (Candle ℚ)) (timestamp : Int) : Option (Candle ℚ) :=
  candles.reverse.find? fun c => c.timestamp = timestamp

def candleVolume (row : Option (Candle ℚ)) : Int := (row.bind Candle.volume).getD 0

def straddleFrom (ce pe : List (Candle ℚ)) (lastCe lastPe : Option ℚ) :
    List (Candle ℚ) → List StraddlePoint
  | [] => []
  | s :: spot =>
    let cRow := candleAt ce s.timestamp
    let pRow := candleAt pe s.timestamp
    let lastCe := (cRow.map Candle.close).or lastCe
    let lastPe := (pRow.map Candle.close).or lastPe
    let rest := straddleFrom ce pe lastCe lastPe spot
    match lastCe, lastPe with
    | some c, some p =>
      let volume := candleVolume cRow + candleVolume pRow
      ⟨s.timestamp, c + p, s.close, c, p, if volume = 0 then none else some volume⟩ :: rest
    | _, _ => rest  -- no ATM contract data yet

def buildStraddleSeries (spot ce pe : List (Candle ℚ)) : List StraddlePoint :=
  straddleFrom ce pe none none spot

def StraddlePoint.weight (p : StraddlePoint) : ℚ := (p.volume.getD 1 : Int)

def vwapFrom (cumPV cumV : ℚ) : List StraddlePoint → List (Int × ℚ)
  | [] => []
  | p :: points =>
    let cumPV := cumPV + p.v * p.weight
    let cumV := cumV + p.weight
    (p.t, if cumV > 0 then cumPV / cumV else p.v) :: vwapFrom cumPV cumV points

def vwap (points : List StraddlePoint) : List (Int × ℚ) := vwapFrom 0 0 points

end AlgoSystem.MarketData
