import AlgoSystem.Intraday.Portfolio
import Mathlib.Data.List.Dedup
import Mathlib.Data.List.Sort

/-!
`config.py` and `strategy.py` of `VWAP_Reclaim` and of `EMA20_Pullback`, which have the same exits
and differ in `detect`. A frame of candles is the list of its rows in the order of time.
-/

namespace AlgoSystem.Intraday
open General MarketData

def hhmm (hour minute : Int) : Int := (hour * 60 + minute) * oneMinute

def timeOfDay (dt : Int) : Int := dt % oneDay

structure Config where
  algo : Algo
  strikeStep : Int := 50
  strikeOffsetItm : Int := -1
  slPct : ℚ := 3 / 10
  target1Pct : ℚ
  emaFast : Nat := 20
  emaSlow : Nat := 50
  emaTrailPeriod : Nat := 10
  maxLossesPerDay : Nat := 2
  weeklyDdHaltPct : ℚ := 3 / 100
  skipExpiryDay : Bool := true
  marketOpen : Int := hhmm 9 15
  marketClose : Int := hhmm 15 30
  scanFrom : Int
  scanTo : Int
  hardExitTime : Int := hhmm 14 30
  lotSize : Int := 75
  quantityLots : Int := 5
  brokeragePerLeg : ℚ := 30
  costTurnoverPct : ℚ := 7 / 10000

def VwapReclaim.config : Config where
  algo := .vwapReclaim
  target1Pct := 3 / 10
  scanFrom := hhmm 9 30
  scanTo := hhmm 13 0

def Ema20Pullback.config : Config where
  algo := .ema20Pullback
  target1Pct := 4 / 10
  scanFrom := hhmm 9 45
  scanTo := hhmm 13 30

structure Bar where
  ts : Int
  opening : ℚ
  high : ℚ
  low : ℚ
  close : ℚ

structure SignalDecision where
  direction : Direction
  strike : Int
  spot : ℚ
  entryTs : Int
  deriving DecidableEq

structure ExitDecision where
  reason : String
  price : ℚ
  atTs : Int

def roundStrike (config : Config) (spotPrice : ℚ) (direction : Direction) : Int :=
  let atm := roundHalfEven (spotPrice / config.strikeStep) * config.strikeStep
  match direction with
  | .ce => atm + config.strikeOffsetItm * config.strikeStep
  | .pe => atm - config.strikeOffsetItm * config.strikeStep

def fiveMinutes : Int := 5 * oneMinute

def Bar.bin (minute : Bar) : Int := minute.ts / fiveMinutes

def aggregate (bin : Int) (first : Bar) (rest : List Bar) : Bar where
  ts := bin * fiveMinutes
  opening := first.opening
  high := rest.foldl (fun high minute => max high minute.high) first.high
  low := rest.foldl (fun low minute => min low minute.low) first.low
  close := (rest.getLast?.getD first).close

def resample5min (minutes : List Bar) : List Bar :=
  ((minutes.map Bar.bin).dedup.insertionSort (· ≤ ·)).filterMap fun bin =>
    match minutes.filter fun minute => minute.bin = bin with
    | [] => none
    | first :: rest => some (aggregate bin first rest)

def betweenTime (start stop : Int) (ts : Int) : Bool := start ≤ timeOfDay ts && timeOfDay ts ≤ stop

def vwapFrom : (sum : ℚ) → (count : Nat) → List Bar → List (Int × ℚ)
  | _, _, [] => []
  | sum, count, minute :: minutes =>
    let sum := sum + (minute.high + minute.low + minute.close) / 3
    (minute.ts, sum / (count + 1)) :: vwapFrom sum (count + 1) minutes

def vwap (minutes : List Bar) : List (Int × ℚ) := vwapFrom 0 0 minutes

/-- `Series.asof`: the last value that is not after `ts`. -/
def asof (series : List (Int × ℚ)) (ts : Int) : Option ℚ :=
  (series.filter fun row => row.1 ≤ ts).getLast?.map Prod.snd

def ewmFrom (alpha : ℚ) : (mean : ℚ) → List ℚ → List ℚ
  | _, [] => []
  | mean, x :: xs =>
    let mean := alpha * x + (1 - alpha) * mean
    mean :: ewmFrom alpha mean xs

def ewm (span : Nat) : List ℚ → List ℚ
  | [] => []
  | x :: xs => x :: ewmFrom (2 / (span + 1)) x xs

section Detect
variable (config : Config)

def signalAt (direction : Direction) (bar : Bar) : SignalDecision :=
  ⟨direction, roundStrike config bar.close direction, bar.close, bar.ts⟩

def VwapReclaim.scan (vwapMin : List (Int × ℚ)) (now : Int) :
    (wasBelow wasAbove : Bool) → List Bar → Option SignalDecision
  | _, _, [] => none
  | wasBelow, wasAbove, bar :: bars =>
    if now < bar.ts then none
    else match asof vwapMin bar.ts with
      | none => VwapReclaim.scan vwapMin now wasBelow wasAbove bars
      | some v =>
        let wasBelow := wasBelow || bar.close < v
        let wasAbove := wasAbove || v < bar.close
        if wasBelow && bar.opening < v && v < bar.close then some (signalAt config .ce bar)
        else if wasAbove && v < bar.opening && bar.close < v then
          some (signalAt config .pe bar)
        else VwapReclaim.scan vwapMin now wasBelow wasAbove bars

def VwapReclaim.detect (minutes : List Bar) (now : Int) : Option SignalDecision :=
  VwapReclaim.scan config (vwap minutes) now false false
    ((resample5min minutes).filter fun bar => betweenTime config.scanFrom config.scanTo bar.ts)

structure TrendBar where
  bar : Bar
  emaFast : ℚ
  emaSlow : ℚ

def trendBars (bars : List Bar) : List TrendBar :=
  (bars.zip ((ewm config.emaFast (bars.map Bar.close)).zip
    (ewm config.emaSlow (bars.map Bar.close)))).map fun row => ⟨row.1, row.2.1, row.2.2⟩

def Ema20Pullback.scan (now : Int) : TrendBar → List TrendBar → Option SignalDecision
  | _, [] => none
  | prev, cur :: rest =>
    if now < cur.bar.ts then none
    else if cur.emaSlow < cur.emaFast && prev.bar.low ≤ prev.emaFast * (1001 / 1000) &&
        prev.bar.high < cur.bar.close then
      some (signalAt config .ce cur.bar)
    else if cur.emaFast < cur.emaSlow && prev.emaFast * (999 / 1000) ≤ prev.bar.high &&
        cur.bar.close < prev.bar.low then
      some (signalAt config .pe cur.bar)
    else Ema20Pullback.scan now cur rest

def Ema20Pullback.detect (minutes : List Bar) (now : Int) : Option SignalDecision :=
  let bars := resample5min minutes
  if bars.length < config.emaSlow then none
  else
    match (trendBars config bars).filter fun row =>
        betweenTime config.scanFrom config.scanTo row.bar.ts with
    | [] => none
    | first :: rest => Ema20Pullback.scan config now first rest

def detect (minutes : List Bar) (now : Int) : Option SignalDecision :=
  match config.algo with
  | .vwapReclaim => VwapReclaim.detect config minutes now
  | .ema20Pullback => Ema20Pullback.detect config minutes now

end Detect

def evaluateExit (config : Config) (leg : OpenLeg) (optionLtp : ℚ) (minutes : List Bar)
    (now : Int) : Option ExitDecision :=
  if config.hardExitTime ≤ timeOfDay now then some ⟨"TimeStop", optionLtp, now⟩
  else if optionLtp ≤ leg.slPrice then some ⟨"SL", leg.slPrice, now⟩
  else if leg.bookedHalf then
    let closes := (resample5min minutes).map Bar.close
    if closes.length < config.emaTrailPeriod then none
    else
      match closes.getLast?, (ewm config.emaTrailPeriod closes).getLast? with
      | some lastClose, some lastEma =>
        if leg.direction = .ce ∧ lastClose < lastEma then some ⟨"Trail", optionLtp, now⟩
        else if leg.direction = .pe ∧ lastEma < lastClose then some ⟨"Trail", optionLtp, now⟩
        else none
      | _, _ => none
  else none

def isTradableDay (day : Int) (weeklyExpiries : List Int) (skipExpiry : Bool) : Bool :=
  decide (weekday day < 5) && !(skipExpiry && weeklyExpiries.contains day)

end AlgoSystem.Intraday
