import AlgoSystem.SupertrendPivot.MarketData
import AlgoSystem.SupertrendPivot.OrderManager
import AlgoSystem.SupertrendPivot.Supertrend
import Mathlib.Data.List.Dedup

/-!
`indicators.py` and `strategy.py` of `trading/algos/supertrendPivotAlgo`. A frame of candles is the
list of its rows.
-/

namespace AlgoSystem.SupertrendPivot

def supertrendPeriod : Nat := 7
def supertrendMultiplier : ℚ := 3

structure DailyBar where
  date : Int
  opening : ℚ
  high : ℚ
  low : ℚ
  close : ℚ

def dailyBar (date : Int) (first : Candle) (rest : List Candle) : DailyBar where
  date
  opening := first.opening
  high := rest.foldl (fun high c => max high c.high) first.high
  low := rest.foldl (fun low c => min low c.low) first.low
  close := (rest.getLast?.getD first).close

def dailyBarOf (df : List Candle) (date : Int) : Option DailyBar :=
  match df.filter fun c => dateOf c.datetime = date with
  | [] => none
  | first :: rest => some (dailyBar date first rest)

def previousDayOhlc (df : List Candle) : List DailyBar :=
  ((df.map fun c => dateOf c.datetime).dedup.insertionSort (· ≤ ·)).filterMap (dailyBarOf df)

structure Pivots where
  pivot : ℚ
  r1 : ℚ
  s1 : ℚ
  r2 : ℚ
  s2 : ℚ

def dailyPivots (prev : DailyBar) : Pivots :=
  let pivot := (prev.high + prev.low + prev.close) / 3
  { pivot
    r1 := 2 * pivot - prev.low
    s1 := 2 * pivot - prev.high
    r2 := pivot + (prev.high - prev.low)
    s2 := pivot - (prev.high - prev.low) }

inductive Skip where
  | notEnoughCandles
  | notEnoughDailyData
  | staleCandle

structure Reading where
  candle : Candle
  pivots : Pivots
  direction : Trend

def readSignals (df : List Candle) (now : Int) : Except Skip Reading :=
  if df.length < supertrendPeriod + 2 then .error .notEnoughCandles
  else
    match (previousDayOhlc df).dropLast.getLast?,
        (supertrend supertrendPeriod supertrendMultiplier df).getLast? with
    | some prev, some last =>
      if dateOf last.candle.datetime ≠ dateOf now then .error .staleCandle
      else .ok ⟨last.candle, dailyPivots prev, last.direction⟩
    | _, _ => .error .notEnoughDailyData

inductive OptionType where
  | ce
  | pe

inductive Decision where
  | skip (reason : Skip)
  | exit (reason : String)
  | hold (optionType : OptionType)
  | noNewEntry
  | noSpotPrice
  | sellAtm (optionType : OptionType) (spot : ℚ)
  | noSignal

/-- The second half of `evaluate`; `canOpen` is the answer of `can_open_new_position` and `spot`
that of `get_spot_price`, `none` if it raises. -/
def decideOn (reading : Reading) (position : Option OptionType) (canOpen : Bool)
    (spot : Option ℚ) : Decision :=
  match position with
  | some .pe => if reading.direction = .red then .exit "SUPERTREND_RED" else .hold .pe
  | some .ce => if reading.direction = .green then .exit "SUPERTREND_GREEN" else .hold .ce
  | none =>
    if canOpen then
      match spot with
      | none => .noSpotPrice
      | some spot =>
        if reading.pivots.r1 < reading.candle.close ∧ reading.direction = .green then
          .sellAtm .pe spot
        else if reading.candle.close < reading.pivots.s1 ∧ reading.direction = .red then
          .sellAtm .ce spot
        else .noSignal
    else .noNewEntry

def evaluate (df : List Candle) (now : Int) (position : Option OptionType) (canOpen : Bool)
    (spot : Option ℚ) : Decision :=
  match readSignals df now with
  | .error reason => .skip reason
  | .ok reading => decideOn reading position canOpen spot

end AlgoSystem.SupertrendPivot
