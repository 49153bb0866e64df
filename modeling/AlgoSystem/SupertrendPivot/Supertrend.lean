import AlgoSystem.SupertrendPivot.TickStream
import Mathlib.Algebra.Order.Ring.Rat

/-!
`supertrend` of `indicators.py` with any period and multiplier, row by row.
-/

namespace AlgoSystem.SupertrendPivot

inductive Trend where
  | green
  | red
  deriving DecidableEq

structure BandRow where
  candle : Candle
  atr : ℚ
  finalUpper : ℚ
  finalLower : ℚ
  supertrend : ℚ
  direction : Trend

/-- The line follows one of the final bands until the close crosses it. -/
def followBand (c : Candle) (atr finalUpper finalLower : ℚ) (onUpper : Bool) : BandRow :=
  if onUpper then
    if c.close ≤ finalUpper then ⟨c, atr, finalUpper, finalLower, finalUpper, .red⟩
    else ⟨c, atr, finalUpper, finalLower, finalLower, .green⟩
  else
    if finalLower ≤ c.close then ⟨c, atr, finalUpper, finalLower, finalLower, .green⟩
    else ⟨c, atr, finalUpper, finalLower, finalUpper, .red⟩

def nextAtr (period : Nat) (prev : BandRow) (c : Candle) : ℚ :=
  let prevClose := prev.candle.close
  let tr := max (c.high - c.low) (max |c.high - prevClose| |c.low - prevClose|)
  let alpha : ℚ := 1 / period
  alpha * tr + (1 - alpha) * prev.atr

def upperBand (multiplier : ℚ) (c : Candle) (atr : ℚ) : ℚ := (c.high + c.low) / 2 + multiplier * atr

def lowerBand (multiplier : ℚ) (c : Candle) (atr : ℚ) : ℚ := (c.high + c.low) / 2 - multiplier * atr

def firstRow (multiplier : ℚ) (c : Candle) : BandRow :=
  let atr := c.high - c.low
  let upper := upperBand multiplier c atr
  ⟨c, atr, upper, lowerBand multiplier c atr, upper, .red⟩

def nextRow (period : Nat) (multiplier : ℚ) (red : BandRow → Bool) (prev : BandRow)
    (c : Candle) : BandRow :=
  let prevClose := prev.candle.close
  let atr := nextAtr period prev c
  let upper := upperBand multiplier c atr
  let lower := lowerBand multiplier c atr
  let finalUpper := if prevClose ≤ prev.finalUpper then min upper prev.finalUpper else upper
  let finalLower := if prev.finalLower ≤ prevClose then max lower prev.finalLower else lower
  followBand c atr finalUpper finalLower (red prev)

def rowsFrom (next : BandRow → Candle → BandRow) (row : BandRow) : List Candle → List BandRow
  | [] => [row]
  | c :: cs => row :: rowsFrom next (next row c) cs

def rows (period : Nat) (multiplier : ℚ) (red : BandRow → Bool) : List Candle → List BandRow
  | [] => []
  | c :: cs => rowsFrom (nextRow period multiplier red) (firstRow multiplier c) cs

def onUpper (prev : BandRow) : Bool := prev.supertrend = prev.finalUpper

def supertrend (period : Nat) (multiplier : ℚ) : List Candle → List BandRow :=
  rows period multiplier onUpper

end AlgoSystem.SupertrendPivot
