import AlgoSystem.General.Rounding
import Mathlib.Data.List.Dedup
import Mathlib.Data.List.Sort

/-!
`trading/algos/Vwap_Algo_Nifty_hedge/make_data.py` and `make_vwap` of `rest_func.py`, for one token.
A `Label` is a time of day that the source writes as `%H:%M:%S`. `pandas_ta.vwap` is a parameter.
-/

namespace AlgoSystem.VwapHedge
open General

structure Label where
  hour : Nat
  minute : Nat
  second : Nat
  deriving DecidableEq

structure DateTime where
  hour : Nat
  minute : Nat
  second : Nat := 0
  microsecond : Nat := 0
  deriving DecidableEq

structure Candle where
  datetime : Label
  opening : ℚ
  high : ℚ
  low : ℚ
  close : ℚ
  volume : ℚ

structure RawCandle where
  time : Nat
  opening : ℚ
  high : ℚ
  low : ℚ
  close : ℚ
  volume : ℚ
  deriving DecidableEq

def labelOf (seconds : Nat) : Label := ⟨seconds / 3600 % 24, seconds / 60 % 60, seconds % 60⟩

/-- The bins of `resample('2T')` start at midnight; the rows are shifted by a minute before. -/
def RawCandle.bin (row : RawCandle) : Nat := (row.time + 60) / 120

def aggregate (bin : Nat) (first : RawCandle) (rest : List RawCandle) : Candle where
  datetime := labelOf (bin * 120)
  opening := first.opening
  high := rest.foldl (fun high row => max high row.high) first.high
  low := rest.foldl (fun low row => min low row.low) first.low
  close := (rest.getLast?.getD first).close
  volume := first.volume + (rest.map RawCandle.volume).sum

def resample (rows : List RawCandle) : List Candle :=
  ((rows.map RawCandle.bin).dedup.insertionSort (· ≤ ·)).filterMap fun bin =>
    match rows.filter fun row => row.bin = bin with
    | [] => none
    | first :: rest => some (aggregate bin first rest)

def convert2min : Option (List RawCandle) → Option (List Candle)
  | none | some [] => none
  | some rows => some (resample rows)

structure Tick where
  minute : Nat
  ltp : ℚ
  volume : ℚ
  deriving DecidableEq

def previousMinute (minute : Nat) : Nat := (minute + 59) % 60

def flushes (dt : DateTime) : Bool := dt.minute % 2 = 0 && dt.second = 59 && 750000 < dt.microsecond

def liveCandle (ohlc : List Candle) (ticks : List Tick) (dt : DateTime) : Candle :=
  let datetime : Label := ⟨dt.hour, dt.minute, 0⟩
  match ticks.filter fun tick => tick.minute = dt.minute ∨ tick.minute = previousMinute dt.minute with
  | [] =>
    -- Without a tick the previous close is carried forward.
    let price := (ohlc.getLast?.map Candle.close).getD 0
    ⟨datetime, price, price, price, price, 0⟩
  | first :: rest =>
    let last := rest.getLast?.getD first
    { datetime
      opening := first.ltp
      high := rest.foldl (fun high tick => max high tick.ltp) first.ltp
      low := rest.foldl (fun low tick => min low tick.ltp) first.ltp
      close := last.ltp
      volume := last.volume - first.volume }

def cumulativeVwap : (amount volume : ℚ) → List Candle → List ℚ
  | _, _, [] => []
  | amount, volume, candle :: candles =>
    let amount := amount + (candle.high + candle.low + candle.close) / 3 * candle.volume
    let volume := volume + candle.volume
    (if volume = 0 then candle.close else amount / volume) :: cumulativeVwap amount volume candles

abbrev TaVwap := List Candle → Option (List (Option ℚ))

def makeVwap (ta : TaVwap) (ohlc : List Candle) : List (Option ℚ) :=
  ((ta ohlc).getD ((cumulativeVwap 0 0 ohlc).map some)).map fun vwap => vwap.map (roundTo 2)

end AlgoSystem.VwapHedge
