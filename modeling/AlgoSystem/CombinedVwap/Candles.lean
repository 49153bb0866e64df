import AlgoSystem.VwapHedge.Candles

/-!
`update_candle`, `clear_tlv_data` and `savedata_ohlc` of
`trading/algos/CombinedVwapNifty/make_data.py` for one token. The tick thread and the flush loop
share `config.tlv_data[token]` without a lock; `Live` has the point that each has reached.
-/

namespace AlgoSystem.CombinedVwap
open VwapHedge (Label DateTime Candle Tick)

structure Buffer where
  minute : List Tick := []
  ltp : List Tick := []
  volume : List Tick := []
  deriving DecidableEq

def Buffer.minLength (buffer : Buffer) : Nat :=
  min (min buffer.minute.length buffer.ltp.length) buffer.volume.length

def Buffer.updateCandle (buffer : Buffer) (tick : Tick) : Buffer where
  minute := buffer.minute ++ [tick]
  ltp := buffer.ltp ++ [tick]
  volume := buffer.volume ++ [tick]

def flushes (dt : DateTime) : Bool := dt.second = 59 && 750000 < dt.microsecond

def candleVolume : (volList : List Tick) → ℚ
  | [] | [_] => 0
  | first :: rest => (rest.getLast?.getD first).volume - first.volume

def liveCandle (ohlc : List Candle) (ltpList volList : List Tick) (dt : DateTime) : Candle :=
  let datetime : VwapHedge.Label := ⟨dt.hour, dt.minute, 0⟩
  match ltpList with
  | [] =>
    let price := (ohlc.getLast?.map Candle.close).getD 0
    ⟨datetime, price, price, price, price, 0⟩
  | first :: rest =>
    { datetime
      opening := first.ltp
      high := rest.foldl (fun high tick => max high tick.ltp) first.ltp
      low := rest.foldl (fun low tick => min low tick.ltp) first.ltp
      close := (rest.getLast?.getD first).ltp
      volume := candleVolume volList }

def Buffer.ltpList (buffer : Buffer) : List Tick := buffer.ltp.take buffer.minLength

def Buffer.volList (buffer : Buffer) : List Tick := buffer.volume.take buffer.minLength

inductive Updating where
  | idle
  | minuteAppended (tick : Tick)
  | ltpAppended (tick : Tick)
  deriving DecidableEq

inductive Flushing where
  | waiting
  | hasRead (dt : DateTime) (ltpList volList : List Tick)
  | candleAppended
  deriving DecidableEq

structure Live where
  buffer : Buffer := {}
  ohlc : List Candle := []
  updating : Updating := .idle
  flushing : Flushing := .waiting

inductive LiveEvent where
  | appendMinute (tick : Tick)
  | appendLtp
  | appendVolume
  | read (dt : DateTime)
  | appendCandle
  | clear

namespace Live

def step (s : Live) : LiveEvent → Option Live
  | .appendMinute tick =>
    match s.updating with
    | .idle => some { s with
        buffer := { s.buffer with minute := s.buffer.minute ++ [tick] }
        updating := .minuteAppended tick }
    | _ => none
  | .appendLtp =>
    match s.updating with
    | .minuteAppended tick => some { s with
        buffer := { s.buffer with ltp := s.buffer.ltp ++ [tick] }
        updating := .ltpAppended tick }
    | _ => none
  | .appendVolume =>
    match s.updating with
    | .ltpAppended tick => some { s with
        buffer := { s.buffer with volume := s.buffer.volume ++ [tick] }
        updating := .idle }
    | _ => none
  | .read dt =>
    match s.flushing with
    | .waiting =>
      if flushes dt then
        some { s with flushing := .hasRead dt s.buffer.ltpList s.buffer.volList }
      else none
    | _ => none
  | .appendCandle =>
    match s.flushing with
    | .hasRead dt ltpList volList => some { s with
        ohlc := s.ohlc ++ [liveCandle s.ohlc ltpList volList dt]
        flushing := .candleAppended }
    | _ => none
  | .clear =>
    match s.flushing with
    | .candleAppended => some { s with buffer := {}, flushing := .waiting }
    | _ => none

end Live

end AlgoSystem.CombinedVwap
