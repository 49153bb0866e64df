import AlgoSystem.VwapHedge.Candles

/-!
`_trademanager` of `trading/algos/Vwap_Algo_Nifty_hedge/manager.py` for one strike, with the feed,
`savedata_ohlc` and `sltracking` beside it. Orders are listed as they are sent; what the broker
answers is the `Answer` of an evaluation.
-/

namespace AlgoSystem.VwapHedge
open General

inductive Order where
  | hedgeBuy
  | shortSell
  | stoploss (trigger : ℤ)
  | buyBack
  | hedgeSell
  deriving DecidableEq

structure Trader where
  ohlc : List Candle := []
  tlv : List Tick := []
  slHit : Bool := false
  tracking : Nat := 0  -- the running `sltracking` threads
  firstFlagEntry : Bool := true
  isTriggered : Bool := false
  triggerLow : ℚ := 0
  triggerHigh : ℚ := 0
  isInTrade : Bool := false
  timeUp : Bool := false
  slOrderid : Option Nat := none
  maxEntryLimit : Nat := 0  -- of the strike's own type, CE or PE
  ended : Bool := false
  orders : List Order := []

/-- `place_stoploss_order` returns an id or nothing, and the status after `cancel_stoploss_order`
may be complete. -/
structure Answer where
  slOrderid : Option Nat := none
  slComplete : Bool := false

def timeUpLabel : Label := ⟨14, 30, 0⟩
def bookingLabel : Label := ⟨15, 15, 0⟩

def stoplossPrice (triggerHigh close : ℚ) : ℚ :=
  if 20 < triggerHigh - close then close + 20
  else if 10 ≤ triggerHigh - close then triggerHigh
  else close + 10

namespace Trader

def submit (t : Trader) (order : Order) : Trader := { t with orders := t.orders ++ [order] }

def checkTimeUp (t : Trader) (candle : Candle) : Trader :=
  if candle.datetime = timeUpLabel then { t with timeUp := true } else t

def cancelTrigger (t : Trader) (candle : Candle) (vwap : Option ℚ) : Trader :=
  if vwap.any (· < candle.close) && t.isTriggered && !t.timeUp then
    { t with isTriggered := false, triggerLow := 0, triggerHigh := 0 }
  else t

def stoppedOut (t : Trader) : Bool := t.slHit && t.isInTrade

def checkStoploss (t : Trader) : Trader := if t.stoppedOut then { t with isInTrade := false } else t

def executes (t : Trader) (candle : Candle) : Bool :=
  candle.close < t.triggerLow && t.isTriggered && !t.isInTrade && !t.timeUp

def execute (t : Trader) (candle : Candle) (a : Answer) : Trader :=
  let trigger := roundHalfEven (stoplossPrice t.triggerHigh candle.close)
  { (t.submit .shortSell).submit (.stoploss trigger) with
    isTriggered := false
    maxEntryLimit := t.maxEntryLimit + 1
    triggerLow := 0
    triggerHigh := 0
    isInTrade := true
    slHit := false
    slOrderid := a.slOrderid
    tracking := t.tracking + if a.slOrderid.isSome then 1 else 0 }

def vwapTrigger (t : Trader) (candle : Candle) (vwap : Option ℚ) (sameCandle : Bool) : Trader :=
  if vwap.any (candle.close < ·) && !t.isInTrade && !t.timeUp && sameCandle then
    { t with isTriggered := true, triggerLow := candle.low, triggerHigh := candle.high }
  else t

def bookShort (t : Trader) (a : Answer) : Trader :=
  if t.isInTrade then
    let closed := if t.slOrderid.isSome && a.slComplete then t else t.submit .buyBack
    { closed with isInTrade := false }
  else t

def booking (t : Trader) (candle : Candle) (a : Answer) : Trader :=
  if candle.datetime = bookingLabel then { (t.bookShort a).submit .hedgeSell with ended := true }
  else { t with firstFlagEntry := false }

def round (t : Trader) (candle : Candle) (vwap : Option ℚ) (a : Answer) : Trader :=
  let checked := (t.checkTimeUp candle).cancelTrigger candle vwap
  let sameCandle := !checked.stoppedOut
  let waiting := checked.checkStoploss
  if waiting.executes candle && 3 ≤ waiting.maxEntryLimit then { waiting with isTriggered := false }
  else
    let traded := if waiting.executes candle then waiting.execute candle a else waiting
    (traded.vwapTrigger candle vwap sameCandle).booking candle a

def evaluate (ta : TaVwap) (t : Trader) (a : Answer) : Trader :=
  match t.ohlc.getLast? with
  | none => t
  | some candle =>
    let vwaps := makeVwap ta t.ohlc
    if vwaps.all Option.isNone then { t with firstFlagEntry := false }
    else t.round candle (vwaps[t.ohlc.length - 1]?).join a

def evaluates (t : Trader) (dt : DateTime) : Bool :=
  !t.ended && ((dt.minute % 2 ≠ 0 && dt.second = 0) || t.firstFlagEntry)

def begin (raw : Option (List RawCandle)) : Trader :=
  { ohlc := (convert2min raw).getD [], orders := [.hedgeBuy] }

end Trader

inductive Event where
  | tick (tick : Tick)
  | flush (dt : DateTime)
  | evaluate (dt : DateTime) (a : Answer)
  | stoplossFilled
  | stoplossGone

def step (ta : TaVwap) (t : Trader) : Event → Option Trader
  | .tick tick => some { t with tlv := t.tlv ++ [tick] }
  | .flush dt =>
    if flushes dt then some { t with ohlc := t.ohlc ++ [liveCandle t.ohlc t.tlv dt], tlv := [] }
    else none
  | .evaluate dt a => if t.evaluates dt then some (t.evaluate ta a) else none
  | .stoplossFilled =>
    if 0 < t.tracking then some { t with slHit := true, tracking := t.tracking - 1 } else none
  | .stoplossGone => if 0 < t.tracking then some { t with tracking := t.tracking - 1 } else none

end AlgoSystem.VwapHedge
