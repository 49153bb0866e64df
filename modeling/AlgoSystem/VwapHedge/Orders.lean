import AlgoSystem.VwapHedge.Candles

/-!
`_retry_call`, `get_option_ohlc`, `place_market_order` and `place_stoploss_order` of
`trading/algos/Vwap_Algo_Nifty_hedge/rest_func.py` in live mode. What the broker does with the n-th
call is an input; the orders it accepts are listed beside what the caller sees.
-/

namespace AlgoSystem.VwapHedge
open General

/-- `none` stands for an attempt that raises or returns `None`; the two are treated alike. -/
def retryCall {σ α : Type} (sleep : Nat → σ → σ) (fn : σ → Option α × σ) :
    (retries delay : Nat) → σ → Option α × σ
  | 0, _, s => (none, s)
  | retries + 1, delay, s =>
    match fn s with
    | (some result, s) => (some result, s)
    | (none, s) => retryCall sleep fn retries (min (delay * 2) 30) (sleep delay s)

inductive Variety where
  | normal
  | stoploss
  deriving DecidableEq

inductive TransactionType where
  | buy
  | sell
  deriving DecidableEq

inductive OrderType where
  | market
  | stoplossLimit
  deriving DecidableEq

structure OrderParams where
  variety : Variety
  tradingsymbol : String
  symboltoken : String
  transactiontype : TransactionType
  exchange : String := "NFO"
  ordertype : OrderType
  producttype : String := "INTRADAY"
  duration : String := "DAY"
  price : ℤ
  triggerprice : Option ℤ := none
  squareoff : Option ℤ := none
  stoploss : Option ℤ := none
  quantity : Nat
  deriving DecidableEq

/-- What happens to one call of `placeOrder`. A response that is lost raises or is `None`, and so
does a rejection. -/
inductive Outcome where
  | accepted (orderid : String)
  | acceptedResponseLost (raises : Bool)
  | rejected (raises : Bool)

structure Broker where
  calls : Nat := 0
  accepted : List OrderParams := []
  slept : Nat := 0
  deriving DecidableEq

namespace Broker

def sleep (seconds : Nat) (b : Broker) : Broker := { b with slept := b.slept + seconds }

variable (outcome : Nat → Outcome)

def placeOrder (params : OrderParams) (b : Broker) : Option String × Broker :=
  let called := { b with calls := b.calls + 1 }
  match outcome b.calls with
  | .accepted orderid => (some orderid, { called with accepted := b.accepted ++ [params] })
  | .acceptedResponseLost _ => (none, { called with accepted := b.accepted ++ [params] })
  | .rejected _ => (none, called)

def marketParams (symbol token : String) (qty : Nat) (ordertype : TransactionType) : OrderParams where
  variety := .normal
  tradingsymbol := symbol
  symboltoken := token
  transactiontype := ordertype
  ordertype := .market
  price := 0
  squareoff := some 0
  stoploss := some 0
  quantity := qty

def placeMarketOrder (symbol token : String) (qty : Nat) (ordertype : TransactionType) (b : Broker) :
    Option String × Broker :=
  retryCall sleep (placeOrder outcome (marketParams symbol token qty ordertype)) 5 1 b

def stoplossParams (symbol token : String) (qty : Nat) (stoploss : ℚ) : OrderParams where
  variety := .stoploss
  tradingsymbol := symbol
  symboltoken := token
  transactiontype := .buy
  ordertype := .stoplossLimit
  price := roundHalfEven stoploss + 2
  triggerprice := some (roundHalfEven stoploss)
  quantity := qty

def placeStoplossOrder (symbol token : String) (qty : Nat) (stoploss : ℚ) (b : Broker) :
    Option String × Broker :=
  retryCall sleep (placeOrder outcome (stoplossParams symbol token qty stoploss)) 5 1 b

end Broker

/-- The rows of `getCandleData` for a call, `none` if it raises. An empty answer raises too, and the
last row is dropped. -/
def candleAttempt (answer : Nat → Option (List RawCandle)) (calls : Nat) :
    Option (List RawCandle) × Nat :=
  match answer calls with
  | none | some [] => (none, calls + 1)
  | some rows => (some rows.dropLast, calls + 1)

def getOptionOhlc (answer : Nat → Option (List RawCandle)) : Option (List RawCandle) :=
  (retryCall (fun _ calls => calls) (candleAttempt answer) 5 3 0).1

/-- The candles that `add_previous_data` stores; `none` leaves the stored ones alone. -/
def addPreviousData (answer : Nat → Option (List RawCandle)) : Option (List Candle) :=
  convert2min (getOptionOhlc answer)

end AlgoSystem.VwapHedge
