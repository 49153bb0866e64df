import AlgoSystem.CombinedVwap.Manager

/-!
`execute_limit_order` of `trading/algos/CombinedVwapNifty/rest_func.py` outside DRY_RUN, with
`place_limit_order`, `cancel_order`, `order_info` and the thread of `saveorderbook`. One state has
the local variables of a call, the broker's orders of it and `config.orderbook`.
-/

namespace AlgoSystem.CombinedVwap
open General

def orderLimitOffset : ℚ := 1 / 2
def orderRepriceStep : ℚ := 1 / 2
def orderMaxReprice : Nat := 5
def minimumPrice : ℚ := 5 / 100
def placeRetries : Nat := 3

inductive Broker where
  | angel
  | shoonya

/-- The broker's id of an order: the orders of this call in their order, and all others. -/
inductive OrderId where
  | own (index : Nat)
  | foreign (id : Nat)
  deriving DecidableEq

inductive StatusText where
  | complete
  | rejected
  | cancelled
  | canceled
  | other
  deriving DecidableEq

/-- A row of the order book with the keys of both brokers; `none` is an absent key. -/
structure Row where
  orderid : Option OrderId := none
  norenordno : Option OrderId := none
  status : Option StatusText := none
  averageprice : Option ℚ := none
  avgprc : Option ℚ := none
  filledshares : Option Nat := none
  fillshares : Option Nat := none
  deriving DecidableEq

structure Info where
  avgPrice : ℚ := 0
  status : StatusText := .other
  filledQty : Nat := 0
  deriving DecidableEq

/-- Python's `a or b or 0`. -/
def firstNonzero {α : Type} [Zero α] [DecidableEq α] (a b : Option α) : α :=
  if a.getD 0 = 0 then b.getD 0 else a.getD 0

def Row.oid (row : Row) : Option OrderId := row.orderid.or row.norenordno

def Row.foreign (row : Row) : Bool :=
  match row.oid with
  | some (.own _) => false
  | _ => true

abbrev OtherRows := { rows : List Row // rows.all Row.foreign = true }

def Row.info (row : Row) : Info where
  avgPrice := firstNonzero row.averageprice row.avgprc
  status := match row.status.getD .other with
    | .canceled => .cancelled
    | status => status
  filledQty := firstNonzero row.filledshares row.fillshares

def orderInfo (orderid : OrderId) (orderbook : List Row) : Option Info :=
  (orderbook.find? fun row => row.oid = some orderid).map Row.info

inductive OrderStatus where
  | resting
  | complete
  | rejected
  | cancelled
  deriving DecidableEq

structure BrokerOrder where
  qty : Nat
  price : ℚ
  filled : Nat := 0
  notional : ℚ := 0
  status : OrderStatus := .resting
  filled_le : filled ≤ qty
  deriving DecidableEq

def OrderStatus.text : Broker → OrderStatus → StatusText
  | _, .resting => .other
  | _, .complete => .complete
  | _, .rejected => .rejected
  | .angel, .cancelled => .cancelled
  | .shoonya, .cancelled => .canceled

namespace BrokerOrder

def placed (qty : Nat) (price : ℚ) : BrokerOrder := { qty, price, filled_le := Nat.zero_le _ }

def row (broker : Broker) (orderid : OrderId) (o : BrokerOrder) : Row :=
  match broker with
  | .angel =>
    { orderid := some orderid
      status := some (o.status.text .angel)
      averageprice := some (o.notional / o.filled)
      filledshares := some o.filled }
  | .shoonya =>
    { norenordno := some orderid
      status := some (o.status.text .shoonya)
      avgprc := some (o.notional / o.filled)
      fillshares := some o.filled }

def fill (o : BrokerOrder) (qty : Nat) (price : ℚ) (fits : o.filled + qty ≤ o.qty) : BrokerOrder where
  qty := o.qty
  price := o.price
  filled := o.filled + qty
  notional := o.notional + qty * price
  status := if o.filled + qty = o.qty then .complete else .resting
  filled_le := fits

def close (o : BrokerOrder) (status : OrderStatus) : BrokerOrder :=
  if o.status = .resting then { o with status := status } else o

end BrokerOrder

namespace LimitOrder

structure Call where
  broker : Broker
  qty : Nat
  side : Side
  referencePrice : ℚ

structure Result where
  filledQty : Nat
  avgPrice : ℚ
  slippage : ℚ
  deriving DecidableEq

inductive Pc where
  | placing (tries : Nat)
  | polling (order : Nat) (info : Option Info)
  | cancelling (order : Nat)
  | returned (result : Result)
  deriving DecidableEq

structure State where
  orders : List BrokerOrder := []
  fetched : Option (List Row) := none
  orderbook : List Row
  attempt : Nat := 0
  remaining : Nat
  totalFilled : Nat := 0
  weightedPriceSum : ℚ := 0
  pc : Pc := .placing 0
  deriving DecidableEq

/-- `lost`: the broker takes the order, but the answer raises. -/
inductive PlaceOutcome where
  | accepted
  | lost
  | refused

inductive CancelOutcome where
  | accepted
  | rejected
  | raised

inductive Event where
  | place (outcome : PlaceOutcome)
  | poll
  | deadline
  | cancel (outcome : CancelOutcome)
  | fill (order qty : Nat) (price : ℚ)
  | brokerEnds (order : Nat) (status : OrderStatus)
  | fetch (others : OtherRows)
  | store
  | refreshFailed

def limitPrice (call : Call) (attempt : Nat) : ℚ :=
  match call.side with
  | .sell => max minimumPrice (call.referencePrice + orderLimitOffset - attempt * orderRepriceStep)
  | .buy => max minimumPrice (call.referencePrice - orderLimitOffset + attempt * orderRepriceStep)

def result (call : Call) (s : State) : Result :=
  let avgPrice :=
    if s.totalFilled = 0 then 0 else roundTo 2 (s.weightedPriceSum / s.totalFilled)
  { filledQty := s.totalFilled
    avgPrice
    slippage := if s.totalFilled = 0 then 0 else roundTo 2 (avgPrice - call.referencePrice) }

def loopHead (call : Call) (s : State) : State :=
  if orderMaxReprice < s.attempt ∨ s.remaining = 0 then { s with pc := .returned (result call s) }
  else { s with pc := .placing 0 }

def start (call : Call) (orderbook : OtherRows) : State :=
  loopHead call { orderbook := orderbook.val, remaining := call.qty }

def nextAttempt (call : Call) (s : State) : State :=
  loopHead call { s with attempt := s.attempt + 1 }

def retryPlace (call : Call) (s : State) (tries : Nat) : State :=
  if tries + 1 < placeRetries then { s with pc := .placing (tries + 1) } else nextAttempt call s

def submit (call : Call) (s : State) : State :=
  { s with orders := s.orders ++
      [BrokerOrder.placed s.remaining (roundTo 2 (limitPrice call s.attempt))] }

def count (call : Call) (s : State) (info : Info) : State :=
  if 0 < info.filledQty then
    let totalFilled := s.totalFilled + info.filledQty
    let price := if info.avgPrice = 0 then limitPrice call s.attempt else info.avgPrice
    { s with
      totalFilled
      weightedPriceSum := s.weightedPriceSum + info.filledQty * price
      remaining := call.qty - totalFilled }
  else s

def tally (call : Call) (s : State) (order : Nat) (info : Option Info) : State :=
  let info := info.getD {}
  let s := count call s info
  if info.status = .complete ∨ s.remaining = 0 then { s with pc := .returned (result call s) }
  else { s with pc := .cancelling order }

def final (status : StatusText) : Bool :=
  status = .complete || status = .rejected || status = .cancelled

def poll (call : Call) (s : State) (order : Nat) : State :=
  match orderInfo (.own order) s.orderbook with
  | none => { s with pc := .polling order none }
  | some info =>
    if final info.status then tally call s order (some info)
    else { s with pc := .polling order (some info) }

def rows (call : Call) (s : State) : List Row :=
  s.orders.mapIdx fun index o => o.row call.broker (.own index)

def step (call : Call) (s : State) : Event → Option State
  | .place outcome =>
    match s.pc with
    | .placing tries =>
      match outcome with
      | .accepted => some { submit call s with pc := .polling s.orders.length none }
      | .lost => some (retryPlace call (submit call s) tries)
      | .refused => some (retryPlace call s tries)
    | _ => none
  | .poll =>
    match s.pc with
    | .polling order _ => some (poll call s order)
    | _ => none
  | .deadline =>
    match s.pc with
    | .polling order info => some (tally call s order info)
    | _ => none
  | .cancel outcome =>
    match s.pc with
    | .cancelling order =>
      -- The outcome is not read; only what the broker did matters.
      let orders := match outcome with
        | .accepted => s.orders.modify order fun o => o.close .cancelled
        | _ => s.orders
      some (nextAttempt call { s with orders })
    | _ => none
  | .fill order qty price =>
    match s.orders[order]? with
    | some o =>
      if fits : o.filled + qty ≤ o.qty then
        if o.status = .resting ∧ 0 < qty then
          some { s with orders := s.orders.set order (o.fill qty price fits) }
        else none
      else none
    | none => none
  | .brokerEnds order status =>
    if status = .rejected ∨ status = .cancelled then
      some { s with orders := s.orders.modify order fun o => o.close status }
    else none
  | .fetch others =>
    some { s with fetched := some (others.val ++ rows call s) }
  | .store => s.fetched.map fun orderbook => { s with orderbook, fetched := none }
  | .refreshFailed => some { s with orderbook := [], fetched := none }

end LimitOrder

end AlgoSystem.CombinedVwap
