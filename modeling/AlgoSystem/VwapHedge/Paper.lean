import AlgoSystem.General.Dict
import AlgoSystem.VwapHedge.Orders

/-!
`trading/algos/Vwap_Algo_Nifty_hedge/paper.py` with its callers in `rest_func.py` and `manager.py`
in a dry run. A section under the lock is one step, and so is each read of a price and write of
`config.slhit` outside it.
-/

namespace AlgoSystem.VwapHedge
open General

structure Fill where
  symbol : String
  token : String
  side : TransactionType
  qty : Nat
  price : ℚ

inductive SlStatus where
  | isOpen
  | cancelled
  | complete
  deriving DecidableEq

structure SlOrder where
  symbol : String
  token : String
  qty : Nat
  trigger : ℚ
  status : SlStatus := .isOpen

structure Ledger where
  fills : List Fill := []
  slOrders : Dict String SlOrder := Dict.empty

def SlOrder.cancelIfOpen (sl : SlOrder) : SlOrder :=
  if sl.status = .isOpen then { sl with status := .cancelled } else sl

namespace Ledger

def recordFill (ledger : Ledger) (fill : Fill) : Ledger :=
  { ledger with fills := ledger.fills ++ [fill] }

def cancelSymbol (ledger : Ledger) (symbol : String) : Ledger :=
  { ledger with
    slOrders := ledger.slOrders.mapValues fun sl =>
      if sl.symbol = symbol then sl.cancelIfOpen else sl }

def stoplossOrder (ledger : Ledger) (orderid symbol token : String) (qty : Nat) (trigger : ℚ) : Ledger :=
  { ledger with slOrders := ledger.slOrders.set orderid { symbol, token, qty, trigger } }

def cancelStoploss (ledger : Ledger) (orderid : String) : Ledger :=
  match ledger.slOrders.get? orderid with
  | some sl => { ledger with slOrders := ledger.slOrders.set orderid sl.cancelIfOpen }
  | none => ledger

/-- `cancel_stoploss_order` of a dry run returns the same status whatever it finds. -/
def cancelStoplossOrder (ledger : Ledger) (orderid : String) : Ledger × SlStatus :=
  (ledger.cancelStoploss orderid, .cancelled)

def readStoploss (ledger : Ledger) (orderid : String) : SlStatus ⊕ SlOrder :=
  match ledger.slOrders.get? orderid with
  | none => .inl .cancelled
  | some sl => if sl.status = .isOpen then .inr sl else .inl sl.status

def completeStoploss (ledger : Ledger) (orderid : String) : SlStatus ⊕ Ledger :=
  match ledger.readStoploss orderid with
  | .inl status => .inl status
  | .inr sl =>
    .inr { ledger with slOrders := ledger.slOrders.set orderid { sl with status := .complete } }

def quantity (symbol : String) (side : TransactionType) : List Fill → Nat
  | [] => 0
  | fill :: fills =>
    (if fill.symbol = symbol ∧ fill.side = side then fill.qty else 0) + quantity symbol side fills

def bought (ledger : Ledger) (symbol : String) : Nat := quantity symbol .buy ledger.fills

def sold (ledger : Ledger) (symbol : String) : Nat := quantity symbol .sell ledger.fills

end Ledger

inductive Tracking where
  | checking
  | pricing (sl : SlOrder)
  | reached (sl : SlOrder) (price : ℚ)
  | completed (sl : SlOrder) (price : ℚ)
  | answered (status : SlStatus)
  | ended

inductive Buying where
  | squaringOff (orderid : Option String) (qty : Nat)
  | ordering (qty : Nat)
  | priced (qty : Nat) (price : ℚ)
  | recorded
  | ended

structure Short where
  symbol : String
  token : String
  orderid : String

structure Desk where
  ledger : Ledger := {}
  slHit : Bool := false
  tracking : Tracking := .checking
  buyers : List Buying := []
  slFill : Option Fill := none  -- the fill of the stop-loss, not kept by the source

inductive DeskEvent where
  | track (price : Option ℚ)
  | squareOff (orderid : Option String) (qty : Nat)
  | marketBuy (qty : Nat)
  | buy (buyer : Nat) (price : Option ℚ)

namespace Desk

def track (short : Short) (s : Desk) (price : Option ℚ) : Option Desk :=
  match s.tracking with
  | .checking =>
    match s.ledger.readStoploss short.orderid with
    | .inl status => some { s with tracking := .answered status }
    | .inr sl => some { s with tracking := .pricing sl }
  | .pricing sl =>
    match price with
    | none => some { s with tracking := .answered .isOpen }
    | some price =>
      if price < sl.trigger then some { s with tracking := .answered .isOpen }
      else some { s with tracking := .reached sl price }
  | .reached sl price =>
    -- The order may have been cancelled since it was read.
    match s.ledger.completeStoploss short.orderid with
    | .inl status => some { s with tracking := .answered status }
    | .inr ledger => some { s with ledger, tracking := .completed sl price }
  | .completed sl price =>
    -- The fill is recorded in a lock section of its own.
    let fill : Fill := ⟨sl.symbol, sl.token, .buy, sl.qty, price⟩
    some { s with
      ledger := s.ledger.recordFill fill
      tracking := .answered .complete
      slFill := some fill }
  | .answered status => some { s with
      slHit := s.slHit || status = .complete
      tracking := if status = .isOpen then .checking else .ended }
  | .ended => none

def buy (short : Short) (ledger : Ledger) (price : Option ℚ) : Buying → Option (Ledger × Buying)
  | .squaringOff none qty => some (ledger, .ordering qty)
  | .squaringOff (some orderid) qty =>
    match ledger.cancelStoplossOrder orderid with
    | (ledger, status) => some (ledger, if status = .complete then .ended else .ordering qty)
  | .ordering qty =>
    match price with
    | none => some (ledger, .ended)
    | some price => some (ledger, .priced qty price)
  | .priced qty price =>
    some (ledger.recordFill ⟨short.symbol, short.token, .buy, qty, price⟩, .recorded)
  | .recorded => some (ledger.cancelSymbol short.symbol, .ended)
  | .ended => none

def step (short : Short) (s : Desk) : DeskEvent → Option Desk
  | .track price => s.track short price
  | .squareOff orderid qty => some { s with buyers := s.buyers ++ [.squaringOff orderid qty] }
  | .marketBuy qty => some { s with buyers := s.buyers ++ [.ordering qty] }
  | .buy i price =>
    s.buyers[i]?.bind fun here =>
      (buy short s.ledger price here).map fun next =>
        { s with ledger := next.1, buyers := s.buyers.set i next.2 }

end Desk

end AlgoSystem.VwapHedge
