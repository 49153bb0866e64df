import Mathlib.Data.Rat.Defs

/-!
`_place_leg_sl`, `_sl_filled`, `_cancel_leg_sl` and `_close_leg_locked` of
`trading/algos/DoubleStraddelAlgo/strategy/straddle.py` in live mode, on a leg's entry in the state
and its orders.
-/

namespace AlgoSystem.DoubleStraddle

def slPoints : ℚ := 25
def targetPoints : ℚ := 50

inductive Opt where
  | ce
  | pe
  deriving DecidableEq

inductive Reason where
  | stopLoss
  | target
  | brokerStopLoss
  | timeExit
  | emergencyExit
  deriving DecidableEq

structure LegRecord where
  entry : Option ℚ := none
  slOid : Option Nat := none
  done : Bool := false
  exitReason : Option Reason := none
  deriving DecidableEq

def LegRecord.recordExit (leg : LegRecord) (reason : Reason) : LegRecord :=
  { leg with exitReason := some reason, done := true }

def LegRecord.wantsStopLoss (leg : LegRecord) : Bool :=
  !leg.done && leg.slOid.isNone && leg.entry.isSome

def LegRecord.trigger (leg : LegRecord) (ltp : ℚ) : Option Reason :=
  leg.entry.bind fun entry =>
    if entry + slPoints ≤ ltp then some .stopLoss
    else if ltp ≤ entry - targetPoints then some .target
    else none

inductive OrderStatus where
  | live
  | complete
  | cancelled
  | rejected
  deriving DecidableEq

/-- The broker's orders of one leg: its stop-losses, numbered from 0, and the buy-backs. -/
structure LegOrders where
  stopLosses : List OrderStatus := []
  buysSubmitted : Nat := 0
  buysAccepted : Nat := 0
  deriving DecidableEq

namespace LegOrders

def freshStatus (orders : LegOrders) (oid : Nat) : Option OrderStatus := orders.stopLosses[oid]?

def placeStopLoss (orders : LegOrders) : LegOrders :=
  { orders with stopLosses := orders.stopLosses ++ [.live] }

def endStopLoss (orders : LegOrders) (oid : Nat) (status : OrderStatus) : LegOrders :=
  { orders with
    stopLosses := orders.stopLosses.modify oid fun old => if old = .live then status else old }

def cancelStopLoss (orders : LegOrders) (oid : Nat) : LegOrders := orders.endStopLoss oid .cancelled

def buy (orders : LegOrders) (accepted : Bool) : LegOrders :=
  { orders with
    buysSubmitted := orders.buysSubmitted + 1
    buysAccepted := orders.buysAccepted + if accepted then 1 else 0 }

def boughtBack (orders : LegOrders) : Nat :=
  orders.buysAccepted + orders.stopLosses.count .complete

end LegOrders

inductive Close where
  | start (reason : Reason)
  | cancelling (reason : Reason) (oid : Nat)
  | confirming (reason : Reason) (oid : Nat)
  | buying (reason : Reason)
  | recording (reason : Reason)
  deriving DecidableEq

structure Closing where
  leg : LegRecord
  orders : LegOrders
  next : Option Close

def closeStep (leg : LegRecord) (orders : LegOrders) (accepted : Bool) : Close → Closing
  | .start reason =>
    if leg.done then ⟨leg, orders, none⟩
    else match leg.slOid with
      | none => ⟨leg, orders, some (.buying reason)⟩
      | some oid =>
        match orders.freshStatus oid with
        | some .complete => ⟨leg.recordExit .brokerStopLoss, orders, none⟩
        | some .cancelled | some .rejected => ⟨leg, orders, some (.buying reason)⟩
        | some .live | none => ⟨leg, orders, some (.cancelling reason oid)⟩
  | .cancelling reason oid => ⟨leg, orders.cancelStopLoss oid, some (.confirming reason oid)⟩
  | .confirming reason oid =>
    match orders.freshStatus oid with
    | some .complete => ⟨leg.recordExit .brokerStopLoss, orders, none⟩
    | some .cancelled | some .rejected => ⟨leg, orders, some (.buying reason)⟩
    | some .live | none =>
      -- Not confirmed: the monitor leaves the leg open, the other exits go ahead.
      if reason = .stopLoss ∨ reason = .target then ⟨leg, orders, none⟩
      else ⟨leg, orders, some (.buying reason)⟩
  | .buying reason => ⟨leg, orders.buy accepted, some (.recording reason)⟩
  | .recording reason => ⟨leg.recordExit reason, orders, none⟩

def checkStopLoss (leg : LegRecord) (orders : LegOrders) : LegRecord :=
  if leg.done then leg
  else if leg.slOid.bind orders.freshStatus = some .complete then leg.recordExit .brokerStopLoss
  else leg

inductive Actor where
  | engine
  | monitor
  | guard
  deriving DecidableEq

/-- A stop-loss on its way: sent, and accepted but not yet in the leg's record. -/
inductive Placing where
  | sent
  | accepted (oid : Nat)
  deriving DecidableEq

inductive EngineStage where
  | entering
  | placing (placing : Placing)
  | placed
  | entered
  deriving DecidableEq

inductive MonitorStage where
  | unborn
  | starting
  | placing (placing : Placing)
  | watching
  | ended
  deriving DecidableEq

structure LegState where
  leg : LegRecord
  orders : LegOrders := {}
  engine : EngineStage := .entering
  monitor : MonitorStage := .unborn
  lock : Option (Actor × Close) := none
  killSwitch : Bool := false
  deriving DecidableEq

inductive LegEvent where
  | placeBegin (actor : Actor)
  | placeAnswer (actor : Actor) (accepted : Bool)
  | placeStore (actor : Actor)
  | startMonitor
  | entryFound (price : ℚ)
  | monitorCheck
  | monitorTick (ltp : ℚ)
  | monitorEnds
  | timeExit
  | kill
  | emergencyExit
  | advance (accepted : Bool)
  | stopLossEnds (oid : Nat) (status : OrderStatus)

namespace LegState

def recorded (entry : Option ℚ) : LegState := { leg := { entry } }

def placeBegin (s : LegState) : Actor → Option LegState
  | .engine =>
    if s.engine = .entering then
      some { s with engine := if s.leg.wantsStopLoss then .placing .sent else .placed }
    else none
  | .monitor =>
    if s.monitor = .starting ∧ s.leg.entry.isSome then
      some { s with monitor := if s.leg.wantsStopLoss then .placing .sent else .watching }
    else none
  | .guard => none

def placeAnswer (s : LegState) (accepted : Bool) : Actor → Option LegState
  | .engine =>
    if s.engine = .placing .sent then
      if accepted then
        some { s with
          orders := s.orders.placeStopLoss
          engine := .placing (.accepted s.orders.stopLosses.length) }
      else some { s with engine := .placed }
    else none
  | .monitor =>
    if s.monitor = .placing .sent then
      if accepted then
        some { s with
          orders := s.orders.placeStopLoss
          monitor := .placing (.accepted s.orders.stopLosses.length) }
      else some { s with monitor := .watching }
    else none
  | .guard => none

def placeStore (s : LegState) : Actor → Option LegState
  | .engine =>
    match s.engine with
    | .placing (.accepted oid) =>
      some { s with leg := { s.leg with slOid := some oid }, engine := .placed }
    | _ => none
  | .monitor =>
    match s.monitor with
    | .placing (.accepted oid) =>
      some { s with leg := { s.leg with slOid := some oid }, monitor := .watching }
    | _ => none
  | .guard => none

def acquire (s : LegState) (actor : Actor) (reason : Reason) : Option LegState :=
  if s.lock = none then some { s with lock := some (actor, .start reason) } else none

def advance (s : LegState) (accepted : Bool) : Option LegState :=
  s.lock.map fun (actor, phase) =>
    let closing := closeStep s.leg s.orders accepted phase
    { s with
      leg := closing.leg
      orders := closing.orders
      lock := closing.next.map fun next => (actor, next) }

end LegState

def legStep (s : LegState) : LegEvent → Option LegState
  | .placeBegin actor => s.placeBegin actor
  | .placeAnswer actor accepted => s.placeAnswer accepted actor
  | .placeStore actor => s.placeStore actor
  | .startMonitor =>
    if s.engine = .placed then some { s with engine := .entered, monitor := .starting } else none
  | .entryFound price =>
    if s.monitor = .starting ∧ s.leg.entry = none then
      some { s with leg := { s.leg with entry := some price } }
    else none
  | .monitorCheck =>
    if s.monitor = .watching ∧ s.lock = none then
      some { s with leg := checkStopLoss s.leg s.orders }
    else none
  | .monitorTick ltp =>
    if s.monitor = .watching then
      (s.leg.trigger ltp).bind fun reason => s.acquire .monitor reason
    else none
  | .monitorEnds =>
    if (s.monitor = .starting ∨ s.monitor = .watching) ∧ s.lock.map Prod.fst ≠ some .monitor ∧
        (s.leg.done ∨ s.killSwitch) then
      some { s with monitor := .ended }
    else none
  | .timeExit => if s.engine = .entered then s.acquire .engine .timeExit else none
  | .kill => some { s with killSwitch := true }
  | .emergencyExit => if s.killSwitch then s.acquire .guard .emergencyExit else none
  | .advance accepted => s.advance accepted
  | .stopLossEnds oid status => some { s with orders := s.orders.endStopLoss oid status }

end AlgoSystem.DoubleStraddle
