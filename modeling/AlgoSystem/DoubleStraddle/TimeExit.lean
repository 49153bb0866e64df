import AlgoSystem.DoubleStraddle.System
import Mathlib.Algebra.Order.Ring.Rat

/-!
`time_exit_straddle` of `strategy/straddle.py` with the order book of `broker/orders.py`, in live
mode. The call closes both legs of a session and then cancels what is pending on their tokens.
Between its steps the broker fills orders, and other threads refresh the book, send and cancel
orders and write the legs' records.
-/

namespace AlgoSystem.DoubleStraddle

def orderbookTtl : ℚ := 3 / 2

inductive Status where
  | opened  -- "open"
  | pending
  | triggerPending
  | modified
  | complete
  | cancelled
  | rejected
  | other
  deriving DecidableEq

def Status.pendingText : Status → Bool
  | .opened | .pending | .triggerPending | .modified => true
  | _ => false

def Status.dead : Status → Bool
  | .cancelled | .rejected => true
  | _ => false

def Status.ended (status : Status) : Bool := status = .complete || status.dead

inductive Variety where
  | normal
  | stoploss
  | amo
  deriving DecidableEq

def Variety.cancelled : Variety → Variety
  | .amo => .normal
  | variety => variety

structure BookRow where
  orderid : Nat
  symboltoken : Nat
  status : Status
  variety : Variety := .normal
  deriving DecidableEq

def setStatus (rows : List BookRow) (chosen : BookRow → Bool) (status : Status) : List BookRow :=
  rows.map fun row => if chosen row && !row.status.ended then { row with status } else row

inductive SquareOffPc where
  | begin
  | leg (opt : Opt)
  | close (opt : Opt) (phase : Close)
  | refresh
  | sweep (rows : List BookRow)
  | returned
  deriving DecidableEq

def SquareOffPc.afterLeg : Opt → SquareOffPc
  | .ce => .leg .pe
  | .pe => .refresh

inductive Recorded where
  | stopLossFilled (opt : Opt) (oid : Nat)
  | boughtBack (opt : Opt)
  deriving DecidableEq

/-- `orderbook` and `lastOrderbook` are the cache; `buys`, `recorded` and `cancels` the buy-backs
that the call placed, the legs it recorded and the orders its sweep asked to cancel. -/
structure SquareOff where
  session : Option SessionRecord
  ceTok : Nat
  peTok : Nat
  emergency : Bool := false
  broker : List BookRow
  orderbook : Option (List BookRow)
  lastOrderbook : ℚ
  clock : ℚ
  pc : SquareOffPc := .begin
  buys : List (Opt × Nat) := []
  recorded : List Recorded := []
  cancels : List Nat := []
  deriving DecidableEq

/-- What the broker answers to one step: whether `orderBook()` and a cancel get through, and the
number and first status of an order, `none` if it is refused. -/
structure BookAnswer where
  fetched : Bool := true
  cancelled : Bool := true
  placed : Option (Nat × Status) := none

namespace SquareOff

def leg (s : SquareOff) (opt : Opt) : LegRecord := (s.session.map fun session => session.leg opt).getD {}

def setLeg (s : SquareOff) (opt : Opt) (leg : LegRecord) : SquareOff :=
  { s with session := s.session.map fun session => session.setLeg opt leg }

def tok (s : SquareOff) : Opt → Nat
  | .ce => s.ceTok
  | .pe => s.peTok

def reason (s : SquareOff) : Reason := if s.emergency then .emergencyExit else .timeExit

def cacheFresh (s : SquareOff) : Bool :=
  s.orderbook.isSome && decide (s.clock - s.lastOrderbook < orderbookTtl)

def refreshOrderbook (s : SquareOff) (force fetched : Bool) : SquareOff :=
  if !force && s.cacheFresh then s
  else { s with
    orderbook := some (if fetched then s.broker else [])
    lastOrderbook := s.clock }

def orderStatus (s : SquareOff) (oid : Nat) : Option Status :=
  ((s.orderbook.getD []).find? fun row => row.orderid = oid).map BookRow.status

def cancel (s : SquareOff) (oid : Nat) (variety : Variety) (accepted : Bool) : SquareOff :=
  { s with
    broker := setStatus s.broker
      (fun row => accepted && row.orderid = oid && row.variety.cancelled = variety.cancelled)
      .cancelled }

def endClose (s : SquareOff) (opt : Opt) : SquareOff := { s with pc := SquareOffPc.afterLeg opt }

def recordStopLoss (s : SquareOff) (opt : Opt) (oid : Nat) : SquareOff :=
  { s.setLeg opt ((s.leg opt).recordExit .brokerStopLoss) with
    recorded := s.recorded ++ [Recorded.stopLossFilled opt oid] }.endClose opt

/-- `_close_leg_locked`, phase by phase; the BUY is a market order in an emergency, else a limit
order. -/
def closeAdvance (s : SquareOff) (a : BookAnswer) (opt : Opt) : Close → SquareOff
  | .start reason =>
    if (s.leg opt).done then s.endClose opt
    else match (s.leg opt).slOid with
      | none => { s with pc := .close opt (.buying reason) }
      | some oid =>
        let s := s.refreshOrderbook true a.fetched
        match s.orderStatus oid with
        | some .complete => s.recordStopLoss opt oid
        | some .cancelled | some .rejected => { s with pc := .close opt (.buying reason) }
        | _ => { s with pc := .close opt (.cancelling reason oid) }
  | .cancelling reason oid =>
    { s.cancel oid .stoploss a.cancelled with pc := .close opt (.confirming reason oid) }
  | .confirming reason oid =>
    let s := s.refreshOrderbook true a.fetched
    match s.orderStatus oid with
    | some .complete => s.recordStopLoss opt oid
    | some .cancelled | some .rejected => { s with pc := .close opt (.buying reason) }
    | _ =>
      if reason = .stopLoss ∨ reason = .target then s.endClose opt
      else { s with pc := .close opt (.buying reason) }
  | .buying reason =>
    let s := { s with pc := .close opt (.recording reason) }
    match a.placed with
    | none => s
    | some (oid, status) =>
      { s with
        broker := s.broker ++ [⟨oid, s.tok opt, status, .normal⟩]
        buys := s.buys ++ [(opt, oid)] }
  | .recording reason =>
    { s.setLeg opt ((s.leg opt).recordExit reason) with
      recorded := s.recorded ++ [Recorded.boughtBack opt] }.endClose opt

def wanted (s : SquareOff) (row : BookRow) : Bool :=
  (row.symboltoken = s.ceTok || row.symboltoken = s.peTok) && row.status.pendingText

def sweepRow (s : SquareOff) (row : BookRow) (accepted : Bool) : SquareOff :=
  if s.wanted row then
    { s.cancel row.orderid row.variety accepted with cancels := s.cancels ++ [row.orderid] }
  else s

def advance (s : SquareOff) (a : BookAnswer) : Option SquareOff :=
  match s.pc with
  | .begin => some { s with pc := if s.session.isSome then .leg .ce else .returned }
  | .leg opt =>
    some (if (s.leg opt).done then s.endClose opt
      else { s with pc := .close opt (.start s.reason) })
  | .close opt phase =>
    -- The broker's order numbers are new.
    if a.placed.all fun (oid, _) => s.broker.all fun row => row.orderid ≠ oid then
      some (s.closeAdvance a opt phase)
    else none
  | .refresh =>
    let s := s.refreshOrderbook false a.fetched
    some { s with pc := .sweep (s.orderbook.getD []) }
  | .sweep [] => some { s with pc := .returned }
  | .sweep (row :: rows) => some { s.sweepRow row a.cancelled with pc := .sweep rows }
  | .returned => none

def holds (s : SquareOff) (opt : Opt) : Bool :=
  match s.pc with
  | .close o _ => o = opt
  | _ => false

end SquareOff

inductive SquareOffEvent where
  | advance (a : BookAnswer)
  | wait (seconds : ℚ)
  | refresh (force fetched : Bool)
  | update (oid : Nat) (status : Status)
  | order (row : BookRow)
  | legChanges (opt : Opt) (leg : LegRecord)

/-- The steps of the call, and what happens around it. A leg's `done` is only written under its
lock. -/
def squareOffStep (s : SquareOff) : SquareOffEvent → Option SquareOff
  | .advance a => s.advance a
  | .wait seconds => if 0 ≤ seconds then some { s with clock := s.clock + seconds } else none
  | .refresh force fetched => some (s.refreshOrderbook force fetched)
  | .update oid status =>
    some { s with broker := setStatus s.broker (fun row => row.orderid = oid) status }
  | .order row =>
    if s.broker.all fun old => old.orderid ≠ row.orderid then
      some { s with broker := s.broker ++ [row] }
    else none
  | .legChanges opt leg =>
    if s.holds opt && leg.done ≠ (s.leg opt).done then none else some (s.setLeg opt leg)

end AlgoSystem.DoubleStraddle
