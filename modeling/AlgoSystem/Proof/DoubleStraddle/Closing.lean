import AlgoSystem.Proof.DoubleStraddle.Sweep
import AlgoSystem.Proof.DoubleStraddle.World
import Mathlib.Logic.Function.Iterate

namespace AlgoSystem.Proof.DoubleStraddle
open AlgoSystem.DoubleStraddle List

variable {session : SessionRecord} {reason : Reason}

def settled : Status → OrderStatus
  | .complete => .complete
  | .cancelled => .cancelled
  | .rejected => .rejected
  | _ => .live

def statusRead (leg : LegRecord) : Close → Option Nat
  | .start _ => leg.slOid
  | .confirming _ oid => some oid
  | _ => none

theorem leg_setLeg_entered {s : SquareOff} (entered : s.session = some session) (opt : Opt)
    (leg : LegRecord) : (s.setLeg opt leg).leg opt = leg := by
  simp [SquareOff.leg, SquareOff.setLeg, entered]

theorem closeAdvance_closeStep {s : SquareOff} (entered : s.session = some session)
    (a : BookAnswer) (opt : Opt) (phase : Close) (orders : LegOrders)
    (shown : ∀ oid, statusRead (s.leg opt) phase = some oid →
      ((s.refreshOrderbook true a.fetched).orderStatus oid).map settled = orders.freshStatus oid) :
    (s.closeAdvance a opt phase).leg opt =
        (closeStep (s.leg opt) orders a.placed.isSome phase).leg ∧
      (s.closeAdvance a opt phase).pc =
        (closeStep (s.leg opt) orders a.placed.isSome phase).next.elim (SquareOffPc.afterLeg opt)
          (SquareOffPc.close opt) := by
  obtain ⟨book, time, same⟩ := refreshOrderbook_eq s true a.fetched
  have unchanged : (s.refreshOrderbook true a.fetched).leg opt = s.leg opt := by
    rw [same]
    rfl
  have filled (oid : Nat) : ((s.refreshOrderbook true a.fetched).recordStopLoss opt oid).leg opt =
      (s.leg opt).recordExit .brokerStopLoss := by
    rw [same]
    exact leg_setLeg_entered entered opt _
  cases phase with
  | start reason =>
    simp only [SquareOff.closeAdvance, closeStep]
    split
    · exact ⟨rfl, rfl⟩
    · cases known : (s.leg opt).slOid with
      | none => exact ⟨rfl, rfl⟩
      | some oid =>
        dsimp only
        rw [← shown oid known]
        cases (s.refreshOrderbook true a.fetched).orderStatus oid with
        | none => exact ⟨unchanged, rfl⟩
        | some status => cases status <;> first | exact ⟨unchanged, rfl⟩ | exact ⟨filled oid, rfl⟩
  | cancelling reason oid => exact ⟨rfl, rfl⟩
  | confirming reason oid =>
    simp only [SquareOff.closeAdvance, closeStep]
    rw [← shown oid rfl]
    by_cases leaves : reason = .stopLoss ∨ reason = .target
    all_goals
      simp only [leaves, if_true, if_false]
      cases (s.refreshOrderbook true a.fetched).orderStatus oid with
      | none => exact ⟨unchanged, rfl⟩
      | some status => cases status <;> first | exact ⟨unchanged, rfl⟩ | exact ⟨filled oid, rfl⟩
  | buying reason =>
    simp only [SquareOff.closeAdvance, closeStep]
    cases a.placed <;> exact ⟨rfl, rfl⟩
  | recording reason => exact ⟨leg_setLeg_entered entered opt _, rfl⟩

def closeNext (accepted : Bool) (closing : Closing) : Closing :=
  match closing.next with
  | none => closing
  | some phase => closeStep closing.leg closing.orders accepted phase

theorem freshStatus_cancelStopLoss (orders : LegOrders) (oid : Nat) :
    (orders.cancelStopLoss oid).freshStatus oid =
      (orders.freshStatus oid).map fun old => if old = .live then .cancelled else old := by
  simp [LegOrders.freshStatus, LegOrders.cancelStopLoss, LegOrders.endStopLoss]

theorem cancelStopLoss_buysSubmitted (orders : LegOrders) (oid : Nat) :
    (orders.cancelStopLoss oid).buysSubmitted = orders.buysSubmitted := rfl

def stopLossFilled (leg : LegRecord) (orders : LegOrders) : Bool :=
  leg.slOid.bind orders.freshStatus = some .complete

theorem closeNext_five (leg : LegRecord) (orders : LegOrders) (accepted : Bool)
    (exits : ¬ (reason = .stopLoss ∨ reason = .target)) :
    let closing := (closeNext accepted)^[5] ⟨leg, orders, some (.start reason)⟩
    (closing.leg, closing.orders.buysSubmitted, closing.next) =
      if leg.done then (leg, orders.buysSubmitted, none)
      else if stopLossFilled leg orders then
        (leg.recordExit .brokerStopLoss, orders.buysSubmitted, none)
      else (leg.recordExit reason, orders.buysSubmitted + 1, none) := by
  cases done : leg.done with
  | true => simp [closeNext, closeStep, done]
  | false =>
    cases known : leg.slOid with
    | none => simp [closeNext, closeStep, done, known, stopLossFilled, LegOrders.buy]
    | some oid =>
      have after := freshStatus_cancelStopLoss orders oid
      cases status : orders.freshStatus oid with
      | none =>
        rw [status] at after
        simp [closeNext, closeStep, done, known, status, stopLossFilled, after, exits,
          LegOrders.buy, cancelStopLoss_buysSubmitted]
      | some found =>
        rw [status] at after
        cases found <;> simp [closeNext, closeStep, done, known, status, stopLossFilled, after,
          LegOrders.buy, cancelStopLoss_buysSubmitted]

def buyBacksSent (log : List OrderLog) (s : Session) (opt : Opt) : Nat :=
  log.countP fun order => order = .buyBack s opt true || order = .buyBack s opt false

theorem closeLeg_closeNext {w : World} {s : Session} {opt : Opt} {a : Answer}
    (here : w.memory.session s = some session) (exits : ¬ (reason = .stopLoss ∨ reason = .target))
    (orders : LegOrders) (told : a.stopLossFilled = stopLossFilled (session.leg opt) orders) :
    let closing := (closeNext a.accepted)^[5] ⟨session.leg opt, orders, some (.start reason)⟩
    ((w.closeLeg s opt reason a).memory.session s).map (fun session => session.leg opt) =
        some closing.leg ∧
      buyBacksSent (w.closeLeg s opt reason a).log s opt + orders.buysSubmitted =
        buyBacksSent w.log s opt + closing.orders.buysSubmitted := by
  intro closing
  have phases : (closing.leg, closing.orders.buysSubmitted, closing.next) = _ :=
    closeNext_five (session.leg opt) orders a.accepted exits
  clear_value closing
  unfold World.closeLeg
  rw [here]
  dsimp only
  split
  · rename_i done
    rw [if_pos done, Prod.mk.injEq, Prod.mk.injEq] at phases
    obtain ⟨leg, sent, -⟩ := phases
    simp [leg, sent, here]
  · rename_i opened
    have known : stopLossFilled (session.leg opt) orders = true →
        (session.leg opt).slOid.isSome = true := by
      unfold stopLossFilled
      cases (session.leg opt).slOid <;> simp
    rw [if_neg opened] at phases
    cases filled : stopLossFilled (session.leg opt) orders with
    | true =>
      rw [filled, if_pos rfl, Prod.mk.injEq, Prod.mk.injEq] at phases
      obtain ⟨leg, sent, -⟩ := phases
      rw [told, filled, known filled]
      simp [leg, sent, World.setLeg, World.submit, buyBacksSent, countP_append]
    | false =>
      rw [filled, if_neg Bool.false_ne_true, Prod.mk.injEq, Prod.mk.injEq] at phases
      obtain ⟨leg, sent, -⟩ := phases
      rw [told, filled, Bool.and_false, if_neg Bool.false_ne_true]
      cases a.accepted <;>
        simp [leg, sent, World.setLeg, World.submit, buyBacksSent, countP_append] <;> omega

end AlgoSystem.Proof.DoubleStraddle
