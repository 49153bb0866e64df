import AlgoSystem.DoubleStraddle.Leg
import AlgoSystem.General.Runs

namespace AlgoSystem.Proof.DoubleStraddle
open AlgoSystem.DoubleStraddle General List

variable {slOid : Option Nat} {placing : Option Placing} {accepted : Bool} {status : OrderStatus}

def placingNow (s : LegState) : Option Placing :=
  match s.engine, s.monitor with
  | .placing p, _ => some p
  | _, .placing p => some p
  | _, _ => none

def closeUnderway (s : LegState) : Bool :=
  match s.lock with
  | some (_, .start _) | none => false
  | _ => true

def closeStarts (s : LegState) : Bool :=
  match s.lock with
  | some (_, .start _) => true
  | _ => false

/-- No placement begins during a close, and no close begins during a placement. -/
def Apart (s : LegState) : LegEvent → Prop
  | .placeBegin _ => closeUnderway s = false
  | .advance _ => closeStarts s = true → placingNow s = none
  | _ => True

instance (s : LegState) (e : LegEvent) : Decidable (Apart s e) := by
  cases e <;> unfold Apart <;> infer_instance

structure ClosedOnce (s : LegState) : Prop where
  submitted : s.orders.buysSubmitted ≤ 1
  boughtBack : s.orders.boughtBack ≤ 1
  stopLosses : s.leg.done = true → .live ∉ s.orders.stopLosses

def NoBuys (orders : LegOrders) : Prop := orders.buysSubmitted = 0 ∧ orders.buysAccepted = 0

def AllDead (orders : LegOrders) : Prop := .live ∉ orders.stopLosses ∧ .complete ∉ orders.stopLosses

def Settled (orders : LegOrders) : Prop :=
  (NoBuys orders ∧ orders.stopLosses = [.complete]) ∨
    (AllDead orders ∧ orders.buysSubmitted = 1 ∧ orders.buysAccepted ≤ 1)

def PhaseInv (leg : LegRecord) (orders : LegOrders) : Option Close → Prop
  | none | some (.start _) => if leg.done then Settled orders else NoBuys orders
  | some (.cancelling _ oid) => leg.done = false ∧ NoBuys orders ∧ leg.slOid = some oid
  | some (.confirming _ oid) => leg.done = false ∧ NoBuys orders ∧ leg.slOid = some oid ∧
      orders.freshStatus oid ≠ some .live
  | some (.buying _) => leg.done = false ∧ NoBuys orders ∧ AllDead orders
  | some (.recording _) => leg.done = false ∧ AllDead orders ∧ orders.buysSubmitted = 1 ∧
      orders.buysAccepted ≤ 1

def OidInv (slOid : Option Nat) (stopLosses : List OrderStatus) : Option Placing → Prop
  | none => (slOid = none ∧ stopLosses = []) ∨ (slOid = some 0 ∧ ∃ status, stopLosses = [status])
  | some .sent => slOid = none ∧ stopLosses = []
  | some (.accepted oid) => slOid = none ∧ oid = 0 ∧ ∃ status, stopLosses = [status]

structure LegInv (s : LegState) : Prop where
  spawn : s.engine ≠ .entered → s.monitor = .unborn
  oid : OidInv s.leg.slOid s.orders.stopLosses (placingNow s)
  phase : PhaseInv s.leg s.orders (s.lock.map Prod.snd)
  apart : placingNow s ≠ none → s.leg.done = false ∧ closeUnderway s = false

theorem recorded_legInv (entry : Option ℚ) : LegInv (.recorded entry) where
  spawn := fun _ => rfl
  oid := .inl ⟨rfl, rfl⟩
  phase := ⟨rfl, rfl⟩
  apart := fun placing => absurd rfl placing

theorem OidInv.length_le {stopLosses : List OrderStatus} (oid : OidInv slOid stopLosses placing) :
    stopLosses.length ≤ 1 := by
  match placing with
  | none => rcases oid with ⟨-, rfl⟩ | ⟨-, status, rfl⟩ <;> simp
  | some .sent => simp [oid.2]
  | some (.accepted _) =>
    obtain ⟨-, -, status, rfl⟩ := oid
    simp

variable {s : LegState}

theorem LegInv.closedOnce (inv : LegInv s) : ClosedOnce s := by
  have few : s.orders.stopLosses.count .complete ≤ 1 :=
    count_le_length.trans inv.oid.length_le
  have untraded (done : s.leg.done = false) (none : NoBuys s.orders) : ClosedOnce s := by
    refine ⟨by simp [none.1], ?_, by simp [done]⟩
    rw [LegOrders.boughtBack, none.2]
    omega
  have bought (dead : AllDead s.orders) (one : s.orders.buysSubmitted = 1)
      (accepted : s.orders.buysAccepted ≤ 1) : ClosedOnce s := by
    refine ⟨one.le, ?_, fun _ => dead.1⟩
    rw [LegOrders.boughtBack, count_eq_zero_of_not_mem dead.2]
    omega
  have phase := inv.phase
  match lock : s.lock.map Prod.snd with
  | none | some (.start _) =>
    rw [lock, PhaseInv] at phase
    split at phase
    · rcases phase with ⟨none, only⟩ | ⟨dead, one, accepted⟩
      · refine ⟨by simp [none.1], ?_, by simp [only]⟩
        rw [LegOrders.boughtBack, none.2]
        omega
      · exact bought dead one accepted
    · rename_i running
      exact untraded (by simpa using running) phase
  | some (.cancelling _ _) | some (.confirming _ _) | some (.buying _) =>
    rw [lock] at phase
    exact untraded phase.1 phase.2.1
  | some (.recording _) =>
    rw [lock] at phase
    exact bought phase.2.1 phase.2.2.1 phase.2.2.2

theorem placingNow_of_entering (inv : LegInv s) (entering : s.engine = .entering) :
    placingNow s = none := by
  simp [placingNow, entering, inv.spawn (by simp [entering])]

theorem engine_entered (inv : LegInv s) (born : s.monitor ≠ .unborn) :
    s.engine = .entered := by
  by_contra before
  exact born (inv.spawn before)

theorem wantsStopLoss_oid (inv : LegInv s) (wants : s.leg.wantsStopLoss = true)
    (idle : placingNow s = none) :
    s.leg.done = false ∧ s.leg.slOid = none ∧ s.orders.stopLosses = [] := by
  simp only [LegRecord.wantsStopLoss, Bool.and_eq_true, Bool.not_eq_eq_eq_not, Bool.not_true,
    Option.isNone_iff_eq_none] at wants
  obtain ⟨⟨done, unplaced⟩, -⟩ := wants
  have oid := inv.oid
  rw [idle] at oid
  rcases oid with ⟨-, empty⟩ | ⟨placed, -⟩
  · exact ⟨done, unplaced, empty⟩
  · rw [unplaced] at placed
    cases placed

variable {t : LegState} {actor : Actor}

theorem restaged_legInv (inv : LegInv s) (leg : t.leg = s.leg) (orders : t.orders = s.orders)
    (lock : t.lock = s.lock) (spawn : t.engine ≠ .entered → t.monitor = .unborn)
    (idle : placingNow t = none) (before : placingNow s = none ∨ placingNow s = some .sent) :
    LegInv t := by
  refine ⟨spawn, ?_, ?_, fun placing => absurd idle placing⟩
  · rw [idle, leg, orders]
    have oid := inv.oid
    rcases before with none | sent
    · rwa [none] at oid
    · rw [sent] at oid
      exact .inl oid
  · rw [leg, orders, lock]
    exact inv.phase

theorem placeBegin_legInv (inv : LegInv s) (quiet : closeUnderway s = false)
    (moved : s.placeBegin actor = some t) : LegInv t := by
  cases actor with
  | engine =>
    simp only [LegState.placeBegin, Option.ite_none_right_eq_some, Option.some.injEq] at moved
    obtain ⟨entering, rfl⟩ := moved
    have idle := placingNow_of_entering inv entering
    have unborn := inv.spawn (by simp [entering])
    split
    · rename_i wants
      obtain ⟨done, unplaced, empty⟩ := wantsStopLoss_oid inv wants idle
      exact ⟨fun _ => unborn, ⟨unplaced, empty⟩, inv.phase, fun _ => ⟨done, quiet⟩⟩
    · exact restaged_legInv inv rfl rfl rfl (fun _ => unborn) (by simp [placingNow, unborn])
        (.inl idle)
  | monitor =>
    simp only [LegState.placeBegin, Option.ite_none_right_eq_some, Option.some.injEq] at moved
    obtain ⟨⟨starting, -⟩, rfl⟩ := moved
    have entered := engine_entered inv (by simp [starting])
    have idle : placingNow s = none := by simp [placingNow, entered, starting]
    split
    · rename_i wants
      obtain ⟨done, unplaced, empty⟩ := wantsStopLoss_oid inv wants idle
      have sent : placingNow { s with monitor := .placing .sent } = some .sent := by
        simp [placingNow, entered]
      refine ⟨fun before => absurd entered before, ?_, inv.phase, fun _ => ⟨done, quiet⟩⟩
      rw [sent]
      exact ⟨unplaced, empty⟩
    · exact restaged_legInv inv rfl rfl rfl (fun before => absurd entered before)
        (by simp [placingNow, entered]) (.inl idle)
  | guard => cases moved

variable {leg : LegRecord} {orders : LegOrders}

theorem phase_of_quiet (quiet : closeUnderway s = false) (running : s.leg.done = false)
    (same : leg.done = s.leg.done) (noBuys : NoBuys s.orders → NoBuys orders)
    (phase : PhaseInv s.leg s.orders (s.lock.map Prod.snd)) :
    PhaseInv leg orders (s.lock.map Prod.snd) := by
  match lock : s.lock with
  | none | some (_, .start _) =>
    rw [lock] at phase
    simp only [Option.map_none, Option.map_some, PhaseInv, running, same] at phase ⊢
    exact noBuys phase
  | some (_, .cancelling _ _) | some (_, .confirming _ _) | some (_, .buying _)
  | some (_, .recording _) => simp [closeUnderway, lock] at quiet

section
variable (inv : LegInv s)
include inv

theorem placed_legInv (sent : placingNow s = some .sent) (leg : t.leg = s.leg)
    (orders : t.orders = s.orders.placeStopLoss) (lock : t.lock = s.lock)
    (spawn : t.engine ≠ .entered → t.monitor = .unborn)
    (accepted : placingNow t = some (.accepted s.orders.stopLosses.length)) : LegInv t := by
  obtain ⟨running, quiet⟩ := inv.apart (by simp [sent])
  have oid := inv.oid
  rw [sent] at oid
  obtain ⟨unplaced, empty⟩ := oid
  refine ⟨spawn, ?_, ?_, fun _ => ?_⟩
  · rw [accepted, leg, orders]
    exact ⟨unplaced, by simp [empty], .live, by simp [LegOrders.placeStopLoss, empty]⟩
  · rw [leg, orders, lock]
    exact phase_of_quiet quiet running rfl id inv.phase
  · rw [leg, closeUnderway, lock]
    exact ⟨running, quiet⟩

theorem placeAnswer_legInv (moved : s.placeAnswer accepted actor = some t) : LegInv t := by
  cases actor with
  | engine =>
    simp only [LegState.placeAnswer, Option.ite_none_right_eq_some] at moved
    obtain ⟨placing, moved⟩ := moved
    have unborn := inv.spawn (by simp [placing])
    have sent : placingNow s = some .sent := by simp [placingNow, placing]
    cases accepted with
    | true =>
      cases moved
      exact placed_legInv inv sent rfl rfl rfl (fun _ => unborn) rfl
    | false =>
      cases moved
      exact restaged_legInv inv rfl rfl rfl (fun _ => unborn) (by simp [placingNow, unborn])
        (.inr sent)
  | monitor =>
    simp only [LegState.placeAnswer, Option.ite_none_right_eq_some] at moved
    obtain ⟨placing, moved⟩ := moved
    have entered := engine_entered inv (by simp [placing])
    have sent : placingNow s = some .sent := by simp [placingNow, entered, placing]
    cases accepted with
    | true =>
      cases moved
      exact placed_legInv inv sent rfl rfl rfl (fun before => absurd entered before)
        (by simp [placingNow, entered])
    | false =>
      cases moved
      exact restaged_legInv inv rfl rfl rfl (fun before => absurd entered before)
        (by simp [placingNow, entered]) (.inr sent)
  | guard => cases moved

theorem stored_legInv {oid : Nat} (accepted : placingNow s = some (.accepted oid))
    (leg : t.leg = { s.leg with slOid := some oid }) (orders : t.orders = s.orders)
    (lock : t.lock = s.lock) (spawn : t.engine ≠ .entered → t.monitor = .unborn)
    (idle : placingNow t = none) : LegInv t := by
  obtain ⟨running, quiet⟩ := inv.apart (by simp [accepted])
  have placed := inv.oid
  rw [accepted] at placed
  obtain ⟨-, zero, status, only⟩ := placed
  refine ⟨spawn, ?_, ?_, fun placing => absurd idle placing⟩
  · rw [idle, leg, orders]
    exact .inr ⟨by simp [zero], status, only⟩
  · rw [leg, orders, lock]
    exact phase_of_quiet quiet running rfl id inv.phase

theorem placeStore_legInv (moved : s.placeStore actor = some t) : LegInv t := by
  cases actor with
  | engine =>
    simp only [LegState.placeStore] at moved
    split at moved
    · rename_i oid placing
      cases moved
      have unborn := inv.spawn (by simp [placing])
      exact stored_legInv inv (by simp [placingNow, placing]) rfl rfl rfl (fun _ => unborn)
        (by simp [placingNow, unborn])
    · cases moved
  | monitor =>
    simp only [LegState.placeStore] at moved
    split at moved
    · rename_i oid placing
      cases moved
      have entered := engine_entered inv (by simp [placing])
      exact stored_legInv inv (by simp [placingNow, entered, placing]) rfl rfl rfl
        (fun before => absurd entered before) (by simp [placingNow, entered])
    · cases moved
  | guard => cases moved

theorem acquire_legInv {reason : Reason} (moved : s.acquire actor reason = some t) : LegInv t := by
  simp only [LegState.acquire, Option.ite_none_right_eq_some, Option.some.injEq] at moved
  obtain ⟨free, rfl⟩ := moved
  refine ⟨inv.spawn, inv.oid, ?_, fun placing => ⟨(inv.apart placing).1, rfl⟩⟩
  have phase := inv.phase
  rw [free] at phase
  exact phase

end

theorem freshStatus_only (only : orders.stopLosses = [status]) :
    orders.freshStatus 0 = some status := by
  simp [LegOrders.freshStatus, only]

theorem allDead_of_only (only : orders.stopLosses = [status])
    (dead : status ≠ .live ∧ status ≠ .complete) : AllDead orders := by
  simp [AllDead, only, dead.1.symm, dead.2.symm]

theorem closeStep_phase {phase : Close} (oid : OidInv leg.slOid orders.stopLosses none)
    (inv : PhaseInv leg orders (some phase)) (accepted : Bool) :
    OidInv (closeStep leg orders accepted phase).leg.slOid
        (closeStep leg orders accepted phase).orders.stopLosses none ∧
      PhaseInv (closeStep leg orders accepted phase).leg (closeStep leg orders accepted phase).orders
        (closeStep leg orders accepted phase).next := by
  cases phase with
  | start reason =>
    cases done : leg.done with
    | true => simpa [closeStep, done, PhaseInv] using ⟨oid, by simpa [PhaseInv, done] using inv⟩
    | false =>
      have noBuys : NoBuys orders := by simpa [PhaseInv, done] using inv
      rcases oid with ⟨unplaced, empty⟩ | ⟨placed, status, only⟩
      · have dead : AllDead orders := by simp [AllDead, empty]
        simp only [closeStep, done, unplaced, Bool.false_eq_true, if_false]
        exact ⟨.inl ⟨rfl, empty⟩, done, noBuys, dead⟩
      · have look := freshStatus_only only
        simp only [closeStep, done, placed, look, Bool.false_eq_true, if_false]
        cases status with
        | live => exact ⟨.inr ⟨placed, _, only⟩, done, noBuys, placed⟩
        | complete => exact ⟨.inr ⟨placed, _, only⟩, .inl ⟨noBuys, only⟩⟩
        | cancelled | rejected =>
          have dead := allDead_of_only only (by simp)
          exact ⟨.inr ⟨placed, _, only⟩, done, noBuys, dead⟩
  | cancelling reason target =>
    obtain ⟨done, noBuys, named⟩ := inv
    rcases oid with ⟨unplaced, -⟩ | ⟨placed, status, only⟩
    · rw [unplaced] at named
      cases named
    · rw [placed] at named
      cases named
      cases status <;>
        simp [closeStep, LegOrders.cancelStopLoss, LegOrders.endStopLoss, only, OidInv, PhaseInv,
          LegOrders.freshStatus, placed, done] <;>
        exact noBuys
  | confirming reason target =>
    obtain ⟨done, noBuys, named, ended⟩ := inv
    rcases oid with ⟨unplaced, -⟩ | ⟨placed, status, only⟩
    · rw [unplaced] at named
      cases named
    · rw [placed] at named
      cases named
      have look := freshStatus_only only
      rw [look] at ended
      simp only [closeStep, look]
      cases status with
      | live => exact absurd rfl ended
      | complete => exact ⟨.inr ⟨placed, _, only⟩, .inl ⟨noBuys, only⟩⟩
      | cancelled | rejected =>
        have dead := allDead_of_only only (by simp)
        exact ⟨.inr ⟨placed, _, only⟩, done, noBuys, dead⟩
  | buying reason =>
    obtain ⟨done, ⟨none, zero⟩, dead⟩ := inv
    refine ⟨oid, done, dead, by simp [closeStep, LegOrders.buy, none], ?_⟩
    cases accepted <;> simp [closeStep, LegOrders.buy, zero]
  | recording reason =>
    obtain ⟨-, dead, one, few⟩ := inv
    exact ⟨oid, .inr ⟨dead, one, few⟩⟩

theorem advance_legInv (inv : LegInv s) (apart : closeStarts s = true → placingNow s = none)
    (moved : s.advance accepted = some t) : LegInv t := by
  obtain ⟨⟨actor, phase⟩, held, rfl⟩ := Option.map_eq_some_iff.mp moved
  have idle : placingNow s = none := by
    by_cases starts : closeStarts s = true
    · exact apart starts
    · by_contra placing
      have quiet := (inv.apart placing).2
      cases phase <;> simp_all [closeStarts, closeUnderway]
  have oid := inv.oid
  have before := inv.phase
  rw [idle] at oid
  rw [held] at before
  obtain ⟨after, phase'⟩ := closeStep_phase oid before accepted
  have still : placingNow { s with
      leg := (closeStep s.leg s.orders accepted phase).leg
      orders := (closeStep s.leg s.orders accepted phase).orders
      lock := (closeStep s.leg s.orders accepted phase).next.map fun next => (actor, next) } =
        none := idle
  refine ⟨inv.spawn, ?_, ?_, fun placing => absurd still placing⟩
  · rw [still]
    exact after
  · simpa [Function.comp_def] using phase'

theorem monitorCheck_legInv (inv : LegInv s) (watching : s.monitor = .watching)
    (free : s.lock = none) : LegInv { s with leg := checkStopLoss s.leg s.orders } := by
  have entered := engine_entered inv (by simp [watching])
  have idle : placingNow s = none := by simp [placingNow, entered, watching]
  have oid := inv.oid
  have phase := inv.phase
  rw [idle] at oid
  rw [free] at phase
  have still : placingNow { s with leg := checkStopLoss s.leg s.orders } = none := idle
  have kept : (checkStopLoss s.leg s.orders).slOid = s.leg.slOid := by
    unfold checkStopLoss
    split
    · rfl
    · split <;> rfl
  refine ⟨inv.spawn, ?_, ?_, fun placing => absurd still placing⟩
  · rw [still, kept]
    exact oid
  · rw [free]
    unfold checkStopLoss
    split
    · exact phase
    · rename_i running
      rw [Bool.not_eq_true] at running
      have noBuys : NoBuys s.orders := by simpa [PhaseInv, running] using phase
      split
      · rename_i filled
        rcases oid with ⟨unplaced, -⟩ | ⟨placed, status, only⟩
        · simp [unplaced] at filled
        · rw [placed, Option.bind_some, freshStatus_only only, Option.some.injEq] at filled
          subst filled
          exact .inl ⟨noBuys, only⟩
      · exact phase

theorem endStopLoss_of_not_live (dead : .live ∉ orders.stopLosses) (oid : Nat)
    (status : OrderStatus) : orders.endStopLoss oid status = orders := by
  have same : (orders.endStopLoss oid status).stopLosses = orders.stopLosses := by
    apply ext_getElem?
    intro index
    simp only [LegOrders.endStopLoss, getElem?_modify]
    cases here : orders.stopLosses[index]? with
    | none => rfl
    | some old =>
      have settled : old ≠ .live := by
        rintro rfl
        exact dead (mem_of_getElem? here)
      by_cases this : oid = index <;> simp [this, settled]
  exact congrArg (fun stopLosses => { orders with stopLosses }) same

theorem endStopLoss_freshStatus {target : Nat} (ended : orders.freshStatus target ≠ some .live)
    (oid : Nat) (status : OrderStatus) :
    (orders.endStopLoss oid status).freshStatus target = orders.freshStatus target := by
  unfold LegOrders.freshStatus LegOrders.endStopLoss at *
  rw [getElem?_modify]
  cases here : orders.stopLosses[target]? with
  | none => rfl
  | some old =>
    rw [here] at ended
    have settled : old ≠ .live := fun live => ended (congrArg some live)
    by_cases this : oid = target <;> simp [this, settled]

theorem endStopLoss_oidInv (inv : OidInv slOid orders.stopLosses placing) (oid : Nat)
    (status : OrderStatus) : OidInv slOid (orders.endStopLoss oid status).stopLosses placing := by
  have one {old : OrderStatus} (only : orders.stopLosses = [old]) :
      ∃ new, (orders.endStopLoss oid status).stopLosses = [new] := by
    cases oid <;> simp [LegOrders.endStopLoss, only]
  have none (empty : orders.stopLosses = []) : (orders.endStopLoss oid status).stopLosses = [] := by
    simp [LegOrders.endStopLoss, empty]
  match placing with
  | .none =>
    rcases inv with ⟨unplaced, empty⟩ | ⟨placed, old, only⟩
    · exact .inl ⟨unplaced, none empty⟩
    · exact .inr ⟨placed, one only⟩
  | some .sent => exact ⟨inv.1, none inv.2⟩
  | some (.accepted _) =>
    obtain ⟨unplaced, zero, old, only⟩ := inv
    exact ⟨unplaced, zero, one only⟩

theorem endStopLoss_idle (inv : if leg.done then Settled orders else NoBuys orders) (oid : Nat)
    (status : OrderStatus) :
    if leg.done then Settled (orders.endStopLoss oid status)
      else NoBuys (orders.endStopLoss oid status) := by
  split at inv
  · rename_i done
    rw [if_pos done]
    have dead : .live ∉ orders.stopLosses := by
      rcases inv with ⟨-, only⟩ | ⟨dead, -⟩
      · simp [only]
      · exact dead.1
    rwa [endStopLoss_of_not_live dead]
  · rename_i running
    rw [if_neg running]
    exact inv

theorem endStopLoss_phase {phase : Option Close} (inv : PhaseInv leg orders phase) (oid : Nat)
    (status : OrderStatus) :
    PhaseInv leg (orders.endStopLoss oid status) phase := by
  match phase with
  | none | some (.start _) => exact endStopLoss_idle inv oid status
  | some (.cancelling _ _) => exact inv
  | some (.confirming _ target) =>
    obtain ⟨done, noBuys, named, ended⟩ := inv
    exact ⟨done, noBuys, named, by rwa [endStopLoss_freshStatus ended]⟩
  | some (.buying _) =>
    unfold PhaseInv at inv ⊢
    rwa [endStopLoss_of_not_live inv.2.2.1]
  | some (.recording _) =>
    unfold PhaseInv at inv ⊢
    rwa [endStopLoss_of_not_live inv.2.1.1]

theorem legStep_legInv (s : LegState) (e : LegEvent) (t : LegState) (inv : LegInv s)
    (apart : Apart s e) (moved : legStep s e = some t) : LegInv t := by
  cases e with
  | placeBegin actor => exact placeBegin_legInv inv apart moved
  | placeAnswer actor accepted => exact placeAnswer_legInv inv moved
  | placeStore actor => exact placeStore_legInv inv moved
  | startMonitor =>
    simp only [legStep, Option.ite_none_right_eq_some, Option.some.injEq] at moved
    obtain ⟨placed, rfl⟩ := moved
    have unborn := inv.spawn (by simp [placed])
    exact restaged_legInv inv rfl rfl rfl (fun before => absurd rfl before) rfl
      (.inl (by simp [placingNow, placed, unborn]))
  | entryFound price =>
    simp only [legStep, Option.ite_none_right_eq_some, Option.some.injEq] at moved
    obtain ⟨-, rfl⟩ := moved
    exact ⟨inv.spawn, inv.oid, inv.phase, inv.apart⟩
  | monitorCheck =>
    simp only [legStep, Option.ite_none_right_eq_some, Option.some.injEq] at moved
    obtain ⟨⟨watching, free⟩, rfl⟩ := moved
    exact monitorCheck_legInv inv watching free
  | monitorTick ltp =>
    simp only [legStep, Option.ite_none_right_eq_some, Option.bind_eq_some_iff] at moved
    obtain ⟨-, reason, -, moved⟩ := moved
    exact acquire_legInv inv moved
  | monitorEnds =>
    simp only [legStep, Option.ite_none_right_eq_some, Option.some.injEq] at moved
    obtain ⟨⟨stage, -⟩, rfl⟩ := moved
    have entered := engine_entered inv (by rcases stage with stage | stage <;> simp [stage])
    exact restaged_legInv inv rfl rfl rfl (fun before => absurd entered before)
      (by simp [placingNow, entered])
      (.inl (by rcases stage with stage | stage <;> simp [placingNow, entered, stage]))
  | timeExit | emergencyExit =>
    simp only [legStep, Option.ite_none_right_eq_some] at moved
    exact acquire_legInv inv moved.2
  | kill =>
    cases moved
    exact ⟨inv.spawn, inv.oid, inv.phase, inv.apart⟩
  | advance accepted => exact advance_legInv inv apart moved
  | stopLossEnds oid status =>
    cases moved
    exact ⟨inv.spawn, endStopLoss_oidInv inv.oid oid status, endStopLoss_phase inv.phase oid status,
      inv.apart⟩

theorem closedOnce_of_apart (entry : Option ℚ) (events : List LegEvent) (s : LegState)
    (path : run legStep (.recorded entry) events = some s)
    (apart : Meets legStep Apart (.recorded entry) events) : ClosedOnce s :=
  (run_invariant_of_meets legStep_legInv path apart (recorded_legInv entry)).closedOnce

def legAfter (events : List LegEvent) : LegState :=
  (run legStep (.recorded (some 100)) events).getD (.recorded (some 100))

def stoppedOutWhileCancelling : List LegEvent :=
  [.placeBegin .engine, .placeAnswer .engine true, .placeStore .engine, .startMonitor,
    .placeBegin .monitor, .timeExit, .advance true, .stopLossEnds 0 .complete, .advance true,
    .advance true]

theorem closedOnce_stoppedOutWhileCancelling :
    ClosedOnce (legAfter stoppedOutWhileCancelling) ∧
      (legAfter stoppedOutWhileCancelling).leg.done = true := by
  have path : run legStep (.recorded (some 100)) stoppedOutWhileCancelling =
      some (legAfter stoppedOutWhileCancelling) := by decide +kernel
  have apart : Meets legStep Apart (.recorded (some 100)) stoppedOutWhileCancelling := by
    decide +kernel
  exact ⟨closedOnce_of_apart (some 100) stoppedOutWhileCancelling _ path apart, by decide +kernel⟩

def stopLossAfterClose : List LegEvent :=
  [.placeBegin .engine, .placeAnswer .engine false, .startMonitor, .placeBegin .monitor, .kill,
    .emergencyExit, .advance true, .advance true, .advance true, .placeAnswer .monitor true,
    .placeStore .monitor, .monitorEnds]

theorem closedOnce_fails_stopLossAfterClose :
    run legStep (.recorded (some 100)) stopLossAfterClose = some (legAfter stopLossAfterClose) ∧
    ¬ ClosedOnce (legAfter stopLossAfterClose) ∧
    (legAfter (stopLossAfterClose ++ [.stopLossEnds 0 .complete])).orders.boughtBack = 2 := by
  refine ⟨by decide +kernel, fun closed => ?_, by decide +kernel⟩
  exact absurd (closed.stopLosses (by decide +kernel)) (by decide +kernel)

end AlgoSystem.Proof.DoubleStraddle
