import AlgoSystem.DoubleStraddle.System
import AlgoSystem.General.Runs

namespace AlgoSystem.Proof.DoubleStraddle
open AlgoSystem.DoubleStraddle DoubleStraddle.World General

def legDone (w : World) (s : Session) (opt : Opt) : Bool :=
  (w.memory.session s).all fun session => (session.leg opt).done

def recordedIn (w : World) (s : Session) : Bool := (w.memory.session s).isSome

structure SameThreads (v w : World) : Prop where
  alive : v.alive = w.alive
  killSwitch : v.killSwitch = w.killSwitch
  doneSteps : v.doneSteps = w.doneSteps
  clock : v.clock = w.clock
  engine : v.engine = w.engine
  guard : v.guard = w.guard
  hedge : v.memory.hedge = w.memory.hedge
  hedgeActive : v.memory.hedgeActive = w.memory.hedgeActive
  recorded : ∀ s, recordedIn v s = recordedIn w s

theorem SameThreads.rfl {w : World} : SameThreads w w :=
  ⟨Eq.refl _, Eq.refl _, Eq.refl _, Eq.refl _, Eq.refl _, Eq.refl _, Eq.refl _, Eq.refl _,
    fun _ => Eq.refl _⟩

section Save

variable (w : World) (saved : Bool)

@[simp] theorem save_memory : (w.save saved).memory = w.memory := by
  cases saved <;> rfl

@[simp] theorem save_log : (w.save saved).log = w.log := by
  cases saved <;> rfl

@[simp] theorem save_engine : (w.save saved).engine = w.engine := by
  cases saved <;> rfl

@[simp] theorem save_guard : (w.save saved).guard = w.guard := by
  cases saved <;> rfl

@[simp] theorem save_alive : (w.save saved).alive = w.alive := by
  cases saved <;> rfl

@[simp] theorem save_killSwitch : (w.save saved).killSwitch = w.killSwitch := by
  cases saved <;> rfl

@[simp] theorem save_clock : (w.save saved).clock = w.clock := by
  cases saved <;> rfl

@[simp] theorem save_doneSteps : (w.save saved).doneSteps = w.doneSteps := by
  cases saved <;> rfl

end Save

@[simp] theorem session_setSession_same (memory : Memory) (s : Session) (session : SessionRecord) :
    (memory.setSession s session).session s = some session := by
  cases s <;> rfl

theorem session_setSession_ne (memory : Memory) {s t : Session} (ne : t ≠ s)
    (session : SessionRecord) : (memory.setSession s session).session t = memory.session t := by
  cases s <;> cases t <;> first | rfl | exact absurd rfl ne

@[simp] theorem leg_setLeg_same (session : SessionRecord) (opt : Opt) (leg : LegRecord) :
    (session.setLeg opt leg).leg opt = leg := by
  cases opt <;> rfl

theorem leg_setLeg_ne (session : SessionRecord) {opt o : Opt} (ne : o ≠ opt) (leg : LegRecord) :
    (session.setLeg opt leg).leg o = session.leg o := by
  cases opt <;> cases o <;> first | rfl | exact absurd rfl ne

section SetLeg

variable {w : World} {s : Session} {session : SessionRecord}

theorem setLeg_threads (here : w.memory.session s = some session) (opt : Opt) (leg : LegRecord)
    (saved : Bool) : SameThreads ((w.setLeg s session opt leg).save saved) w := by
  constructor
  all_goals try simp [World.setLeg]
  · cases s <;> rfl
  · cases s <;> rfl
  · intro t
    unfold recordedIn
    by_cases same : t = s
    · subst same
      simp [here]
    · simp [session_setSession_ne _ same]

theorem setLeg_log (opt : Opt) (leg : LegRecord) (saved : Bool) :
    ((w.setLeg s session opt leg).save saved).log = w.log := by
  simp [World.setLeg]

theorem setLeg_legDone (here : w.memory.session s = some session) (opt : Opt) (leg : LegRecord)
    (saved : Bool) (t : Session) (o : Opt) :
    legDone ((w.setLeg s session opt leg).save saved) t o =
      if t = s ∧ o = opt then leg.done else legDone w t o := by
  unfold legDone
  simp only [save_memory, World.setLeg]
  by_cases same : t = s
  · subst same
    by_cases this : o = opt
    · subst this
      simp
    · simp [this, here, leg_setLeg_ne _ this]
  · simp [same, session_setSession_ne _ same]

theorem SameThreads.of_submit {v : World} {order : OrderLog}
    (same : SameThreads v (w.submit order)) : SameThreads v w :=
  ⟨same.alive, same.killSwitch, same.doneSteps, same.clock, same.engine, same.guard, same.hedge,
    same.hedgeActive, same.recorded⟩

end SetLeg

section
variable (w : World) (s : Session) (opt : Opt) (reason : Reason) (a : Answer)
include w s opt reason a

theorem closeLeg_cases : (w.closeLeg s opt reason a = w ∧ legDone w s opt = true) ∨
    (∃ order, recordedIn w s = true ∧ legDone w s opt = false ∧
      (order = .stopLossFilled s opt ∨ order = .buyBack s opt a.accepted) ∧
      SameThreads (w.closeLeg s opt reason a) w ∧
      (w.closeLeg s opt reason a).log = w.log ++ [order] ∧
      ∀ t o, legDone (w.closeLeg s opt reason a) t o =
        if t = s ∧ o = opt then true else legDone w t o) := by
  unfold World.closeLeg
  cases here : w.memory.session s with
  | none => exact .inl ⟨rfl, by simp [legDone, here]⟩
  | some session =>
    dsimp only
    split
    · rename_i done
      exact .inl ⟨rfl, by simpa [legDone, here] using done⟩
    · rename_i running
      have opened : legDone w s opt = false := by simpa [legDone, here] using running
      have recorded : recordedIn w s = true := by simp [recordedIn, here]
      have sent (order : OrderLog) : (w.submit order).memory.session s = some session := here
      split
      · exact .inr ⟨_, recorded, opened, .inl rfl, (setLeg_threads (sent _) _ _ _).of_submit,
          setLeg_log _ _ _, setLeg_legDone (sent _) _ _ _⟩
      · exact .inr ⟨_, recorded, opened, .inr rfl, (setLeg_threads (sent _) _ _ _).of_submit,
          setLeg_log _ _ _, setLeg_legDone (sent _) _ _ _⟩

theorem closeLeg_threads : SameThreads (w.closeLeg s opt reason a) w := by
  rcases closeLeg_cases w s opt reason a with ⟨same, -⟩ | ⟨-, -, -, -, threads, -⟩
  · rw [same]
    exact SameThreads.rfl
  · exact threads

theorem closeLeg_legDone : legDone (w.closeLeg s opt reason a) s opt = true := by
  rcases closeLeg_cases w s opt reason a with ⟨same, done⟩ | ⟨-, -, -, -, -, -, done⟩
  · rw [same, done]
  · simp [done]

end

theorem closeLeg_legDone_mono {w : World} {t : Session} {o : Opt} (done : legDone w t o = true)
    (s : Session) (opt : Opt) (reason : Reason) (a : Answer) :
    legDone (w.closeLeg s opt reason a) t o = true := by
  rcases closeLeg_cases w s opt reason a with ⟨same, -⟩ | ⟨-, -, -, -, -, -, after⟩
  · rw [same, done]
  · rw [after, done]
    simp

def DiskFollows (v w : World) : Prop := v.disk = w.disk ∨ v.disk = v.memory

theorem save_disk (w : World) (saved : Bool) : DiskFollows (w.save saved) w := by
  cases saved with
  | true => exact .inr rfl
  | false => exact .inl rfl

/-- The monitor notes a leg's entry price or its stop-loss, which it has sent while the leg is
open. -/
structure Notes (v w : World) : Prop where
  threads : SameThreads v w
  log : v.log = w.log ∨ ∃ s opt accepted, recordedIn w s = true ∧ legDone w s opt = false ∧
    v.log = w.log ++ [.stopLoss s opt accepted]
  done : ∀ t o, legDone v t o = legDone w t o
  disk : DiskFollows v w

protected theorem Notes.rfl {w : World} : Notes w w :=
  ⟨SameThreads.rfl, .inl (Eq.refl _), fun _ _ => Eq.refl _, .inl (Eq.refl _)⟩

theorem setLeg_same_done {w : World} {s : Session} {session : SessionRecord} {opt : Opt}
    {leg : LegRecord} (here : w.memory.session s = some session)
    (same : leg.done = (session.leg opt).done) (saved : Bool) (t : Session) (o : Opt) :
    legDone ((w.setLeg s session opt leg).save saved) t o = legDone w t o := by
  rw [setLeg_legDone here]
  split
  · rename_i this
    obtain ⟨rfl, rfl⟩ := this
    simp [legDone, here, same]
  · rfl

theorem placeStopLoss_notes (w : World) (s : Session) (opt : Opt) (a : Answer) :
    Notes (w.placeStopLoss s opt a) w := by
  unfold World.placeStopLoss
  cases here : w.memory.session s with
  | none => exact Notes.rfl
  | some session =>
    dsimp only
    split
    · rename_i wants
      simp only [LegRecord.wantsStopLoss, Bool.and_eq_true, Bool.not_eq_true'] at wants
      have recorded : recordedIn w s = true := by simp [recordedIn, here]
      have running : legDone w s opt = false := by simpa [legDone, here] using wants.1.1
      have sent : (w.submit (.stopLoss s opt a.accepted)).memory.session s = some session := here
      split
      · exact ⟨(setLeg_threads sent _ _ _).of_submit,
          .inr ⟨s, opt, _, recorded, running, setLeg_log _ _ _⟩,
          setLeg_same_done sent (by rfl) _, save_disk _ _⟩
      · exact ⟨SameThreads.rfl.of_submit, .inr ⟨s, opt, _, recorded, running, rfl⟩,
          fun _ _ => rfl, .inl rfl⟩
    · exact Notes.rfl

theorem entryFound_notes (w : World) (s : Session) (opt : Opt) (price : ℚ) (a : Answer) :
    Notes (w.entryFound s opt price a) w := by
  unfold World.entryFound
  cases here : w.memory.session s with
  | none => exact Notes.rfl
  | some session =>
    dsimp only
    split
    · exact Notes.rfl
    · exact ⟨setLeg_threads here _ _ _, .inl (setLeg_log _ _ _), setLeg_same_done here (by rfl) _,
        save_disk _ _⟩

section Frames

variable (w : World) (a : Answer)

structure ExitFrame (v w : World) : Prop where
  alive : v.alive = w.alive
  killSwitch : v.killSwitch = w.killSwitch
  doneSteps : v.doneSteps = w.doneSteps
  clock : v.clock = w.clock
  engine : v.engine = w.engine
  guard : v.guard = w.guard
  session : ∀ s, v.memory.session s = w.memory.session s

theorem exitHedge_frame (pc : ExitPc) : ExitFrame (w.exitHedge a pc).1 w := by
  cases pc with
  | begin =>
    unfold World.exitHedge
    cases w.memory.hedge <;> exact ⟨rfl, rfl, rfl, rfl, rfl, rfl, fun _ => rfl⟩
  | sell hedge opt =>
    simp only [World.exitHedge]
    split <;> exact ⟨rfl, rfl, rfl, rfl, rfl, rfl, fun _ => rfl⟩
  | clear =>
    simp only [World.exitHedge]
    constructor <;> simp
    intro s
    cases s <;> rfl

variable (step : Step)

@[simp] theorem finishStep_engine : (w.finishStep step).engine = step.after := rfl

@[simp] theorem finishStep_guard : (w.finishStep step).guard = w.guard := rfl

@[simp] theorem finishStep_log : (w.finishStep step).log = w.log := rfl

@[simp] theorem finishStep_clock : (w.finishStep step).clock = w.clock := rfl

@[simp] theorem finishStep_memory : (w.finishStep step).memory = w.memory := rfl

@[simp] theorem recordSession_log (s : Session) (a : Answer) :
    (w.recordSession s a).log = w.log := by
  simp [World.recordSession]

@[simp] theorem recordSession_hedge (s : Session) (a : Answer) :
    (w.recordSession s a).memory.hedge = w.memory.hedge := by
  cases s <;> simp [World.recordSession, Memory.setSession]

@[simp] theorem recordHedge_log (hedge : Hedge) (saved : Bool) :
    (w.recordHedge hedge saved).log = w.log := by
  simp [World.recordHedge]

@[simp] theorem recordHedge_session (hedge : Hedge) (saved : Bool) (s : Session) :
    (w.recordHedge hedge saved).memory.session s = w.memory.session s := by
  cases s <;> simp [World.recordHedge, Memory.session]

end Frames

end AlgoSystem.Proof.DoubleStraddle
