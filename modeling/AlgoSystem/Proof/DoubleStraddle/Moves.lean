import AlgoSystem.Proof.DoubleStraddle.World

namespace AlgoSystem.Proof.DoubleStraddle
open AlgoSystem.DoubleStraddle DoubleStraddle.World General

def exitStep : Session → Step
  | .morning => .mornExit
  | .afternoon => .final

inductive EngineMove (w : World) (a : Answer) : World → Prop where
  | stop (here : w.engine = .top) (killed : w.killSwitch = true) :
      EngineMove w a { w with engine := .ended false }
  | sample (here : w.engine = .top) (running : w.killSwitch = false) (later : w.clock ≤ a.now) :
      EngineMove w a { w with clock := a.now, engine := .at .hedge }
  | skip (step : Step) (here : w.engine = .at step) : EngineMove w a { w with engine := step.after }
  | finish (step : Step) (here : w.engine = .at step) (due : w.clock = step.minute) :
      EngineMove w a { w with doneSteps := step :: w.doneSteps, engine := step.after }
  | raised (step : Step) (here : w.engine = .at step) : EngineMove w a { w with engine := .top }
  | beginHedge (ceStrike peStrike : Nat) (here : w.engine = .at .hedge)
      (due : w.clock = Step.hedge.minute) (idle : w.memory.hedgeActive = false) :
      EngineMove w a { w with engine := .buyHedge ceStrike peStrike none }
  | enter (s : Session) (here : w.engine = .at (entryStep s)) (due : w.clock = (entryStep s).minute)
      (undone : entryStep s ∉ w.doneSteps) (active : w.memory.hedgeActive = true) (new : recordedIn w s = false) :
      EngineMove w a { w with engine := .sell s .ce }
  | beginExit (s : Session) (here : w.engine = .at (exitStep s))
      (due : w.clock = (exitStep s).minute) : EngineMove w a { w with engine := .squareOff s .ce }
  | buyCe (ceStrike peStrike : Nat) (here : w.engine = .buyHedge ceStrike peStrike none) :
      EngineMove w a { w.submit (.hedgeBuy ⟨ceStrike, .ce⟩ a.accepted) with
        engine := .buyHedge ceStrike peStrike (some a.accepted) }
  | buyPe (ceStrike peStrike : Nat) (ce : Bool)
      (here : w.engine = .buyHedge ceStrike peStrike (some ce)) :
      EngineMove w a { w.submit (.hedgeBuy ⟨peStrike, .pe⟩ a.accepted) with
        engine := .recordHedge ⟨⟨ceStrike, ce⟩, ⟨peStrike, a.accepted⟩⟩ }
  | recordHedge (hedge : Hedge) (here : w.engine = .recordHedge hedge) :
      EngineMove w a ((w.recordHedge hedge a.saved).finishStep .hedge)
  | sellCe (s : Session) (here : w.engine = .sell s .ce) :
      EngineMove w a { w.submit (.straddleSell s .ce a.accepted) with engine := .sell s .pe }
  | sellPe (s : Session) (here : w.engine = .sell s .pe) :
      EngineMove w a { w.submit (.straddleSell s .pe a.accepted) with engine := .record s }
  | record (s : Session) (here : w.engine = .record s) :
      EngineMove w a ((w.recordSession s a).finishStep (entryStep s))
  | closeCe (s : Session) (here : w.engine = .squareOff s .ce) :
      EngineMove w a { w.closeLeg s .ce .timeExit a with engine := .squareOff s .pe }
  | closeMorning (here : w.engine = .squareOff .morning .pe) :
      EngineMove w a ((w.closeLeg .morning .pe .timeExit a).finishStep .mornExit)
  | closeAfternoon (here : w.engine = .squareOff .afternoon .pe) :
      EngineMove w a { w.closeLeg .afternoon .pe .timeExit a with engine := .finalSleep }
  | wake (here : w.engine = .finalSleep) : EngineMove w a { w with engine := .exitHedge .begin }
  | exitHedge (pc : ExitPc) (here : w.engine = .exitHedge pc) :
      EngineMove w a { (w.exitHedge a pc).1 with
        engine := EnginePc.afterExit (w.exitHedge a pc).2 }

variable {w : World}

theorem beginStep_move {step : Step} (a : Answer) (here : w.engine = .at step)
    (due : w.clock = step.minute) (undone : step ∉ w.doneSteps) :
    EngineMove w a (w.beginStep a step) := by
  have enter (s : Session) (here : w.engine = .at (entryStep s))
      (due : w.clock = (entryStep s).minute) (undone : entryStep s ∉ w.doneSteps) :
      EngineMove w a (w.enterStraddle a s (entryStep s)) := by
    unfold World.enterStraddle
    split
    · exact .finish _ here due
    · rename_i free
      simp only [Bool.or_eq_true, Bool.not_eq_eq_eq_not, Bool.not_true, not_or, Bool.not_eq_false,
        Bool.not_eq_true] at free
      split
      · exact .raised _ here
      · exact .enter s here due undone free.1 free.2
  cases step with
  | hedge =>
    simp only [World.beginStep]
    split
    · exact .finish _ here due
    · rename_i idle
      split
      · exact .raised _ here
      · exact .beginHedge _ _ here due (by simpa using idle)
  | morn => exact enter .morning here due undone
  | mornExit => exact .beginExit .morning here due
  | aft => exact enter .afternoon here due undone
  | final => exact .beginExit .afternoon here due

variable {v : World} {a : Answer}

theorem engineStep_move (moved : w.engineStep a = some v) :
    EngineMove w a v := by
  unfold World.engineStep at moved
  split at moved
  · rename_i here
    split at moved
    · rename_i killed
      cases moved
      exact .stop here killed
    · rename_i running
      simp only [Option.ite_none_right_eq_some, Option.some.injEq] at moved
      obtain ⟨later, rfl⟩ := moved
      exact .sample here (by simpa using running) later
  · rename_i step here
    split at moved
    · rename_i due
      cases moved
      exact beginStep_move a here due.1 due.2
    · cases moved
      exact .skip step here
  all_goals rename_i here
  all_goals try obtain rfl := Option.some.inj moved
  · exact .buyCe _ _ here
  · exact .buyPe _ _ _ here
  · exact .recordHedge _ here
  · exact .sellCe _ here
  · exact .sellPe _ here
  · exact .record _ here
  · exact .closeCe _ here
  · exact .closeMorning here
  · exact .closeAfternoon here
  · exact .wake here
  · exact .exitHedge _ here
  · cases moved

inductive GuardMove (w : World) (a : Answer) : World → Prop where
  | trip (here : w.guard = .watching) :
      GuardMove w a { w with killSwitch := true, guard := .check .morning }
  | found (s : Session) (here : w.guard = .check s) (recorded : recordedIn w s = true) :
      GuardMove w a { w with guard := .squareOff s .ce }
  | missing (s : Session) (here : w.guard = .check s) (absent : recordedIn w s = false) :
      GuardMove w a { w with guard := GuardPc.afterSession s }
  | closeCe (s : Session) (here : w.guard = .squareOff s .ce) :
      GuardMove w a { w.closeLeg s .ce .emergencyExit a with guard := .squareOff s .pe }
  | closePe (s : Session) (here : w.guard = .squareOff s .pe) :
      GuardMove w a { w.closeLeg s .pe .emergencyExit a with guard := GuardPc.afterSession s }
  | exitHedge (pc : ExitPc) (here : w.guard = .exitHedge pc) :
      GuardMove w a { (w.exitHedge a pc).1 with guard := GuardPc.afterExit (w.exitHedge a pc).2 }

theorem guardStep_move (moved : w.guardStep a = some v) :
    GuardMove w a v := by
  unfold World.guardStep at moved
  split at moved
  all_goals rename_i here
  all_goals try obtain rfl := Option.some.inj moved
  · exact .trip here
  · split
    · rename_i recorded
      exact .found _ here recorded
    · rename_i absent
      exact .missing _ here (by simpa [recordedIn] using absent)
  · exact .closeCe _ here
  · exact .closePe _ here
  · exact .exitHedge _ here
  · cases moved

inductive Move (w : World) : Event → World → Prop where
  | start (dead : w.alive = false) : Move w .start w.start
  | crash (alive : w.alive = true) : Move w .crash { w with alive := false }
  | exit (final : Bool) (ended : w.engine = .ended final) : Move w .exit { w with alive := false }
  | engine (a : Answer) {v : World} (alive : w.alive = true) (move : EngineMove w a v) :
      Move w (.engine a) v
  | guard (a : Answer) {v : World} (alive : w.alive = true) (move : GuardMove w a v) :
      Move w (.guard a) v
  | monitorClose (s : Session) (opt : Opt) (reason : Reason) (a : Answer) (alive : w.alive = true) :
      Move w (.monitorClose s opt reason a) (w.closeLeg s opt reason a)
  | placeStopLoss {s : Session} {opt : Opt} {a : Answer} {v : World} (alive : w.alive = true)
      (notes : Notes v w) : Move w (.placeStopLoss s opt a) v
  | entryFound {s : Session} {opt : Opt} {price : ℚ} {a : Answer} {v : World}
      (alive : w.alive = true) (notes : Notes v w) : Move w (.entryFound s opt price a) v

theorem step_move {e : Event} (moved : step w e = some v) : Move w e v := by
  cases e with
  | start =>
    simp only [step, Option.ite_none_left_eq_some, Option.some.injEq, Bool.not_eq_true] at moved
    obtain ⟨dead, rfl⟩ := moved
    exact .start dead
  | crash =>
    simp only [step, Option.ite_none_right_eq_some, Option.some.injEq] at moved
    obtain ⟨alive, rfl⟩ := moved
    exact .crash alive
  | exit =>
    simp only [step] at moved
    split at moved
    · rename_i final ended
      simp only [Option.ite_none_right_eq_some, Option.some.injEq] at moved
      obtain ⟨-, rfl⟩ := moved
      exact .exit final ended
    · cases moved
  | engine a =>
    simp only [step, Option.ite_none_right_eq_some] at moved
    exact .engine a moved.1 (engineStep_move moved.2)
  | guard a =>
    simp only [step, Option.ite_none_right_eq_some] at moved
    exact .guard a moved.1 (guardStep_move moved.2)
  | monitorClose s opt reason a =>
    simp only [step, Option.ite_none_right_eq_some, Option.some.injEq] at moved
    obtain ⟨⟨alive, -⟩, rfl⟩ := moved
    exact .monitorClose s opt reason a alive
  | placeStopLoss s opt a =>
    simp only [step, Option.ite_none_right_eq_some, Option.some.injEq] at moved
    obtain ⟨alive, rfl⟩ := moved
    exact .placeStopLoss alive (placeStopLoss_notes w s opt a)
  | entryFound s opt price a =>
    simp only [step, Option.ite_none_right_eq_some, Option.some.injEq] at moved
    obtain ⟨alive, rfl⟩ := moved
    exact .entryFound alive (entryFound_notes w s opt price a)

def ClockOk (w : World) : Prop :=
  match w.engine with
  | .buyHedge _ _ _ | .recordHedge _ => w.clock = Step.hedge.minute
  | .sell s _ | .record s => w.clock = (entryStep s).minute
  | .squareOff s _ => w.clock = (exitStep s).minute
  | _ => True

theorem engineMove_clockOk (ok : ClockOk w) (move : EngineMove w a v) :
    ClockOk v := by
  have after (step : Step) {u : World} (here : u.engine = step.after) : ClockOk u := by
    cases step <;> simp [ClockOk, here, Step.after]
  cases move with
  | stop | sample | raised | wake | closeAfternoon => trivial
  | skip step | finish step => exact after step rfl
  | recordHedge hedge => exact after .hedge rfl
  | record s => exact after (entryStep s) rfl
  | closeMorning => exact after .mornExit rfl
  | beginHedge _ _ _ due | enter _ _ due | beginExit _ _ due => exact due
  | buyCe _ _ here | buyPe _ _ _ here | sellCe _ here | sellPe _ here =>
    simp only [ClockOk, here] at ok
    exact ok
  | closeCe s here =>
    simp only [ClockOk, here] at ok
    exact (closeLeg_threads w s .ce .timeExit a).clock.trans ok
  | exitHedge pc =>
    cases next : (w.exitHedge a pc).2 <;> trivial

theorem ClockOk.same (ok : ClockOk w) (engine : v.engine = w.engine) (clock : v.clock = w.clock) :
    ClockOk v := by
  unfold ClockOk
  rw [engine, clock]
  exact ok

theorem engineMove_clock (move : EngineMove w a v) :
    v.clock = w.clock ∨ (w.engine = .top ∧ v.clock = a.now) := by
  cases move with
  | sample here => exact .inr ⟨here, rfl⟩
  | recordHedge hedge => exact .inl (by simp [World.recordHedge])
  | record s => exact .inl (by simp [World.recordSession])
  | closeCe s => exact .inl (closeLeg_threads w s .ce .timeExit a).clock
  | closeMorning => exact .inl (closeLeg_threads w .morning .pe .timeExit a).clock
  | closeAfternoon => exact .inl (closeLeg_threads w .afternoon .pe .timeExit a).clock
  | exitHedge pc => exact .inl (exitHedge_frame w a pc).clock
  | _ => exact .inl rfl

def engineCloses : EnginePc → Bool
  | .squareOff _ _ => true
  | _ => false

def guardCloses : GuardPc → Bool
  | .squareOff _ _ => true
  | _ => false

theorem engineMove_frame (move : EngineMove w a v) :
    v.killSwitch = w.killSwitch ∧ v.guard = w.guard ∧ v.alive = w.alive := by
  have closes (s : Session) (opt : Opt) := closeLeg_threads w s opt .timeExit a
  cases move with
  | stop | sample | skip | finish | raised | beginHedge | enter | beginExit | buyCe | buyPe | sellCe
  | sellPe | wake => exact ⟨rfl, rfl, rfl⟩
  | recordHedge hedge =>
    simp [World.recordHedge, World.finishStep, World.nextStep]
  | record s => simp [World.recordSession, World.finishStep, World.nextStep]
  | closeCe s => exact ⟨(closes s .ce).killSwitch, (closes s .ce).guard, (closes s .ce).alive⟩
  | closeMorning =>
    exact ⟨(closes .morning .pe).killSwitch, (closes .morning .pe).guard,
      (closes .morning .pe).alive⟩
  | closeAfternoon =>
    exact ⟨(closes .afternoon .pe).killSwitch, (closes .afternoon .pe).guard,
      (closes .afternoon .pe).alive⟩
  | exitHedge pc =>
    have frame := exitHedge_frame w a pc
    exact ⟨frame.killSwitch, frame.guard, frame.alive⟩

def ClosesAtMost (w v : World) (closing : Bool) (a : Answer) : Prop :=
  (∀ s, v.memory.session s = w.memory.session s) ∨
  (∃ s opt reason, closing = true ∧ v.memory = (w.closeLeg s opt reason a).memory ∧
    v.log = (w.closeLeg s opt reason a).log)

theorem engineMove_sessions (move : EngineMove w a v) :
    (∃ s, w.engine = .record s ∧ v = (w.recordSession s a).finishStep (entryStep s)) ∨
    ClosesAtMost w v (engineCloses w.engine) a := by
  cases move with
  | stop | sample | skip | finish | raised | beginHedge | enter | beginExit | buyCe | buyPe | sellCe
  | sellPe | wake => exact .inr (.inl fun _ => rfl)
  | recordHedge hedge =>
    exact .inr (.inl (recordHedge_session w hedge a.saved))
  | record s here => exact .inl ⟨s, here, rfl⟩
  | closeCe s here => exact .inr (.inr ⟨s, .ce, _, by rw [here]; rfl, rfl, rfl⟩)
  | closeMorning here => exact .inr (.inr ⟨.morning, .pe, _, by rw [here]; rfl, rfl, rfl⟩)
  | closeAfternoon here => exact .inr (.inr ⟨.afternoon, .pe, _, by rw [here]; rfl, rfl, rfl⟩)
  | exitHedge pc => exact .inr (.inl (exitHedge_frame w a pc).session)

section ClosesAtMost

variable {w v : World} {closing : Bool} {a : Answer}

theorem ClosesAtMost.recordedIn (closes : ClosesAtMost w v closing a) (s : Session) :
    recordedIn v s = recordedIn w s := by
  rcases closes with same | ⟨t, opt, reason, -, memory, -⟩
  · exact congrArg Option.isSome (same s)
  · exact (congrArg (fun m => (Memory.session m s).isSome) memory).trans
      ((closeLeg_threads w t opt reason a).recorded s)

theorem ClosesAtMost.legDone (closes : ClosesAtMost w v closing a) {s : Session} {opt : Opt}
    (done : legDone w s opt = true) : legDone v s opt = true := by
  rcases closes with same | ⟨t, o, reason, -, memory, -⟩
  · rwa [DoubleStraddle.legDone, same]
  · rw [DoubleStraddle.legDone, memory]
    exact closeLeg_legDone_mono done t o reason a

end ClosesAtMost

theorem recordSession_legDone (w : World) (s : Session) (a : Answer) (t : Session) (opt : Opt) :
    legDone ((w.recordSession s a).finishStep (entryStep s)) t opt =
      if t = s then false else legDone w t opt := by
  unfold legDone
  simp only [finishStep_memory, World.recordSession, save_memory]
  split
  · rename_i same
    subst same
    cases opt <;> simp [SessionRecord.leg]
  · rename_i other
    rw [session_setSession_ne _ other]

theorem recordSession_recordedIn (w : World) (s : Session) (a : Answer) (t : Session) :
    recordedIn ((w.recordSession s a).finishStep (entryStep s)) t =
      if t = s then true else recordedIn w t := by
  unfold recordedIn
  simp only [finishStep_memory, World.recordSession, save_memory]
  split
  · rename_i same
    subst same
    simp
  · rename_i other
    rw [session_setSession_ne _ other]

theorem guardMove_frame {w v : World} {a : Answer} (move : GuardMove w a v) :
    v.engine = w.engine ∧ v.clock = w.clock ∧ v.doneSteps = w.doneSteps ∧ v.alive = w.alive ∧
      ∀ s, recordedIn v s = recordedIn w s := by
  have closes (s : Session) (opt : Opt) := closeLeg_threads w s opt .emergencyExit a
  cases move with
  | trip | found | missing => exact ⟨rfl, rfl, rfl, rfl, fun _ => rfl⟩
  | closeCe s =>
    exact ⟨(closes s .ce).engine, (closes s .ce).clock, (closes s .ce).doneSteps,
      (closes s .ce).alive, (closes s .ce).recorded⟩
  | closePe s =>
    exact ⟨(closes s .pe).engine, (closes s .pe).clock, (closes s .pe).doneSteps,
      (closes s .pe).alive, (closes s .pe).recorded⟩
  | exitHedge pc =>
    have frame := exitHedge_frame w a pc
    exact ⟨frame.engine, frame.clock, frame.doneSteps, frame.alive,
      fun s => congrArg _ (frame.session s)⟩

theorem guardMove_sessions {w v : World} {a : Answer} (move : GuardMove w a v) :
    ClosesAtMost w v (guardCloses w.guard) a := by
  cases move with
  | trip | found | missing => exact .inl fun _ => rfl
  | closeCe s here => exact .inr ⟨s, .ce, _, by rw [here]; rfl, rfl, rfl⟩
  | closePe s here => exact .inr ⟨s, .pe, _, by rw [here]; rfl, rfl, rfl⟩
  | exitHedge pc => exact .inl (exitHedge_frame w a pc).session

def hedgePass : List Event :=
  [.engine { now := 620 }, .engine { strikes := some (25500, 23500) }, .engine {}, .engine {},
    .engine {}, .engine {}, .engine {}, .engine {}, .engine {}]

def morningPass : List Event :=
  [.engine { now := 625 }, .engine {}, .engine { strikes := some (25500, 23500) }, .engine {},
    .engine {}, .engine { ceEntry := some 100, peEntry := some 100 }, .engine {}, .engine {},
    .engine {}]

def morningExitPass : List Event :=
  [.engine { now := 854 }, .engine {}, .engine {}, .engine {}, .engine {}, .engine {}, .engine {},
    .engine {}]

def finalPass : List Event :=
  [.engine { now := 918 }, .engine {}, .engine {}, .engine {}, .engine {}, .engine {}, .engine {},
    .engine {}, .engine {}, .engine {}, .engine {}, .engine {}, .engine {}]

def worldAfter (events : List Event) : World := (run step {} events).getD {}

end AlgoSystem.Proof.DoubleStraddle
