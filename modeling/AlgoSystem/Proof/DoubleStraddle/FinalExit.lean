import AlgoSystem.Proof.DoubleStraddle.Moves

namespace AlgoSystem.Proof.DoubleStraddle
open AlgoSystem.DoubleStraddle DoubleStraddle.World General

def finalRank : EnginePc → Nat
  | .squareOff .afternoon .pe => 1
  | .finalSleep => 2
  | .exitHedge _ => 3
  | .ended true => 3
  | _ => 0

def FlatBeforeHedgeExit (w : World) : Prop :=
  finalRank w.engine = 3 → ∀ s opt, legDone w s opt = true

def MorningClosed (w : World) : Event → Prop
  | .engine _ => w.engine = .finalSleep →
      legDone w .morning .ce = true ∧ legDone w .morning .pe = true
  | _ => True

instance (w : World) (e : Event) : Decidable (MorningClosed w e) := by
  cases e <;> unfold MorningClosed <;> infer_instance

def Punctual (w : World) : Event → Prop
  | .engine a => w.engine = .top → w.clock ≤ Step.mornExit.minute → Step.mornExit.minute < a.now →
      legDone w .morning .ce = true ∧ legDone w .morning .pe = true
  | .start => Step.mornExit.minute < w.clock →
      legDone w.start .morning .ce = true ∧ legDone w.start .morning .pe = true
  | _ => True

instance (w : World) (e : Event) : Decidable (Punctual w e) := by
  cases e <;> unfold Punctual <;> infer_instance

structure FinalInv (w : World) : Prop where
  ce : 1 ≤ finalRank w.engine → legDone w .afternoon .ce = true
  pe : 2 ≤ finalRank w.engine → legDone w .afternoon .pe = true
  morning : 3 ≤ finalRank w.engine → ∀ opt, legDone w .morning opt = true

variable {w : World}

theorem FinalInv.flat (inv : FinalInv w) : FlatBeforeHedgeExit w := by
  intro rank s opt
  cases s with
  | morning => exact inv.morning rank.ge opt
  | afternoon =>
    cases opt with
    | ce => exact inv.ce (by omega)
    | pe => exact inv.pe (by omega)

theorem FinalInv.of_rank_zero (zero : finalRank w.engine = 0) : FinalInv w :=
  ⟨by omega, by omega, by omega⟩

variable {v : World}

theorem FinalInv.mono (inv : FinalInv w) (engine : v.engine = w.engine)
    (done : ∀ s opt, legDone w s opt = true → legDone v s opt = true) : FinalInv v where
  ce := by
    rw [engine]
    exact fun rank => done _ _ (inv.ce rank)
  pe := by
    rw [engine]
    exact fun rank => done _ _ (inv.pe rank)
  morning := by
    rw [engine]
    exact fun rank opt => done _ _ (inv.morning rank opt)

theorem FinalInv.closeLeg (inv : FinalInv w) (s : Session) (opt : Opt) (reason : Reason)
    (a : Answer) : FinalInv (w.closeLeg s opt reason a) := by
  apply inv.mono (closeLeg_threads w s opt reason a).engine
  intro t o done
  exact closeLeg_legDone_mono done s opt reason a

theorem exitHedge_legDone (w : World) (a : Answer) (pc : ExitPc) (s : Session) (opt : Opt) :
    legDone (w.exitHedge a pc).1 s opt = legDone w s opt := by
  rw [legDone, legDone, (exitHedge_frame w a pc).session]

theorem FinalInv.exitHedge (inv : FinalInv w) (a : Answer) (pc : ExitPc)
    (engine : finalRank v.engine ≤ finalRank w.engine)
    (memory : v.memory = (w.exitHedge a pc).1.memory) : FinalInv v := by
  have kept (s : Session) (opt : Opt) : legDone v s opt = legDone w s opt := by
    rw [← exitHedge_legDone w a pc, legDone, legDone, memory]
  refine ⟨fun rank => ?_, fun rank => ?_, fun rank opt => ?_⟩
  · rw [kept]
    exact inv.ce (rank.trans engine)
  · rw [kept]
    exact inv.pe (rank.trans engine)
  · rw [kept]
    exact inv.morning (rank.trans engine) opt

theorem rank_afterExit (next : Option ExitPc) : finalRank (EnginePc.afterExit next) = 3 := by
  cases next <;> rfl

theorem rank_after (step : Step) : finalRank step.after = 0 := by
  cases step <;> rfl

variable {a : Answer}

theorem engineMove_finalInv (inv : FinalInv w) (closed : MorningClosed w (.engine a))
    (move : EngineMove w a v) : FinalInv v := by
  cases move with
  | stop | sample | raised | beginHedge | enter | buyCe | buyPe | sellCe | sellPe =>
    exact .of_rank_zero rfl
  | beginExit s => cases s <;> exact .of_rank_zero rfl
  | skip step | finish step => exact .of_rank_zero (rank_after step)
  | recordHedge hedge | closeMorning => exact .of_rank_zero rfl
  | record s => exact .of_rank_zero (rank_after (entryStep s))
  | closeCe s =>
    cases s with
    | morning => exact .of_rank_zero rfl
    | afternoon =>
      refine ⟨fun _ => closeLeg_legDone _ _ _ _ _, fun rank => ?_, fun rank => ?_⟩
      · exact absurd rank (by change ¬ 2 ≤ 1; omega)
      · exact absurd rank (by change ¬ 3 ≤ 1; omega)
  | closeAfternoon here =>
    have ce := inv.ce (by rw [here]; exact le_rfl)
    refine ⟨fun _ => closeLeg_legDone_mono ce _ _ _ _, fun _ => closeLeg_legDone _ _ _ _ _, ?_⟩
    intro rank
    exact absurd rank (by change ¬ 3 ≤ 2; omega)
  | wake here =>
    obtain ⟨ce, pe⟩ := closed here
    have rank : finalRank w.engine = 2 := by rw [here]; rfl
    refine ⟨fun _ => inv.ce (by omega), fun _ => inv.pe (by omega), fun _ opt => ?_⟩
    cases opt with
    | ce => exact ce
    | pe => exact pe
  | exitHedge pc here =>
    refine inv.exitHedge a pc ?_ rfl
    rw [here]
    exact (rank_afterExit _).le

theorem guardMove_finalInv (inv : FinalInv w) (move : GuardMove w a v) :
    FinalInv v := by
  cases move with
  | trip | found | missing => exact ⟨inv.ce, inv.pe, inv.morning⟩
  | closeCe s =>
    have closed := inv.closeLeg s .ce .emergencyExit a
    exact ⟨closed.ce, closed.pe, closed.morning⟩
  | closePe s =>
    have closed := inv.closeLeg s .pe .emergencyExit a
    exact ⟨closed.ce, closed.pe, closed.morning⟩
  | exitHedge pc =>
    refine inv.exitHedge a pc ?_ rfl
    exact (congrArg finalRank (exitHedge_frame w a pc).engine).le

theorem step_finalInv (w : World) (e : Event) (v : World) (inv : FinalInv w)
    (closed : MorningClosed w e) (moved : step w e = some v) : FinalInv v := by
  cases step_move moved with
  | start => exact .of_rank_zero rfl
  | crash | exit => exact ⟨inv.ce, inv.pe, inv.morning⟩
  | engine a _ move => exact engineMove_finalInv inv closed move
  | guard a _ move => exact guardMove_finalInv inv move
  | monitorClose s opt reason a => exact inv.closeLeg s opt reason a
  | placeStopLoss _ notes | entryFound _ notes =>
    exact inv.mono notes.threads.engine fun t o before => (notes.done t o).trans before

structure LateInv (w : World) : Prop where
  clock : ClockOk w
  late : Step.mornExit.minute < w.clock → ∀ opt, legDone w .morning opt = true
  final : w.engine = .finalSleep → Step.mornExit.minute < w.clock

theorem LateInv.mono (inv : LateInv w) (engine : v.engine = w.engine) (clock : v.clock = w.clock)
    (done : ∀ opt, legDone w .morning opt = true → legDone v .morning opt = true) : LateInv v where
  clock := inv.clock.same engine clock
  late := by
    rw [clock]
    exact fun late opt => done opt (inv.late late opt)
  final := by
    rw [engine, clock]
    exact inv.final

theorem engineMove_late (inv : LateInv w) (punctual : Punctual w (.engine a))
    (move : EngineMove w a v) (late : Step.mornExit.minute < v.clock) (opt : Opt) :
    legDone v .morning opt = true := by
  rcases engineMove_clock move with same | ⟨top, now⟩
  · rw [same] at late
    have done := inv.late late opt
    rcases engineMove_sessions move with ⟨s, here, rfl⟩ | closes
    · rw [recordSession_legDone]
      split
      · -- the morning is recorded at its own minute, which is before 14:14
        rename_i morning
        have due := inv.clock
        simp only [ClockOk, here, ← morning] at due
        rw [due] at late
        exact absurd late (by decide)
      · exact done
    · exact closes.legDone done
  · rw [now] at late
    have done : legDone w .morning opt = true := by
      rcases Nat.lt_or_ge Step.mornExit.minute w.clock with after | before
      · exact inv.late after opt
      · obtain ⟨ce, pe⟩ := punctual top before late
        cases opt with
        | ce => exact ce
        | pe => exact pe
    rcases engineMove_sessions move with ⟨s, here, -⟩ | closes
    · rw [top] at here
      cases here
    · exact closes.legDone done

theorem engineMove_finalSleep (ok : ClockOk w) (move : EngineMove w a v)
    (sleeps : v.engine = .finalSleep) : Step.mornExit.minute < v.clock := by
  cases move with
  | closeAfternoon here =>
    simp only [ClockOk, here] at ok
    have clock := (closeLeg_threads w .afternoon .pe .timeExit a).clock
    rw [clock, ok]
    decide
  | skip step | finish step => cases step <;> cases sleeps
  | record s => cases s <;> cases sleeps
  | exitHedge pc => cases next : (w.exitHedge a pc).2 <;> simp [next, EnginePc.afterExit] at sleeps
  | stop | sample | raised | beginHedge | enter | beginExit | buyCe | buyPe | recordHedge | sellCe
  | sellPe | closeCe | closeMorning | wake => cases sleeps

theorem step_lateInv (w : World) (e : Event) (v : World) (inv : LateInv w) (punctual : Punctual w e)
    (moved : step w e = some v) : LateInv v := by
  cases step_move moved with
  | start =>
    refine ⟨trivial, fun late opt => ?_, nofun⟩
    obtain ⟨ce, pe⟩ := punctual late
    cases opt with
    | ce => exact ce
    | pe => exact pe
  | crash | exit => exact inv.mono rfl rfl fun _ => id
  | engine a _ move =>
    exact ⟨engineMove_clockOk inv.clock move, engineMove_late inv punctual move,
      engineMove_finalSleep inv.clock move⟩
  | guard a _ move =>
    obtain ⟨engine, clock, -⟩ := guardMove_frame move
    exact inv.mono engine clock fun _ => (guardMove_sessions move).legDone
  | monitorClose s opt reason a =>
    have threads := closeLeg_threads w s opt reason a
    exact inv.mono threads.engine threads.clock fun _ done => closeLeg_legDone_mono done s opt reason a
  | placeStopLoss _ notes | entryFound _ notes =>
    exact inv.mono notes.threads.engine notes.threads.clock fun o before =>
      (notes.done .morning o).trans before

variable {events : List Event}

theorem meets_morningClosed (punctual : Meets step Punctual {} events) :
    Meets step MorningClosed {} events := by
  apply meets_of_invariant step_lateInv _ _ punctual
  · intro w e inv _
    cases e with
    | engine a => exact fun sleeps => ⟨inv.late (inv.final sleeps) .ce, inv.late (inv.final sleeps) .pe⟩
    | start | crash | exit | guard | monitorClose | placeStopLoss | entryFound => trivial
  · exact ⟨trivial, nofun, nofun⟩

def FlatThroughout (events : List Event) : Prop :=
  ∀ before after u, events = before ++ after → run step {} before = some u → FlatBeforeHedgeExit u

theorem flatThroughout_iff (path : run step {} events = some w) :
    FlatThroughout events ↔ Meets step MorningClosed {} events := by
  refine throughout_iff_meets (P := FinalInv) (fun _ inv => inv.flat) step_finalInv ?_ path
    (.of_rank_zero rfl)
  intro u e v _ bad moved here
  cases e with
  | engine a =>
    simp only [MorningClosed, Classical.not_imp] at bad
    obtain ⟨sleeping, opened⟩ := bad
    simp only [step, Option.ite_none_right_eq_some, World.engineStep, sleeping,
      Option.some.injEq] at moved
    obtain ⟨-, rfl⟩ := moved
    have done := here rfl .morning
    exact opened ⟨done .ce, done .pe⟩
  | start | crash | exit | guard | monitorClose | placeStopLoss | entryFound => exact bad trivial

/-- If the loop is punctual at 14:14, no short is open at the final exit of the hedge; in general
exactly when the morning's legs are done each time the engine gets there. -/
theorem flatBeforeHedgeExit_of_punctual (events : List Event) (w : World)
    (path : run step {} events = some w) :
    (Meets step Punctual {} events → FlatThroughout events) ∧
    (FlatThroughout events ↔ Meets step MorningClosed {} events) := by
  refine ⟨?_, flatThroughout_iff path⟩
  intro punctual
  exact (flatThroughout_iff path).mpr (meets_morningClosed punctual)

def wholeTimetable : List Event :=
  .start :: hedgePass ++ morningPass ++ morningExitPass ++ finalPass

theorem flatBeforeHedgeExit_whole_timetable :
    (worldAfter wholeTimetable).engine = .ended true ∧
    FlatBeforeHedgeExit (worldAfter wholeTimetable) := by
  have path : run step {} wholeTimetable =
      some (worldAfter wholeTimetable) := by decide +kernel
  have punctual : Meets step Punctual {} wholeTimetable := by decide +kernel
  have flat := (flatBeforeHedgeExit_of_punctual _ _ path).1 punctual
  exact ⟨by decide +kernel, flat _ [] _ (by simp) path⟩

def morningExitMissed : List Event := .start :: hedgePass ++ morningPass ++ finalPass

theorem flatBeforeHedgeExit_fails_morning_exit_missed :
    run step {} morningExitMissed = some (worldAfter morningExitMissed) ∧
    (worldAfter morningExitMissed).engine = .ended true ∧
    legDone (worldAfter morningExitMissed) .morning .ce = false ∧
    ¬ FlatBeforeHedgeExit (worldAfter morningExitMissed) := by
  have opened : legDone (worldAfter morningExitMissed) .morning .ce = false := by
    decide +kernel
  refine ⟨by decide +kernel, by decide +kernel, opened, fun flat => ?_⟩
  have done := flat (by decide +kernel) .morning .ce
  rw [opened] at done
  cases done

end AlgoSystem.Proof.DoubleStraddle
