import AlgoSystem.Proof.DoubleStraddle.Moves
import Mathlib.Data.List.Pairwise

namespace AlgoSystem.Proof.DoubleStraddle
open AlgoSystem.DoubleStraddle DoubleStraddle.World General List

def isStraddleSell : OrderLog → Bool
  | .straddleSell _ _ _ => true
  | _ => false

def sellsHedge : OrderLog → Bool
  | .hedgeSell _ _ => true
  | _ => false

def HedgeLast (log : List OrderLog) : Prop :=
  log.Pairwise fun earlier later => sellsHedge earlier = true → isStraddleSell later = false

def sold (w : World) (s : Session) (opt : Opt) : Prop := .straddleSell s opt true ∈ w.log

def boughtBack (w : World) (s : Session) (opt : Opt) : Prop :=
  .buyBack s opt true ∈ w.log ∨ .stopLossFilled s opt ∈ w.log

def Quiescent (w : World) : Prop :=
  w.alive = false ∨ ((∃ final, w.engine = .ended final) ∧ w.guard = .finished)

structure Flattened (w : World) : Prop where
  hedgeLast : HedgeLast w.log
  covered : w.killSwitch = true → Quiescent w → ∀ s opt, sold w s opt → boughtBack w s opt

def stepIndex : Step → Nat
  | .hedge => 0
  | .morn => 1
  | .mornExit => 2
  | .aft => 3
  | .final => 4

def canEnter (w : World) (s : Session) : Bool :=
  match w.engine with
  | .at step => w.clock = (entryStep s).minute ∧ stepIndex step ≤ stepIndex (entryStep s) ∧
      entryStep s ∉ w.doneSteps ∧ recordedIn w s = false
  | .sell t _ | .record t => t = s
  | _ => false

def Orderly (w : World) : Event → Prop
  | .start | .crash => False
  | .exit => w.killSwitch = true → w.guard = .finished
  | .engine a => engineCloses w.engine = true → a.accepted = true
  | .guard a => (∀ s, w.guard = .check s → canEnter w s = false) ∧
      (guardCloses w.guard = true → a.accepted = true)
  | .monitorClose _ _ _ a => a.accepted = true
  | .placeStopLoss .. | .entryFound .. => True

instance {p : Session → Prop} [DecidablePred p] : Decidable (∀ s, p s) :=
  decidable_of_iff (p .morning ∧ p .afternoon)
    ⟨fun both s => match s with
      | .morning => both.1
      | .afternoon => both.2, fun all => ⟨all _, all _⟩⟩

instance (w : World) : DecidablePred (Orderly w)
  | .start | .crash => inferInstanceAs (Decidable False)
  | .exit => inferInstanceAs (Decidable (_ → _))
  | .engine _ => inferInstanceAs (Decidable (_ → _))
  | .guard _ => inferInstanceAs (Decidable ((∀ _, _ → _) ∧ (_ → _)))
  | .monitorClose _ _ _ a => inferInstanceAs (Decidable (a.accepted = true))
  | .placeStopLoss .. | .entryFound .. => inferInstanceAs (Decidable True)

def guardRank : GuardPc → Nat
  | .watching => 0
  | .check .morning => 1
  | .squareOff .morning .ce => 2
  | .squareOff .morning .pe => 3
  | .check .afternoon => 4
  | .squareOff .afternoon .ce => 5
  | .squareOff .afternoon .pe => 6
  | .exitHedge _ => 7
  | .finished => 7

def passRank : Session → Nat
  | .morning => 2
  | .afternoon => 5

def doneRank : Session → Opt → Nat
  | .morning, .ce => 3
  | .morning, .pe => 4
  | .afternoon, .ce => 6
  | .afternoon, .pe => 7

theorem passRank_lt_doneRank (s : Session) (opt : Opt) : passRank s < doneRank s opt := by
  cases s <;> cases opt <;> decide

theorem doneRank_le (s : Session) (opt : Opt) : doneRank s opt ≤ 7 := by
  cases s <;> cases opt <;> decide

theorem rank_afterExit_guard (next : Option ExitPc) : guardRank (GuardPc.afterExit next) = 7 := by
  cases next <;> rfl

variable {w : World} {s : Session}

theorem canEnter_at {step : Step} (here : w.engine = .at step) :
    canEnter w s = true ↔
      w.clock = (entryStep s).minute ∧ stepIndex step ≤ stepIndex (entryStep s) ∧
        entryStep s ∉ w.doneSteps ∧ recordedIn w s = false := by
  simp [canEnter, here]

theorem stepIndex_lt_after {step next : Step} (after : step.after = .at next) :
    stepIndex step < stepIndex next := by
  cases step <;> cases after <;> decide

variable {v : World} {a : Answer}

theorem canEnter_of_engineMove (ok : ClockOk w) (killed : w.killSwitch = true)
    (move : EngineMove w a v) (can : canEnter v s = true) :
    canEnter w s = true := by
  have goesOn {step : Step} {u : World} (can : canEnter u s = true) (here : w.engine = .at step)
      (there : u.engine = step.after) (clock : u.clock = w.clock)
      (done : w.doneSteps ⊆ u.doneSteps) (recorded : recordedIn u s = recordedIn w s) :
      canEnter w s = true := by
    cases next : step.after with
    | «at» step' =>
      rw [next] at there
      obtain ⟨due, before, undone, new⟩ := (canEnter_at there).mp can
      have lt := stepIndex_lt_after next
      exact (canEnter_at here).mpr
        ⟨clock ▸ due, by omega, fun member => undone (done member), recorded ▸ new⟩
    | top | buyHedge | recordHedge | sell | record | squareOff | finalSleep | exitHedge | ended =>
      cases step <;> cases next <;> simp [canEnter, there, Step.after] at can
  cases move with
  | stop | raised | beginHedge | beginExit | buyCe | buyPe | closeAfternoon | wake | closeCe t =>
    cases can
  | sample _ running =>
    rw [killed] at running
    cases running
  | skip step here => exact goesOn can here rfl rfl (List.Subset.refl _) rfl
  | finish step here => exact goesOn can here rfl rfl (subset_cons_self _ _) rfl
  | enter t here due undone _ new =>
    have same : t = s := by simpa [canEnter] using can
    subst same
    exact (canEnter_at here).mpr ⟨due, le_rfl, undone, new⟩
  | recordHedge hedge here =>
    simp only [ClockOk, here] at ok
    have due := ((canEnter_at rfl).mp can).1
    simp only [finishStep_clock, World.recordHedge, save_clock] at due
    rw [ok] at due
    cases s <;> cases due
  | sellCe t here | sellPe t here =>
    have same : t = s := by simpa [canEnter] using can
    simp [canEnter, here, same]
  | record t here =>
    simp only [ClockOk, here] at ok
    cases t with
    | morning =>
      obtain ⟨due, before, -⟩ := (canEnter_at rfl).mp can
      simp only [finishStep_clock, World.recordSession, save_clock] at due
      rw [ok] at due
      cases s with
      | morning => exact absurd before (by decide)
      | afternoon => cases due
    | afternoon =>
      have before := ((canEnter_at rfl).mp can).2.1
      cases s <;> exact absurd before (by decide)
  | closeMorning here =>
    simp only [ClockOk, here] at ok
    obtain ⟨due, before, -⟩ := (canEnter_at rfl).mp can
    have clock := (closeLeg_threads w .morning .pe .timeExit a).clock
    rw [finishStep_clock, clock, ok] at due
    cases s with
    | morning => exact absurd before (by decide)
    | afternoon => cases due
  | exitHedge pc =>
    cases next : (w.exitHedge a pc).2 <;> simp [canEnter, next, EnginePc.afterExit] at can

def engineLeaves : EnginePc → Bool
  | .exitHedge _ => true
  | .ended true => true
  | _ => false

def Leaving (w : World) : Prop := guardRank w.guard = 7 ∨ engineLeaves w.engine = true

/-- At most one order is logged, a SELL of a straddle only by an engine that sells. -/
def Adds (selling : Prop) (w v : World) : Prop :=
  v.log = w.log ∨ ∃ order, v.log = w.log ++ [order] ∧ (isStraddleSell order = true → selling) ∧
    (sellsHedge order = true → Leaving v)

variable {selling : Prop}

theorem Adds.subset (adds : Adds selling w v) : w.log ⊆ v.log := by
  rcases adds with same | ⟨order, log, -⟩
  · exact same ▸ List.Subset.refl _
  · exact log ▸ subset_append_left _ _

theorem adds_closeLeg {opt : Opt} {reason : Reason}
    (log : v.log = (w.closeLeg s opt reason a).log) : Adds selling w v := by
  rcases closeLeg_cases w s opt reason a with ⟨same, -⟩ | ⟨order, -, -, kind, -, grown, -⟩
  · exact .inl (by rw [log, same])
  · refine .inr ⟨order, log.trans grown, ?_⟩
    rcases kind with rfl | rfl <;> exact ⟨nofun, nofun⟩

theorem exitHedge_log (w : World) (a : Answer) (pc : ExitPc) :
    (w.exitHedge a pc).1.log = w.log ∨
      ∃ token, (w.exitHedge a pc).1.log = w.log ++ [.hedgeSell token a.accepted] := by
  cases pc with
  | begin =>
    unfold World.exitHedge
    cases w.memory.hedge <;> exact .inl rfl
  | sell hedge opt =>
    simp only [World.exitHedge]
    split
    · exact .inr ⟨_, rfl⟩
    · exact .inl rfl
  | clear => exact .inl (by simp [World.exitHedge])

theorem engineLeaves_afterExit (next : Option ExitPc) :
    engineLeaves (EnginePc.afterExit next) = true := by
  cases next <;> rfl

theorem engineMove_log (move : EngineMove w a v) :
    Adds (∃ s opt, w.engine = .sell s opt) w v := by
  cases move with
  | stop | sample | skip | finish | raised | beginHedge | enter | beginExit | wake => exact .inl rfl
  | buyCe | buyPe => exact .inr ⟨_, rfl, nofun, nofun⟩
  | recordHedge hedge | record s => exact .inl (by simp)
  | sellCe s here | sellPe s here => exact .inr ⟨_, rfl, fun _ => ⟨s, _, here⟩, nofun⟩
  | closeCe | closeMorning | closeAfternoon => exact adds_closeLeg rfl
  | exitHedge pc =>
    rcases exitHedge_log w a pc with same | ⟨token, log⟩
    · exact .inl same
    · exact .inr ⟨_, log, nofun, fun _ => .inr (engineLeaves_afterExit _)⟩

def DoneBought (w : World) : Prop :=
  ∀ s opt, recordedIn w s = true → legDone w s opt = true → boughtBack w s opt

theorem boughtBack_mono {opt : Opt} (grows : w.log ⊆ v.log) (bought : boughtBack w s opt) :
    boughtBack v s opt :=
  bought.imp (fun member => grows member) (fun member => grows member)

theorem DoneBought.same (inv : DoneBought w) (grows : w.log ⊆ v.log)
    (session : ∀ s, v.memory.session s = w.memory.session s) : DoneBought v := by
  intro s opt recorded done
  rw [recordedIn, session] at recorded
  rw [legDone, session] at done
  exact boughtBack_mono grows (inv s opt recorded done)

theorem DoneBought.closeLeg (inv : DoneBought w) (accepted : a.accepted = true) (s : Session)
    (opt : Opt) (reason : Reason) :
    DoneBought (w.closeLeg s opt reason a) := by
  intro t o recorded done
  rcases closeLeg_cases w s opt reason a with ⟨same, -⟩ | ⟨order, -, -, kind, threads, log, after⟩
  · rw [same] at recorded done ⊢
    exact inv t o recorded done
  · rw [threads.recorded] at recorded
    rw [after] at done
    split at done
    · rename_i this
      obtain ⟨rfl, rfl⟩ := this
      unfold boughtBack
      rw [log]
      rcases kind with rfl | rfl
      · exact .inr (by simp)
      · exact .inl (by simp [accepted])
    · apply boughtBack_mono _ (inv t o recorded done)
      rw [log]
      exact subset_append_left _ _

theorem ClosesAtMost.doneBought {closing : Bool} (closes : ClosesAtMost w v closing a)
    (inv : DoneBought w) (grows : w.log ⊆ v.log) (accepted : closing = true → a.accepted = true) :
    DoneBought v := by
  rcases closes with same | ⟨s, opt, reason, here, memory, log⟩
  · exact inv.same grows same
  · have closed := inv.closeLeg (accepted here) s opt reason
    intro t o recorded done
    rw [DoubleStraddle.recordedIn, memory] at recorded
    rw [DoubleStraddle.legDone, memory] at done
    have bought := closed t o recorded done
    unfold boughtBack at bought ⊢
    rwa [log]

theorem engineMove_doneBought (inv : DoneBought w)
    (accepted : engineCloses w.engine = true → a.accepted = true) (move : EngineMove w a v) :
    DoneBought v := by
  have grows := (engineMove_log move).subset
  rcases engineMove_sessions move with ⟨s, here, rfl⟩ | closes
  · intro t opt recorded done
    rw [recordSession_recordedIn] at recorded
    rw [recordSession_legDone] at done
    split at done
    · cases done
    · rename_i other
      rw [if_neg other] at recorded
      exact boughtBack_mono grows (inv t opt recorded done)
  · exact closes.doneBought inv grows accepted

def pastSell : EnginePc → Session → Opt → Bool
  | .record t, s, _ => t = s
  | .sell t .pe, s, .ce => t = s
  | _, _, _ => false

def SoldKnown (w : World) : Prop :=
  ∀ s opt, sold w s opt → recordedIn w s = true ∨ pastSell w.engine s opt = true

theorem SoldKnown.moves (inv : SoldKnown w) (adds : Adds selling w v) (other : ¬ selling)
    (kept : ∀ s opt, pastSell w.engine s opt = true → pastSell v.engine s opt = true)
    (recorded : ∀ s, recordedIn v s = recordedIn w s) : SoldKnown v := by
  intro s opt sells
  have before : sold w s opt := by
    unfold sold at sells ⊢
    rcases adds with same | ⟨order, log, sale, -⟩
    · rwa [same] at sells
    · rw [log, mem_append, mem_singleton] at sells
      rcases sells with old | rfl
      · exact old
      · exact absurd (sale rfl) other
  rcases inv s opt before with known | past
  · exact .inl ((recorded s).trans known)
  · exact .inr (kept s opt past)

theorem SoldKnown.sells {opt : Opt} {accepted : Bool} (inv : SoldKnown w)
    (log : v.log = w.log ++ [.straddleSell s opt accepted])
    (recorded : ∀ t, recordedIn v t = recordedIn w t) (past : pastSell v.engine s opt = true)
    (kept : ∀ t o, pastSell w.engine t o = true → pastSell v.engine t o = true) : SoldKnown v := by
  intro t o sells
  unfold sold at sells
  rw [log, mem_append, mem_singleton] at sells
  rcases sells with old | new
  · rcases inv t o old with known | before
    · exact .inl ((recorded t).trans known)
    · exact .inr (kept t o before)
  · cases new
    exact .inr past

theorem engineMove_recordedIn (move : EngineMove w a v) (elsewhere : ∀ s, w.engine ≠ .record s)
    (s : Session) : recordedIn v s = recordedIn w s := by
  rcases engineMove_sessions move with ⟨t, here, -⟩ | closes
  · exact absurd here (elsewhere t)
  · exact closes.recordedIn s

theorem engineMove_soldKnown (inv : SoldKnown w) (move : EngineMove w a v) : SoldKnown v := by
  have adds := engineMove_log move
  have recorded := engineMove_recordedIn move
  cases move with
  | sellCe s here =>
    exact inv.sells rfl (fun _ => rfl) (by simp [pastSell]) (by simp [here, pastSell])
  | sellPe s here =>
    refine inv.sells rfl (fun _ => rfl) (by simp [pastSell]) ?_
    intro t o past
    cases o with
    | ce => simpa [here, pastSell] using past
    | pe => simp [here, pastSell] at past
  | record s here =>
    intro t o sells
    rw [recordSession_recordedIn]
    have before : sold w t o := by simpa [sold] using sells
    left
    split
    · rfl
    · rename_i other
      refine (inv t o before).resolve_right fun past => other ?_
      simpa [here, pastSell, eq_comm] using past
  | _ => exact inv.moves adds (by simp [*]) (by simp [*, pastSell]) (recorded (by simp [*]))

def HedgeGone (w : World) : Prop := (∃ order ∈ w.log, sellsHedge order = true) → Leaving w

theorem Adds.hedge (adds : Adds selling w v) (hedge : HedgeGone w ∧ HedgeLast w.log)
    (kept : Leaving w → Leaving v) (free : selling → ¬ Leaving w) :
    HedgeGone v ∧ HedgeLast v.log := by
  obtain ⟨gone, last⟩ := hedge
  rcases adds with same | ⟨order, log, sale, leaves⟩
  · unfold HedgeGone
    rw [same]
    exact ⟨fun sells => kept (gone sells), last⟩
  · constructor
    · rintro ⟨earlier, member, sells⟩
      rw [log, mem_append, mem_singleton] at member
      rcases member with old | rfl
      · exact kept (gone ⟨earlier, old, sells⟩)
      · exact leaves sells
    · rw [log]
      refine pairwise_append.mpr ⟨last, pairwise_singleton _ _, ?_⟩
      intro earlier member later this sells
      rw [mem_singleton.mp this, ← Bool.not_eq_true]
      intro straddle
      exact free (sale straddle) (gone ⟨earlier, member, sells⟩)

theorem engineLeaves_of_move (move : EngineMove w a v) (leaves : engineLeaves w.engine = true) :
    engineLeaves v.engine = true := by
  cases move with
  | exitHedge pc => exact engineLeaves_afterExit _
  | _ => simp [*, engineLeaves] at leaves

section
variable (move : GuardMove w a v)
include move

theorem guardMove_killSwitch :
    v.guard ≠ .watching ∧
      (v.killSwitch = true ∨ v.killSwitch = w.killSwitch ∧ w.guard ≠ .watching) := by
  have closes (s : Session) (opt : Opt) := (closeLeg_threads w s opt .emergencyExit a).killSwitch
  have session (s : Session) : GuardPc.afterSession s ≠ .watching := by cases s <;> nofun
  cases move with
  | trip => exact ⟨nofun, .inl rfl⟩
  | found s here => exact ⟨nofun, .inr ⟨rfl, by simp [here]⟩⟩
  | missing s here => exact ⟨session s, .inr ⟨rfl, by simp [here]⟩⟩
  | closeCe s here => exact ⟨nofun, .inr ⟨closes s .ce, by simp [here]⟩⟩
  | closePe s here => exact ⟨session s, .inr ⟨closes s .pe, by simp [here]⟩⟩
  | exitHedge pc here =>
    refine ⟨?_, .inr ⟨(exitHedge_frame w a pc).killSwitch, by simp [here]⟩⟩
    cases (w.exitHedge a pc).2 <;> nofun

theorem guardMove_passed {t : Session} (passed : passRank t ≤ guardRank v.guard) :
    passRank t ≤ guardRank w.guard ∨ w.guard = .check t := by
  cases move with
  | trip => cases t <;> simp [guardRank, passRank] at passed
  | found s here | missing s here | closeCe s here | closePe s here =>
    rw [here]
    revert passed
    cases s <;> cases t <;> simp [guardRank, passRank, GuardPc.afterSession]
  | exitHedge pc here =>
    rw [here]
    exact .inl ((passRank_lt_doneRank t .pe).le.trans (doneRank_le t .pe))

theorem guardMove_left {t : Session} {o : Opt} (behind : doneRank t o ≤ guardRank v.guard) :
    doneRank t o ≤ guardRank w.guard ∨ legDone v t o = true := by
  cases move with
  | trip => cases t <;> cases o <;> simp [guardRank, doneRank] at behind
  | found s here =>
    rw [here]
    revert behind
    cases s <;> cases t <;> cases o <;> simp [guardRank, doneRank]
  | missing s here absent =>
    rw [here]
    by_cases same : t = s
    · subst same
      right
      have none : w.memory.session t = none := by simpa [recordedIn] using absent
      simp [legDone, none]
    · left
      revert behind same
      cases s <;> cases t <;> cases o <;> simp [guardRank, doneRank, GuardPc.afterSession]
  | closeCe s here =>
    rw [here]
    by_cases same : t = s ∧ o = .ce
    · obtain ⟨rfl, rfl⟩ := same
      exact .inr (closeLeg_legDone w t .ce .emergencyExit a)
    · left
      revert behind same
      cases s <;> cases t <;> cases o <;> simp [guardRank, doneRank]
  | closePe s here =>
    rw [here]
    by_cases same : t = s ∧ o = .pe
    · obtain ⟨rfl, rfl⟩ := same
      exact .inr (closeLeg_legDone w t .pe .emergencyExit a)
    · left
      revert behind same
      cases s <;> cases t <;> cases o <;> simp [guardRank, doneRank, GuardPc.afterSession]
  | exitHedge pc here =>
    rw [here]
    exact .inl (doneRank_le t o)

theorem guardMove_log : Adds False w v := by
  cases move with
  | trip | found | missing => exact .inl rfl
  | closeCe | closePe => exact adds_closeLeg rfl
  | exitHedge pc =>
    rcases exitHedge_log w a pc with same | ⟨token, log⟩
    · exact .inl same
    · exact .inr ⟨_, log, nofun, fun _ => .inl (rank_afterExit_guard _)⟩

theorem guardMove_left_hedge (rank : guardRank w.guard = 7) : guardRank v.guard = 7 := by
  cases move with
  | exitHedge pc => exact rank_afterExit_guard _
  | trip here => simp [here, guardRank] at rank
  | found s here | missing s here | closeCe s here | closePe s here =>
    rw [here] at rank
    cases s <;> cases rank

end

structure EmergencyInv (w : World) : Prop where
  clock : ClockOk w
  kill : w.killSwitch = true ↔ w.guard ≠ .watching
  passed : ∀ s, passRank s ≤ guardRank w.guard → canEnter w s = false
  flat : ∀ s opt, doneRank s opt ≤ guardRank w.guard → legDone w s opt = true
  sold : SoldKnown w
  bought : DoneBought w
  hedge : HedgeGone w ∧ HedgeLast w.log
  dead : w.alive = false →
    (∃ final, w.engine = .ended final) ∧ (w.killSwitch = true → w.guard = .finished)

theorem EmergencyInv.flattened (inv : EmergencyInv w) : Flattened w := by
  refine ⟨inv.hedge.2, ?_⟩
  intro killed quiet s opt sells
  obtain ⟨⟨final, ended⟩, finished⟩ : (∃ final, w.engine = .ended final) ∧ w.guard = .finished := by
    rcases quiet with dead | both
    · exact ⟨(inv.dead dead).1, (inv.dead dead).2 killed⟩
    · exact both
  have recorded : recordedIn w s = true :=
    (inv.sold s opt sells).resolve_right (by simp [ended, pastSell])
  have done : legDone w s opt = true := by
    apply inv.flat
    rw [finished]
    exact doneRank_le s opt
  exact inv.bought s opt recorded done

theorem killed_of_rank (inv : EmergencyInv w) (rank : 0 < guardRank w.guard) :
    w.killSwitch = true := by
  apply inv.kill.mpr
  intro watching
  simp [watching, guardRank] at rank

theorem EmergencyInv.engine (inv : EmergencyInv w) (alive : w.alive = true)
    (accepted : engineCloses w.engine = true → a.accepted = true) (move : EngineMove w a v) :
    EmergencyInv v := by
  obtain ⟨kill, guard, lives⟩ := engineMove_frame move
  constructor
  · exact engineMove_clockOk inv.clock move
  · rw [kill, guard]
    exact inv.kill
  · intro s rank
    rw [guard] at rank
    have killed := killed_of_rank inv (by cases s <;> exact Nat.lt_of_lt_of_le (by decide) rank)
    rw [← Bool.not_eq_true]
    intro can
    have before := canEnter_of_engineMove inv.clock killed move can
    rw [inv.passed s rank] at before
    cases before
  · intro s opt rank
    rw [guard] at rank
    have done := inv.flat s opt rank
    rcases engineMove_sessions move with ⟨t, here, rfl⟩ | closes
    · rw [recordSession_legDone, if_neg ?_]
      · exact done
      · -- a session that the guard has passed cannot be recorded any more
        rintro rfl
        have free := inv.passed s ((passRank_lt_doneRank s opt).le.trans rank)
        simp [canEnter, here] at free
    · exact closes.legDone done
  · exact engineMove_soldKnown inv.sold move
  · exact engineMove_doneBought inv.bought accepted move
  · refine (engineMove_log move).hedge inv.hedge (Or.imp (guard ▸ ·) (engineLeaves_of_move move)) ?_
    rintro ⟨s, opt, here⟩ (rank | leaves)
    · have free := inv.passed s (by rw [rank]; cases s <;> decide)
      simp [canEnter, here] at free
    · simp [here, engineLeaves] at leaves
  · rw [lives, alive]
    nofun

theorem canEnter_congr (engine : v.engine = w.engine) (clock : v.clock = w.clock)
    (doneSteps : v.doneSteps = w.doneSteps) (recorded : ∀ s, recordedIn v s = recordedIn w s)
    (s : Session) : canEnter v s = canEnter w s := by
  simp only [canEnter, engine, clock, doneSteps, recorded]

section
variable (inv : EmergencyInv w)
include inv

theorem EmergencyInv.guard (alive : w.alive = true)
    (looks : ∀ s, w.guard = .check s → canEnter w s = false)
    (accepted : guardCloses w.guard = true → a.accepted = true) (move : GuardMove w a v) :
    EmergencyInv v := by
  obtain ⟨engine, clock, doneSteps, lives, recorded⟩ := guardMove_frame move
  obtain ⟨awake, kill⟩ := guardMove_killSwitch move
  constructor
  · exact inv.clock.same engine clock
  · refine iff_of_true ?_ awake
    rcases kill with killed | ⟨same, before⟩
    · exact killed
    · rw [same]
      exact inv.kill.mpr before
  · intro s rank
    rw [canEnter_congr engine clock doneSteps recorded]
    rcases guardMove_passed move rank with before | looking
    · exact inv.passed s before
    · exact looks s looking
  · intro s opt rank
    rcases guardMove_left move rank with before | done
    · exact (guardMove_sessions move).legDone (inv.flat s opt before)
    · exact done
  · exact inv.sold.moves (guardMove_log move) id (by simp [engine]) recorded
  · exact (guardMove_sessions move).doneBought inv.bought (guardMove_log move).subset accepted
  · exact (guardMove_log move).hedge inv.hedge
      (Or.imp (guardMove_left_hedge move) (engine ▸ ·)) False.elim
  · rw [lives, alive]
    nofun

theorem EmergencyInv.threads (same : SameThreads v w) (adds : Adds False w v)
    (done : ∀ s opt, legDone w s opt = true → legDone v s opt = true) (bought : DoneBought v) :
    EmergencyInv v := by
  constructor
  · exact inv.clock.same same.engine same.clock
  · rw [same.killSwitch, same.guard]
    exact inv.kill
  · intro s rank
    rw [canEnter_congr same.engine same.clock same.doneSteps same.recorded]
    exact inv.passed s (same.guard ▸ rank)
  · intro s opt rank
    exact done s opt (inv.flat s opt (same.guard ▸ rank))
  · exact inv.sold.moves adds id (by simp [same.engine]) same.recorded
  · exact bought
  · exact adds.hedge inv.hedge (by simp [Leaving, same.guard, same.engine]) False.elim
  · rw [same.alive, same.engine, same.killSwitch, same.guard]
    exact inv.dead

theorem EmergencyInv.closeLeg (accepted : a.accepted = true) (s : Session) (opt : Opt)
    (reason : Reason) : EmergencyInv (w.closeLeg s opt reason a) := by
  apply inv.threads (closeLeg_threads w s opt reason a) (adds_closeLeg rfl)
  · intro t o done
    exact closeLeg_legDone_mono done s opt reason a
  · exact inv.bought.closeLeg accepted s opt reason

theorem EmergencyInv.notes (notes : Notes v w) : EmergencyInv v := by
  have adds : Adds False w v :=
    notes.log.imp_right fun ⟨_, _, _, _, _, log⟩ => ⟨_, log, nofun, nofun⟩
  refine inv.threads notes.threads adds (fun t o => by simp [notes.done]) ?_
  intro t o recorded after
  rw [notes.threads.recorded] at recorded
  rw [notes.done] at after
  exact boughtBack_mono adds.subset (inv.bought t o recorded after)

theorem EmergencyInv.exit {final : Bool} (ended : w.engine = .ended final)
    (orderly : w.killSwitch = true → w.guard = .finished) :
    EmergencyInv { w with alive := false } :=
  { inv with
    clock := inv.clock.same rfl rfl
    dead := fun _ => ⟨⟨final, ended⟩, orderly⟩ }

theorem EmergencyInv.step {e : Event} (orderly : Orderly w e)
    (moved : AlgoSystem.DoubleStraddle.step w e = some v) : EmergencyInv v := by
  cases step_move moved with
  | start | crash => exact orderly.elim
  | exit final ended => exact inv.exit ended orderly
  | engine a alive move => exact inv.engine alive orderly move
  | guard a alive move => exact inv.guard alive orderly.1 orderly.2 move
  | monitorClose s opt reason a => exact inv.closeLeg orderly s opt reason
  | placeStopLoss _ notes | entryFound _ notes => exact inv.notes notes

end

theorem emergencyInv_start : EmergencyInv ({} : World).start where
  clock := trivial
  kill := by decide
  passed := by
    intro s
    cases s <;> decide
  flat := by
    intro s opt
    cases s <;> cases opt <;> decide
  sold := by simp [SoldKnown, sold, World.start]
  bought := by
    intro s opt recorded
    cases s <;> cases recorded
  hedge := by simp [HedgeGone, HedgeLast, World.start]
  dead := nofun

theorem flattened_of_orderly {events : List Event} {w : World}
    (path : run step ({} : World).start events = some w)
    (orderly : Meets step Orderly ({} : World).start events) : Flattened w :=
  (run_invariant_of_meets (fun _ _ _ inv this moved => inv.step this moved) path orderly
    emergencyInv_start).flattened

def squaredOff : List Event :=
  hedgePass ++ morningPass ++
    [.guard {}, .guard {}, .guard {}, .guard {}, .guard {}, .guard {}, .guard {}, .guard {},
      .guard {}, .engine {}, .exit]

def emergencyAfter (events : List Event) : World := (run step ({} : World).start events).getD {}

theorem flattened_squaredOff :
    Flattened (emergencyAfter squaredOff) ∧ (emergencyAfter squaredOff).killSwitch = true ∧
      sold (emergencyAfter squaredOff) .morning .pe ∧
      boughtBack (emergencyAfter squaredOff) .morning .pe := by
  have path : run step ({} : World).start squaredOff = some (emergencyAfter squaredOff) := by
    decide +kernel
  have orderly : Meets step Orderly ({} : World).start squaredOff := by decide +kernel
  have flat := flattened_of_orderly path orderly
  have killed : (emergencyAfter squaredOff).killSwitch = true := by decide +kernel
  have quiet : (emergencyAfter squaredOff).alive = false := by decide +kernel
  have sells : sold (emergencyAfter squaredOff) .morning .pe := by
    unfold sold
    decide +kernel
  exact ⟨flat, killed, sells, flat.covered killed (.inl quiet) _ _ sells⟩

def squaredOffTooEarly : List Event :=
  hedgePass ++
    [.engine { now := 625 }, .engine {}, .engine { strikes := some (25500, 23500) }, .engine {},
      .guard {}, .guard {}, .guard {}, .guard {}, .guard {}, .guard {}, .guard {},
      .engine {}, .engine { ceEntry := some 100, peEntry := some 100 }, .engine {}, .engine {},
      .engine {}, .engine {}]

theorem not_flattened_squaredOffTooEarly :
    run step ({} : World).start squaredOffTooEarly = some (emergencyAfter squaredOffTooEarly) ∧
    (emergencyAfter squaredOffTooEarly).killSwitch = true ∧
    Quiescent (emergencyAfter squaredOffTooEarly) ∧
    sold (emergencyAfter squaredOffTooEarly) .morning .ce ∧
    ¬ boughtBack (emergencyAfter squaredOffTooEarly) .morning .ce ∧
    ¬ HedgeLast (emergencyAfter squaredOffTooEarly).log := by
  have log : (emergencyAfter squaredOffTooEarly).log =
      [.hedgeBuy ⟨25500, .ce⟩ true, .hedgeBuy ⟨23500, .pe⟩ true, .straddleSell .morning .ce true,
        .hedgeSell ⟨25500, .ce⟩ true, .hedgeSell ⟨23500, .pe⟩ true,
        .straddleSell .morning .pe true] := by
    decide +kernel
  refine ⟨by decide +kernel, by decide +kernel, .inr ⟨⟨false, by decide +kernel⟩, by decide +kernel⟩,
    ?_, ?_, ?_⟩
  · simp [sold, log]
  · simp [boughtBack, log]
  · simp [HedgeLast, log, sellsHedge, isStraddleSell]

end AlgoSystem.Proof.DoubleStraddle
