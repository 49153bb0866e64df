import AlgoSystem.Proof.DoubleStraddle.Emergency

namespace AlgoSystem.Proof.DoubleStraddle
open AlgoSystem.DoubleStraddle DoubleStraddle.World General List

def legBuy : OrderLog → Option (Session × Opt)
  | .buyBack s opt _ | .stopLoss s opt _ => some (s, opt)
  | _ => none

structure LegsTruthful (w : World) : Prop where
  opened : ∀ s opt, recordedIn w s = true → legDone w s opt = false → sold w s opt
  closed : ∀ s opt, recordedIn w s = true → legDone w s opt = true → boughtBack w s opt

structure Truthful (w : World) : Prop extends LegsTruthful w where
  bought : ∀ order ∈ w.log, ∀ s opt, legBuy order = some (s, opt) → sold w s opt

def buysBack (w : World) (s : Session) (opt : Opt) (a : Answer) : Bool :=
  (w.memory.session s).any fun session =>
    !(session.leg opt).done && !((session.leg opt).slOid.isSome && a.stopLossFilled)

def CloseAccepted (w : World) (s : Session) (opt : Opt) (a : Answer) : Prop :=
  buysBack w s opt a = true → a.accepted = true ∨ boughtBack w s opt

def EngineHonoured (w : World) (a : Answer) : EnginePc → Prop
  | .record s => sold w s .ce ∧ sold w s .pe
  | .squareOff s opt => CloseAccepted w s opt a
  | _ => True

def GuardHonoured (w : World) (a : Answer) : GuardPc → Prop
  | .squareOff s opt => CloseAccepted w s opt a
  | _ => True

/-- A session is recorded only after both SELLs are accepted, and a leg that is not bought back yet
is closed only with an accepted buy-back or by its stop-loss. -/
def Honoured (w : World) : Event → Prop
  | .engine a => EngineHonoured w a w.engine
  | .guard a => GuardHonoured w a w.guard
  | .monitorClose s opt _ a => CloseAccepted w s opt a
  | _ => True

instance (w : World) (s : Session) (opt : Opt) : Decidable (sold w s opt) :=
  inferInstanceAs (Decidable (_ ∈ _))

instance (w : World) (s : Session) (opt : Opt) : Decidable (boughtBack w s opt) :=
  inferInstanceAs (Decidable (_ ∨ _))

instance (w : World) (s : Session) (opt : Opt) (a : Answer) : Decidable (CloseAccepted w s opt a) :=
  inferInstanceAs (Decidable (_ = _ → _ ∨ _))

instance (w : World) (a : Answer) : DecidablePred (EngineHonoured w a)
  | .record s => inferInstanceAs (Decidable (sold w s .ce ∧ sold w s .pe))
  | .squareOff s opt => inferInstanceAs (Decidable (CloseAccepted w s opt a))
  | .top | .at _ | .buyHedge _ _ _ | .recordHedge _ | .sell _ _ => .isTrue trivial
  | .finalSleep | .exitHedge _ | .ended _ => .isTrue trivial

instance (w : World) (a : Answer) : DecidablePred (GuardHonoured w a)
  | .squareOff s opt => inferInstanceAs (Decidable (CloseAccepted w s opt a))
  | .watching | .check _ | .exitHedge _ | .finished => .isTrue trivial

instance (w : World) : DecidablePred (Honoured w)
  | .engine a => inferInstanceAs (Decidable (EngineHonoured w a w.engine))
  | .guard a => inferInstanceAs (Decidable (GuardHonoured w a w.guard))
  | .monitorClose s opt _ a => inferInstanceAs (Decidable (CloseAccepted w s opt a))
  | .start | .crash | .exit | .placeStopLoss .. | .entryFound .. => .isTrue trivial

structure SameLegs (v w : World) : Prop where
  recorded : ∀ s, recordedIn v s = recordedIn w s
  done : ∀ s opt, legDone v s opt = legDone w s opt

section Steps

variable {v w : World}

theorem SameLegs.of_session (session : ∀ s, v.memory.session s = w.memory.session s) :
    SameLegs v w where
  recorded := fun s => congrArg Option.isSome (session s)
  done := fun s opt => by rw [legDone, session, legDone]

theorem SameLegs.of_memory (memory : v.memory = w.memory) : SameLegs v w :=
  .of_session fun s => congrArg (Memory.session · s) memory

theorem LegsTruthful.same (legs : LegsTruthful w) (grows : w.log ⊆ v.log) (same : SameLegs v w) :
    LegsTruthful v := by
  constructor
  · intro s opt recorded running
    rw [same.recorded] at recorded
    rw [same.done] at running
    exact grows (legs.opened s opt recorded running)
  · intro s opt recorded done
    rw [same.recorded] at recorded
    rw [same.done] at done
    exact boughtBack_mono grows (legs.closed s opt recorded done)

theorem Truthful.bought_snoc (truthful : Truthful w) {order : OrderLog}
    (log : v.log = w.log ++ [order])
    (covered : ∀ s opt, legBuy order = some (s, opt) → sold w s opt) :
    ∀ other ∈ v.log, ∀ s opt, legBuy other = some (s, opt) → sold v s opt := by
  have grows : w.log ⊆ v.log := log ▸ subset_append_left _ _
  intro other member s opt buys
  rw [log, mem_append, mem_singleton] at member
  rcases member with before | rfl
  · exact grows (truthful.bought other before s opt buys)
  · exact grows (covered s opt buys)

theorem truthful_congr (log : v.log = w.log) (memory : v.memory = w.memory) :
    Truthful v ↔ Truthful w := by
  constructor <;> rintro ⟨⟨opened, closed⟩, bought⟩ <;>
    simp only [recordedIn, legDone, sold, boughtBack, log, memory] at opened closed bought <;>
    refine ⟨⟨?_, ?_⟩, ?_⟩ <;> simpa only [recordedIn, legDone, sold, boughtBack, log, memory]

theorem Truthful.quiet (truthful : Truthful w) (log : v.log = w.log) (same : SameLegs v w) :
    Truthful v where
  toLegsTruthful := truthful.toLegsTruthful.same (log ▸ List.Subset.refl _) same
  bought := by
    rw [log]
    intro order member s opt buys
    have before := truthful.bought order member s opt buys
    rwa [sold, log]

theorem Truthful.submits (truthful : Truthful w) {order : OrderLog} (log : v.log = w.log ++ [order])
    (same : SameLegs v w) (covered : ∀ s opt, legBuy order = some (s, opt) → sold w s opt) :
    Truthful v where
  toLegsTruthful := truthful.toLegsTruthful.same (log ▸ subset_append_left _ _) same
  bought := truthful.bought_snoc log covered

theorem Truthful.exitHedge (truthful : Truthful w) (a : Answer) (pc : ExitPc) :
    Truthful (w.exitHedge a pc).1 := by
  have same := SameLegs.of_session (exitHedge_frame w a pc).session
  rcases exitHedge_log w a pc with log | ⟨token, log⟩
  · exact truthful.quiet log same
  · exact truthful.submits log same fun _ _ buys => nomatch buys

theorem Notes.grows (notes : Notes v w) : w.log ⊆ v.log := by
  rcases notes.log with same | ⟨_, _, _, -, -, log⟩
  · exact same ▸ List.Subset.refl _
  · exact log ▸ subset_append_left _ _

theorem Truthful.notes (truthful : Truthful w) (notes : Notes v w) : Truthful v := by
  rcases notes.log with same | ⟨s, opt, accepted, recorded, running, log⟩
  · exact truthful.quiet same ⟨notes.threads.recorded, notes.done⟩
  · apply truthful.submits log ⟨notes.threads.recorded, notes.done⟩
    intro t o here
    obtain ⟨rfl, rfl⟩ : s = t ∧ opt = o := by simpa [legBuy] using here
    exact truthful.opened s opt recorded running

end Steps

theorem buysBack_of_done {w : World} {s : Session} {opt : Opt} (done : legDone w s opt = true)
    (a : Answer) : buysBack w s opt a = false := by
  unfold legDone at done
  unfold buysBack
  cases here : w.memory.session s with
  | none => rfl
  | some session =>
    have leg : (session.leg opt).done = true := by simpa [here] using done
    simp [leg]

theorem closeLeg_order (w : World) (s : Session) (opt : Opt) (a : Answer) (reason : Reason) :
    (w.closeLeg s opt reason a = w ∧ buysBack w s opt a = false) ∨
    (recordedIn w s = true ∧ legDone w s opt = false ∧ (w.closeLeg s opt reason a).log =
        w.log ++ [if buysBack w s opt a then .buyBack s opt a.accepted else .stopLossFilled s opt] ∧
      SameThreads (w.closeLeg s opt reason a) w ∧
      ∀ t o, legDone (w.closeLeg s opt reason a) t o =
        if t = s ∧ o = opt then true else legDone w t o) := by
  rcases closeLeg_cases w s opt reason a with
    ⟨same, closed⟩ | ⟨order, recorded, running, -, threads, -, done⟩
  · exact .inl ⟨same, buysBack_of_done closed a⟩
  · refine .inr ⟨recorded, running, ?_, threads, done⟩
    unfold World.closeLeg buysBack
    cases here : w.memory.session s with
    | none => simp [recordedIn, here] at recorded
    | some session =>
      have leg : (session.leg opt).done = false := by simpa [legDone, here] using running
      simp only [leg, Bool.false_eq_true, if_false, Option.any_some]
      cases filled : (session.leg opt).slOid.isSome && a.stopLossFilled <;>
        simp [World.submit, World.setLeg]

section Closing

variable {w : World} {s : Session} {opt : Opt} {a : Answer}

theorem closeLeg_truthful_iff (truthful : Truthful w) (reason : Reason) :
    Truthful (w.closeLeg s opt reason a) ↔ CloseAccepted w s opt a := by
  rcases closeLeg_order w s opt a reason with ⟨same, idle⟩ | ⟨recorded, running, log, threads, done⟩
  · rw [same]
    exact iff_of_true truthful fun buys => absurd (idle.symm.trans buys) Bool.false_ne_true
  have grows : w.log ⊆ (w.closeLeg s opt reason a).log := log ▸ subset_append_left _ _
  constructor
  · intro after buys
    have bought := after.closed s opt ((threads.recorded s).trans recorded) (by simp [done])
    unfold boughtBack at bought ⊢
    rw [log, if_pos buys] at bought
    simp only [mem_append, mem_singleton, OrderLog.buyBack.injEq, reduceCtorEq, or_false] at bought
    tauto
  · intro accepted
    refine ⟨⟨?_, ?_⟩, truthful.bought_snoc log ?_⟩
    · intro t o recorded running
      rw [threads.recorded] at recorded
      rw [done] at running
      split at running
      · cases running
      · exact grows (truthful.opened t o recorded running)
    · intro t o recorded closed
      rw [threads.recorded] at recorded
      rw [done] at closed
      split at closed
      · rename_i this
        obtain ⟨rfl, rfl⟩ := this
        cases buys : buysBack w t o a with
        | true =>
          rcases accepted buys with yes | before
          · left
            simp [log, buys, yes]
          · exact boughtBack_mono grows before
        | false =>
          right
          simp [log, buys]
      · exact boughtBack_mono grows (truthful.closed t o recorded closed)
    · intro t o buys
      split at buys
      · obtain ⟨rfl, rfl⟩ : s = t ∧ opt = o := by simpa [legBuy] using buys
        exact truthful.opened s opt recorded running
      · cases buys

theorem closed_truthful_iff {v : World} (truthful : Truthful w) (reason : Reason)
    (log : v.log = (w.closeLeg s opt reason a).log)
    (memory : v.memory = (w.closeLeg s opt reason a).memory) :
    Truthful v ↔ CloseAccepted w s opt a :=
  (truthful_congr log memory).trans (closeLeg_truthful_iff truthful reason)

end Closing

theorem closeLeg_disk (w : World) (s : Session) (opt : Opt) (reason : Reason) (a : Answer) :
    DiskFollows (w.closeLeg s opt reason a) w := by
  unfold World.closeLeg
  split
  · exact .inl rfl
  · dsimp only
    split
    · exact .inl rfl
    · split <;> exact save_disk _ _

theorem exitHedge_disk (w : World) (a : Answer) (pc : ExitPc) :
    DiskFollows (w.exitHedge a pc).1 w := by
  cases pc with
  | begin | sell =>
    simp only [World.exitHedge]
    split <;> exact .inl rfl
  | clear => exact save_disk _ _

variable {w v : World} {a : Answer}

theorem engineMove_disk (move : EngineMove w a v) : DiskFollows v w := by
  cases move with
  | recordHedge | record => exact save_disk _ _
  | closeCe s => exact closeLeg_disk w s .ce .timeExit a
  | closeMorning => exact closeLeg_disk w .morning .pe .timeExit a
  | closeAfternoon => exact closeLeg_disk w .afternoon .pe .timeExit a
  | exitHedge pc => exact exitHedge_disk w a pc
  | _ => exact .inl rfl

theorem guardMove_disk (move : GuardMove w a v) : DiskFollows v w := by
  cases move with
  | trip | found | missing => exact .inl rfl
  | closeCe s => exact closeLeg_disk w s .ce .emergencyExit a
  | closePe s => exact closeLeg_disk w s .pe .emergencyExit a
  | exitHedge pc => exact exitHedge_disk w a pc

structure TruthfulInv (w : World) : Prop where
  memory : Truthful w
  disk : LegsTruthful w.start

theorem TruthfulInv.follows (inv : TruthfulInv w) (truthful : Truthful v) (grows : w.log ⊆ v.log)
    (disk : DiskFollows v w) : TruthfulInv v := by
  refine ⟨truthful, ?_⟩
  rcases disk with same | saved
  · exact inv.disk.same grows (.of_memory same)
  · exact truthful.toLegsTruthful.same (List.Subset.refl _) (.of_memory saved)

theorem recordSession_truthful_iff (truthful : Truthful w) (s : Session) (a : Answer) :
    Truthful ((w.recordSession s a).finishStep (entryStep s)) ↔ sold w s .ce ∧ sold w s .pe := by
  have log : ((w.recordSession s a).finishStep (entryStep s)).log = w.log := by simp
  constructor
  · intro after
    have opened (opt : Opt) : sold w s opt := by
      have sold := after.opened s opt (by simp [recordSession_recordedIn])
        (by simp [recordSession_legDone])
      rwa [DoubleStraddle.sold, log] at sold
    exact ⟨opened .ce, opened .pe⟩
  · intro both
    refine ⟨⟨?_, ?_⟩, ?_⟩ <;> simp only [sold, boughtBack, log, recordSession_recordedIn, recordSession_legDone]
    · intro t opt recorded running
      by_cases this : t = s
      · subst this
        cases opt with
        | ce => exact both.1
        | pe => exact both.2
      · exact truthful.opened t opt (by simpa [this] using recorded) (by simpa [this] using running)
    · intro t opt recorded done
      by_cases this : t = s
      · simp [this] at done
      · exact truthful.closed t opt (by simpa [this] using recorded) (by simpa [this] using done)
    · exact truthful.bought

theorem engineMove_truthful_iff (truthful : Truthful w) (move : EngineMove w a v) :
    Truthful v ↔ EngineHonoured w a w.engine := by
  cases move with
  | stop here | sample here | skip _ here | finish _ here | raised _ here | beginHedge _ _ here
  | enter _ here | beginExit _ here | wake here =>
    rw [here]
    exact iff_of_true (truthful.quiet rfl (.of_memory rfl)) trivial
  | buyCe _ _ here | buyPe _ _ _ here | sellCe _ here | sellPe _ here =>
    rw [here]
    exact iff_of_true (truthful.submits rfl (.of_memory rfl) fun _ _ buys => nomatch buys) trivial
  | recordHedge hedge here =>
    rw [here]
    exact iff_of_true (truthful.quiet (by simp) (.of_session (by simp))) trivial
  | record s here =>
    rw [here]
    exact recordSession_truthful_iff truthful s a
  | closeCe _ here | closeMorning here | closeAfternoon here =>
    rw [here]
    exact closed_truthful_iff truthful .timeExit rfl rfl
  | exitHedge pc here =>
    rw [here]
    exact iff_of_true ((truthful.exitHedge a pc).quiet rfl (.of_memory rfl)) trivial

theorem guardMove_truthful_iff (truthful : Truthful w) (move : GuardMove w a v) :
    Truthful v ↔ GuardHonoured w a w.guard := by
  cases move with
  | trip here | found _ here | missing _ here =>
    rw [here]
    exact iff_of_true (truthful.quiet rfl (.of_memory rfl)) trivial
  | closeCe _ here | closePe _ here =>
    rw [here]
    exact closed_truthful_iff truthful .emergencyExit rfl rfl
  | exitHedge pc here =>
    rw [here]
    exact iff_of_true ((truthful.exitHedge a pc).quiet rfl (.of_memory rfl)) trivial

theorem step_truthful_iff {e : Event} (inv : TruthfulInv w) (moved : step w e = some v) :
    Truthful v ↔ Honoured w e := by
  have truthful := inv.memory
  cases step_move moved with
  | start => exact iff_of_true ⟨inv.disk, truthful.bought⟩ trivial
  | crash | exit => exact iff_of_true (truthful.quiet rfl (.of_memory rfl)) trivial
  | engine a _ move => exact engineMove_truthful_iff truthful move
  | guard a _ move => exact guardMove_truthful_iff truthful move
  | monitorClose s opt reason a => exact closeLeg_truthful_iff truthful reason
  | placeStopLoss _ notes | entryFound _ notes => exact iff_of_true (truthful.notes notes) trivial

theorem step_follows {e : Event} (inv : TruthfulInv w) (truthful : Truthful v)
    (moved : step w e = some v) : TruthfulInv v := by
  cases step_move moved with
  | start => exact ⟨truthful, inv.disk⟩
  | crash | exit => exact inv.follows truthful (List.Subset.refl _) (.inl rfl)
  | engine a _ move =>
    exact inv.follows truthful (engineMove_log move).subset (engineMove_disk move)
  | guard a _ move => exact inv.follows truthful (guardMove_log move).subset (guardMove_disk move)
  | monitorClose s opt reason a =>
    exact inv.follows truthful (@Adds.subset _ _ False (adds_closeLeg rfl))
      (closeLeg_disk w s opt reason a)
  | placeStopLoss _ notes | entryFound _ notes =>
    exact inv.follows truthful notes.grows notes.disk

theorem truthful_iff_honoured (events : List Event) (w : World)
    (path : run step {} events = some w) :
    (∀ before after u, events = before ++ after → run step {} before = some u → Truthful u) ↔
      Meets step Honoured {} events := by
  have empty : LegsTruthful {} := by
    constructor <;> intro s opt recorded <;> cases s <;> cases recorded
  exact throughout_iff_meets (P := TruthfulInv) (fun _ inv => inv.memory)
    (fun _ _ _ inv honoured moved =>
      step_follows inv ((step_truthful_iff inv moved).mpr honoured) moved)
    (fun _ _ _ inv refused moved truthful => refused ((step_truthful_iff inv moved).mp truthful))
    path ⟨⟨empty, fun _ member => nomatch member⟩, empty.same (List.Subset.refl _) (.of_memory rfl)⟩

def soldAndClosed : List Event := .start :: hedgePass ++ morningPass ++ morningExitPass

theorem truthful_soldAndClosed :
    Truthful (worldAfter soldAndClosed) ∧
      legDone (worldAfter soldAndClosed) .morning .ce = true := by
  have path : run step {} soldAndClosed = some (worldAfter soldAndClosed) := by decide +kernel
  have honoured : Meets step Honoured {} soldAndClosed := by decide +kernel
  have truthful := (truthful_iff_honoured soldAndClosed _ path).mpr honoured
  exact ⟨truthful soldAndClosed [] _ (by simp) path, by decide +kernel⟩

def refusedTwice : List Event :=
  .start :: hedgePass ++
    [.engine { now := 625 }, .engine {}, .engine { strikes := some (25500, 23500) },
      .engine { accepted := false }, .engine {},
      .engine { ceEntry := some 100, peEntry := some 100 }, .engine {}, .engine {}, .engine {}] ++
    [.engine { now := 854 }, .engine {}, .engine {}, .engine {}, .engine { accepted := false }]

theorem not_truthful_refusedTwice :
    run step {} refusedTwice = some (worldAfter refusedTwice) ∧
    ¬ sold (worldAfter refusedTwice) .morning .ce ∧
    OrderLog.buyBack .morning .ce false ∈ (worldAfter refusedTwice).log ∧
    recordedIn (worldAfter refusedTwice) .morning = true ∧
    legDone (worldAfter refusedTwice) .morning .ce = true ∧
    ¬ boughtBack (worldAfter refusedTwice) .morning .ce ∧
    ¬ Truthful (worldAfter refusedTwice) := by
  have unsold : ¬ sold (worldAfter refusedTwice) .morning .ce := by decide +kernel
  have sent : OrderLog.buyBack .morning .ce false ∈ (worldAfter refusedTwice).log := by
    decide +kernel
  refine ⟨by decide +kernel, unsold, sent, by decide +kernel, by decide +kernel, by decide +kernel,
    ?_⟩
  intro truthful
  exact unsold (truthful.bought _ sent .morning .ce rfl)

end AlgoSystem.Proof.DoubleStraddle
