import AlgoSystem.Proof.DoubleStraddle.Moves

namespace AlgoSystem.Proof.DoubleStraddle
open AlgoSystem.DoubleStraddle DoubleStraddle.World General

variable {before : List OrderLog} {opt : Opt} {a : Answer}

def isHedgeSell (token : HedgeToken) : OrderLog → Bool
  | .hedgeSell sold _ => sold = token
  | _ => false

def hedgeSells (log : List OrderLog) (token : HedgeToken) : Nat := log.countP (isHedgeSell token)

def hedgeBuys (log : List OrderLog) (token : HedgeToken) : Nat := log.count (.hedgeBuy token true)

def NeverOversold (w : World) : Prop := ∀ token, hedgeSells w.log token ≤ hedgeBuys w.log token

def engineExit : EnginePc → Option ExitPc
  | .exitHedge pc => some pc
  | _ => none

def guardExit : GuardPc → Option ExitPc
  | .exitHedge pc => some pc
  | _ => none

def selling : Option ExitPc → Bool
  | some (.sell _ _) => true
  | _ => false

def Unsold (log : List OrderLog) (hedge : Hedge) : Prop :=
  ∀ opt, (hedge.leg opt).bought = true →
    hedgeSells log (hedge.token opt) < hedgeBuys log (hedge.token opt)

def MayExit (w : World) : Prop :=
  selling (engineExit w.engine) = false ∧ selling (guardExit w.guard) = false ∧
    ∀ hedge ∈ w.memory.hedge, Unsold w.log hedge

/-- `exit_hedge` begins only when no other call is selling and its record is not sold. -/
def ExitsOnce (w : World) : Event → Prop
  | .engine _ => w.engine = .exitHedge .begin → MayExit w
  | .guard _ => w.guard = .exitHedge .begin → MayExit w
  | _ => True

instance (log : List OrderLog) (hedge : Hedge) : Decidable (Unsold log hedge) :=
  decidable_of_iff
    (((hedge.leg .ce).bought = true →
        hedgeSells log (hedge.token .ce) < hedgeBuys log (hedge.token .ce)) ∧
      ((hedge.leg .pe).bought = true →
        hedgeSells log (hedge.token .pe) < hedgeBuys log (hedge.token .pe)))
    ⟨fun ⟨ce, pe⟩ => fun | .ce => ce | .pe => pe, fun unsold => ⟨unsold .ce, unsold .pe⟩⟩

instance (w : World) : Decidable (MayExit w) := by
  unfold MayExit
  infer_instance

instance (w : World) : DecidablePred (ExitsOnce w)
  | .engine _ => inferInstanceAs (Decidable (_ = _ → MayExit w))
  | .guard _ => inferInstanceAs (Decidable (_ = _ → MayExit w))
  | .start | .crash | .exit | .monitorClose .. | .placeStopLoss .. | .entryFound .. => .isTrue trivial

theorem hedgeSells_snoc (log : List OrderLog) (order : OrderLog) (token : HedgeToken) :
    hedgeSells (log ++ [order]) token =
      hedgeSells log token + if isHedgeSell token order then 1 else 0 := by
  simp [hedgeSells, List.countP_append, List.countP_cons]

theorem hedgeBuys_le_snoc (log : List OrderLog) (order : OrderLog) (token : HedgeToken) :
    hedgeBuys log token ≤ hedgeBuys (log ++ [order]) token := by
  simp [hedgeBuys, List.count_append]

structure NoSells (before after : List OrderLog) : Prop where
  sells : ∀ token, hedgeSells after token = hedgeSells before token
  buys : ∀ token, hedgeBuys before token ≤ hedgeBuys after token

variable {log : List OrderLog}

theorem NoSells.rfl : NoSells log log := ⟨fun _ => Eq.refl _, fun _ => le_rfl⟩

variable {after : List OrderLog}

theorem NoSells.of_eq (same : after = before) : NoSells before after :=
  same ▸ NoSells.rfl

theorem NoSells.snoc (log : List OrderLog) {order : OrderLog}
    (other : ∀ token, isHedgeSell token order = false) : NoSells log (log ++ [order]) where
  sells := fun token => by simp [hedgeSells_snoc, other token]
  buys := hedgeBuys_le_snoc log order

theorem closeLeg_noSells (w : World) (s : Session) (opt : Opt) (reason : Reason) (a : Answer) :
    NoSells w.log (w.closeLeg s opt reason a).log := by
  rcases closeLeg_cases w s opt reason a with ⟨same, -⟩ | ⟨order, -, -, kind, -, log, -⟩
  · rw [same]
    exact NoSells.rfl
  · rw [log]
    rcases kind with rfl | rfl <;> exact NoSells.snoc _ fun _ => rfl

theorem Notes.noSells {v w : World} (notes : Notes v w) : NoSells w.log v.log := by
  rcases notes.log with same | ⟨_, _, _, -, -, log⟩
  · exact NoSells.of_eq same
  · rw [log]
    exact NoSells.snoc _ fun _ => rfl

def Pending (log : List OrderLog) (hedge : Hedge) (opt : Opt) : Prop :=
  ∀ o, (opt = .pe → o = .pe) → (hedge.leg o).bought = true →
    hedgeSells log (hedge.token o) < hedgeBuys log (hedge.token o)

variable {hedge : Hedge}

theorem Pending.noSells (pending : Pending before hedge opt) (quiet : NoSells before after) :
    Pending after hedge opt := by
  intro o left bought
  rw [quiet.sells]
  exact (pending o left bought).trans_le (quiet.buys _)

theorem Pending.after_ce (pending : Pending log hedge .ce) (accepted : Bool) :
    Pending (log ++ [.hedgeSell (hedge.token .ce) accepted]) hedge .pe := by
  intro o left bought
  obtain rfl := left rfl
  have other : isHedgeSell (hedge.token .pe) (.hedgeSell (hedge.token .ce) accepted) = false := by
    simp [isHedgeSell, Hedge.token]
  rw [hedgeSells_snoc, other]
  exact (pending .pe (by simp) bought).trans_le (hedgeBuys_le_snoc _ _ _)

structure ExitInv (log : List OrderLog) (p q : Option ExitPc) : Prop where
  never : ∀ token, hedgeSells log token ≤ hedgeBuys log token
  first : ∀ hedge opt, p = some (.sell hedge opt) → Pending log hedge opt
  second : ∀ hedge opt, q = some (.sell hedge opt) → Pending log hedge opt
  apart : selling p = true → selling q = false

variable {p q : Option ExitPc}

theorem ExitInv.symm (inv : ExitInv log p q) :
    ExitInv log q p where
  never := inv.never
  first := inv.second
  second := inv.first
  apart := by
    intro busy
    rw [← Bool.not_eq_true]
    intro both
    rw [inv.apart both] at busy
    cases busy

theorem ExitInv.first_moves {p' : Option ExitPc} (inv : ExitInv log p q) (quiet : NoSells log after)
    (idle : selling p' = false) :
    ExitInv after p' q where
  never := fun token => by
    rw [quiet.sells]
    exact (inv.never token).trans (quiet.buys token)
  first := by
    rintro hedge opt rfl
    cases idle
  second := fun hedge opt here => (inv.second hedge opt here).noSells quiet
  apart := by
    intro busy
    rw [idle] at busy
    cases busy

theorem ExitInv.stays (inv : ExitInv log p q) (quiet : NoSells log after) : ExitInv after p q where
  never := fun token => by
    rw [quiet.sells]
    exact (inv.never token).trans (quiet.buys token)
  first := fun hedge opt here => (inv.first hedge opt here).noSells quiet
  second := fun hedge opt here => (inv.second hedge opt here).noSells quiet
  apart := inv.apart

theorem Pending.sell_never (pending : Pending log hedge opt)
    (bought : (hedge.leg opt).bought = true)
    (never : ∀ token, hedgeSells log token ≤ hedgeBuys log token) (accepted : Bool)
    (token : HedgeToken) :
    hedgeSells (log ++ [.hedgeSell (hedge.token opt) accepted]) token ≤
      hedgeBuys (log ++ [.hedgeSell (hedge.token opt) accepted]) token := by
  have grown := hedgeBuys_le_snoc log (.hedgeSell (hedge.token opt) accepted) token
  rw [hedgeSells_snoc]
  split
  · rename_i this
    obtain rfl : hedge.token opt = token := by simpa [isHedgeSell] using this
    have free := pending opt id bought
    omega
  · exact (never token).trans grown

theorem ExitInv.of_first (never : ∀ token, hedgeSells log token ≤ hedgeBuys log token)
    (first : ∀ hedge opt, p = some (.sell hedge opt) → Pending log hedge opt)
    (idle : selling q = false) : ExitInv log p q where
  never := never
  first := first
  second := by
    rintro hedge opt rfl
    cases idle
  apart := fun _ => idle

variable {w : World}

theorem ExitInv.exitHedge {pc : ExitPc} (inv : ExitInv w.log (some pc) q) (a : Answer)
    (may : pc = .begin → selling q = false ∧ ∀ hedge ∈ w.memory.hedge, Unsold w.log hedge) :
    ExitInv (w.exitHedge a pc).1.log (w.exitHedge a pc).2 q := by
  cases pc with
  | begin =>
    obtain ⟨idle, unsold⟩ := may rfl
    unfold World.exitHedge
    cases found : w.memory.hedge with
    | none => exact inv.first_moves NoSells.rfl rfl
    | some hedge =>
      refine .of_first inv.never ?_ idle
      rintro h opt here
      cases here
      intro o _ bought
      exact unsold hedge (by simp [found]) o bought
  | sell hedge opt =>
    have idle := inv.apart rfl
    have pending := inv.first hedge opt rfl
    simp only [World.exitHedge]
    split
    · rename_i bought
      refine .of_first (pending.sell_never bought inv.never a.accepted) ?_ idle
      intro h o here
      cases opt with
      | ce =>
        cases here
        exact pending.after_ce a.accepted
      | pe => cases here
    · refine .of_first inv.never ?_ idle
      intro h o here
      cases opt with
      | ce =>
        cases here
        intro o _ bought
        exact pending o (by simp) bought
      | pe => cases here
  | clear =>
    have same : (w.exitHedge a .clear).1.log = w.log := by simp [World.exitHedge]
    rw [same]
    exact inv.first_moves NoSells.rfl rfl

def HedgeInv (w : World) : Prop := ExitInv w.log (engineExit w.engine) (guardExit w.guard)

theorem engineExit_afterExit (next : Option ExitPc) :
    engineExit (EnginePc.afterExit next) = next := by
  cases next <;> rfl

theorem guardExit_afterExit (next : Option ExitPc) : guardExit (GuardPc.afterExit next) = next := by
  cases next <;> rfl

variable {v : World}

section
variable (inv : HedgeInv w) (quiet : NoSells w.log v.log)
include inv quiet

theorem HedgeInv.engine_moves (idle : selling (engineExit v.engine) = false)
    (guard : v.guard = w.guard) : HedgeInv v := by
  unfold HedgeInv
  rw [guard]
  exact inv.first_moves quiet idle

theorem HedgeInv.guard_moves (engine : v.engine = w.engine)
    (idle : selling (guardExit v.guard) = false) : HedgeInv v := by
  unfold HedgeInv
  rw [engine]
  exact (inv.symm.first_moves quiet idle).symm

theorem HedgeInv.stays (engine : v.engine = w.engine) (guard : v.guard = w.guard) : HedgeInv v := by
  unfold HedgeInv
  rw [engine, guard]
  exact ExitInv.stays inv quiet

end

theorem after_idle (step : Step) : selling (engineExit step.after) = false := by
  cases step <;> rfl

theorem engineMove_hedgeInv (inv : HedgeInv w) (once : ExitsOnce w (.engine a))
    (move : EngineMove w a v) : HedgeInv v := by
  cases move with
  | stop | sample | raised | beginHedge | enter | beginExit | wake =>
    exact inv.engine_moves NoSells.rfl rfl rfl
  | skip step | finish step => exact inv.engine_moves NoSells.rfl (after_idle step) rfl
  | buyCe | buyPe | sellCe | sellPe => exact inv.engine_moves (NoSells.snoc _ fun _ => rfl) rfl rfl
  | recordHedge hedge =>
    apply inv.engine_moves (NoSells.of_eq ?_) rfl
    · simp [World.recordHedge]
    · simp [World.recordHedge]
  | record s =>
    apply inv.engine_moves (NoSells.of_eq ?_) (after_idle _)
    · simp [World.recordSession]
    · simp [World.recordSession]
  | closeCe s =>
    exact inv.engine_moves (closeLeg_noSells w s .ce .timeExit a) rfl
      (closeLeg_threads w s .ce .timeExit a).guard
  | closeMorning =>
    exact inv.engine_moves (closeLeg_noSells w .morning .pe .timeExit a) rfl
      (closeLeg_threads w .morning .pe .timeExit a).guard
  | closeAfternoon =>
    exact inv.engine_moves (closeLeg_noSells w .afternoon .pe .timeExit a) rfl
      (closeLeg_threads w .afternoon .pe .timeExit a).guard
  | exitHedge pc here =>
    have before : ExitInv w.log (some pc) (guardExit w.guard) := by
      simpa [HedgeInv, here, engineExit] using inv
    have after := before.exitHedge a fun begins => (once (begins ▸ here)).2
    unfold HedgeInv
    rw [engineExit_afterExit, (exitHedge_frame w a pc).guard]
    exact after

theorem guardMove_hedgeInv (inv : HedgeInv w) (once : ExitsOnce w (.guard a))
    (move : GuardMove w a v) : HedgeInv v := by
  have afterSession (s : Session) : selling (guardExit (GuardPc.afterSession s)) = false := by
    cases s <;> rfl
  cases move with
  | trip | found => exact inv.guard_moves NoSells.rfl rfl rfl
  | missing s => exact inv.guard_moves NoSells.rfl rfl (afterSession s)
  | closeCe s =>
    exact inv.guard_moves (closeLeg_noSells w s .ce .emergencyExit a)
      (closeLeg_threads w s .ce .emergencyExit a).engine rfl
  | closePe s =>
    exact inv.guard_moves (closeLeg_noSells w s .pe .emergencyExit a)
      (closeLeg_threads w s .pe .emergencyExit a).engine (afterSession s)
  | exitHedge pc here =>
    have before : ExitInv w.log (some pc) (engineExit w.engine) := by
      simpa [HedgeInv, here, guardExit] using inv.symm
    have may (begins : pc = .begin) : selling (engineExit w.engine) = false ∧
        ∀ hedge ∈ w.memory.hedge, Unsold w.log hedge := by
      have free := once (begins ▸ here)
      exact ⟨free.1, free.2.2⟩
    have after := (before.exitHedge a may).symm
    unfold HedgeInv
    rw [guardExit_afterExit, (exitHedge_frame w a pc).engine]
    exact after

theorem step_hedgeInv (w : World) (e : Event) (v : World) (inv : HedgeInv w) (once : ExitsOnce w e)
    (moved : step w e = some v) : HedgeInv v := by
  cases step_move moved with
  | start => exact (inv.first_moves NoSells.rfl rfl).symm.first_moves NoSells.rfl rfl
  | crash | exit => exact inv
  | engine a _ move => exact engineMove_hedgeInv inv once move
  | guard a _ move => exact guardMove_hedgeInv inv once move
  | monitorClose s opt reason a =>
    have threads := closeLeg_threads w s opt reason a
    exact HedgeInv.stays inv (closeLeg_noSells w s opt reason a) threads.engine threads.guard
  | placeStopLoss _ notes | entryFound _ notes =>
    exact HedgeInv.stays inv notes.noSells notes.threads.engine notes.threads.guard

theorem neverOversold_of_exitsOnce (events : List Event) (w : World)
    (path : run step {} events = some w) (once : Meets step ExitsOnce {} events) :
    NeverOversold w := by
  have initial : HedgeInv {} :=
    .of_first (fun _ => le_rfl) (fun _ _ here => nomatch here) rfl
  exact (run_invariant_of_meets step_hedgeInv path once initial).never

def hedgedAllDay : List Event := .start :: hedgePass ++ finalPass

theorem neverOversold_hedgedAllDay :
    NeverOversold (worldAfter hedgedAllDay) ∧
      hedgeSells (worldAfter hedgedAllDay).log ⟨25500, .ce⟩ = 1 := by
  have path : run step {} hedgedAllDay = some (worldAfter hedgedAllDay) := by decide +kernel
  have once : Meets step ExitsOnce {} hedgedAllDay := by decide +kernel
  exact ⟨neverOversold_of_exitsOnce hedgedAllDay _ path once, by decide +kernel⟩

def restartedAfterEmergency : List Event :=
  .start :: hedgePass ++
    [.guard {}, .guard {}, .guard {}, .guard {}, .guard {}, .guard {}, .guard {}, .engine {}, .exit,
      .start] ++ finalPass

theorem oversold_restartedAfterEmergency :
    run step {} restartedAfterEmergency = some (worldAfter restartedAfterEmergency) ∧
    hedgeSells (worldAfter restartedAfterEmergency).log ⟨25500, .ce⟩ = 2 ∧
    hedgeBuys (worldAfter restartedAfterEmergency).log ⟨25500, .ce⟩ = 1 ∧
    ¬ NeverOversold (worldAfter restartedAfterEmergency) := by
  have sells : hedgeSells (worldAfter restartedAfterEmergency).log ⟨25500, .ce⟩ = 2 := by
    decide +kernel
  have buys : hedgeBuys (worldAfter restartedAfterEmergency).log ⟨25500, .ce⟩ = 1 := by
    decide +kernel
  refine ⟨by decide +kernel, sells, buys, fun never => ?_⟩
  have bound := never ⟨25500, .ce⟩
  omega

end AlgoSystem.Proof.DoubleStraddle
