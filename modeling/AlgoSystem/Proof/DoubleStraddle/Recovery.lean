import AlgoSystem.Proof.DoubleStraddle.Emergency

namespace AlgoSystem.Proof.DoubleStraddle
open AlgoSystem.DoubleStraddle DoubleStraddle.World General List

variable {pc : EnginePc} {ceStrike peStrike : Nat} {a : Answer}

def timesSold (log : List OrderLog) (s : Session) (opt : Opt) : Nat :=
  log.count (.straddleSell s opt true)

def buysHedgeLeg (opt : Opt) : OrderLog → Bool
  | .hedgeBuy token accepted => token.opt = opt && accepted
  | _ => false

def hedgeBought (log : List OrderLog) (opt : Opt) : Nat := log.countP (buysHedgeLeg opt)

/-- `w.start` is the state that a restart recovers from the state file. -/
structure EnteredOnce (w : World) : Prop where
  sold : ∀ s opt, timesSold w.log s opt ≤ 1
  hedge : ∀ opt, hedgeBought w.log opt ≤ 1
  recovered : w.alive = false → ∀ s opt, .straddleSell s opt true ∈ w.log →
    recordedIn w.start s = true

def unrecorded (w : World) : Bool :=
  match w.engine with
  | .buyHedge _ _ (some ce) => ce
  | .recordHedge hedge => hedge.ce.bought || hedge.pe.bought
  | .sell s .pe => .straddleSell s .ce true ∈ w.log
  | .record s => .straddleSell s .ce true ∈ w.log ∨ .straddleSell s .pe true ∈ w.log
  | _ => false

structure OnDisk (w : World) : Prop where
  hedge : w.disk.hedge = w.memory.hedge
  morning : w.disk.morning.isSome = w.memory.morning.isSome
  afternoon : w.disk.afternoon.isSome = w.memory.afternoon.isSome

def hedgeLegBought (hedge : Option Hedge) (opt : Opt) : Bool :=
  hedge.any fun h => (h.leg opt).bought

def buysFirst : EnginePc → Bool
  | .buyHedge _ _ none => true
  | _ => false

/-- The process ends with every accepted entry in the state file, and `enter_hedge` sends its first
order only when no leg of the recorded hedge is bought. -/
def Resumable (w : World) : Event → Prop
  | .crash | .exit => unrecorded w = false ∧ OnDisk w
  | .engine _ => buysFirst w.engine = true →
      hedgeLegBought w.memory.hedge .ce = false ∧ hedgeLegBought w.memory.hedge .pe = false
  | _ => True

instance (w : World) : Decidable (OnDisk w) :=
  decidable_of_iff
    (w.disk.hedge = w.memory.hedge ∧ w.disk.morning.isSome = w.memory.morning.isSome ∧
      w.disk.afternoon.isSome = w.memory.afternoon.isSome)
    ⟨fun ⟨hedge, morning, afternoon⟩ => ⟨hedge, morning, afternoon⟩,
      fun saved => ⟨saved.hedge, saved.morning, saved.afternoon⟩⟩

instance (w : World) : DecidablePred (Resumable w)
  | .crash | .exit => inferInstanceAs (Decidable (_ = _ ∧ OnDisk w))
  | .engine _ => inferInstanceAs (Decidable (_ = _ → _ ∧ _))
  | .start | .guard _ | .monitorClose .. | .placeStopLoss .. | .entryFound .. => .isTrue trivial

theorem timesSold_snoc (log : List OrderLog) (order : OrderLog) (s : Session) (opt : Opt) :
    timesSold (log ++ [order]) s opt =
      timesSold log s opt + if order = .straddleSell s opt true then 1 else 0 := by
  simp [timesSold, count_append, count_singleton]

theorem hedgeBought_snoc (log : List OrderLog) (order : OrderLog) (opt : Opt) :
    hedgeBought (log ++ [order]) opt =
      hedgeBought log opt + if buysHedgeLeg opt order then 1 else 0 := by
  simp [hedgeBought, countP_append, countP_cons]

def isEntry : OrderLog → Bool
  | .straddleSell _ _ _ | .hedgeBuy _ _ => true
  | _ => false

structure KeepsEntries (v w : World) : Prop where
  sold : ∀ s opt, timesSold v.log s opt = timesSold w.log s opt
  bought : ∀ opt, hedgeBought v.log opt = hedgeBought w.log opt
  recorded : ∀ s, recordedIn v s = recordedIn w s
  hedge : v.memory.hedge = w.memory.hedge

variable {w : World}

theorem KeepsEntries.rfl : KeepsEntries w w :=
  ⟨fun _ _ => Eq.refl _, fun _ => Eq.refl _, fun _ => Eq.refl _, Eq.refl _⟩

variable {v : World}

theorem KeepsEntries.of_log (recorded : ∀ s, recordedIn v s = recordedIn w s)
    (hedge : v.memory.hedge = w.memory.hedge)
    (log : v.log = w.log ∨ ∃ order, isEntry order = false ∧ v.log = w.log ++ [order]) :
    KeepsEntries v w := by
  rcases log with same | ⟨order, other, log⟩
  · exact ⟨fun _ _ => by rw [same], fun _ => by rw [same], recorded, hedge⟩
  · have notSell (s : Session) (opt : Opt) : order ≠ .straddleSell s opt true := by
      rintro rfl
      cases other
    have notBuy (opt : Opt) : buysHedgeLeg opt order = false := by
      cases order with
      | hedgeBuy => cases other
      | _ => rfl
    refine ⟨?_, ?_, recorded, hedge⟩
    · intro s opt
      rw [log, timesSold_snoc, if_neg (notSell s opt), Nat.add_zero]
    · intro opt
      simp [log, hedgeBought_snoc, notBuy opt]

theorem KeepsEntries.of_eq {u : World} (kept : KeepsEntries u w) (log : v.log = u.log)
    (memory : v.memory = u.memory) : KeepsEntries v w where
  sold := log ▸ kept.sold
  bought := log ▸ kept.bought
  recorded := by
    intro s
    rw [recordedIn, memory]
    exact kept.recorded s
  hedge := memory ▸ kept.hedge

theorem closeLeg_keepsEntries (w : World) (s : Session) (opt : Opt) (reason : Reason) (a : Answer) :
    KeepsEntries (w.closeLeg s opt reason a) w := by
  have threads := closeLeg_threads w s opt reason a
  apply KeepsEntries.of_log threads.recorded threads.hedge
  rcases closeLeg_cases w s opt reason a with ⟨same, -⟩ | ⟨order, -, -, kind, -, log, -⟩
  · exact .inl (by rw [same])
  · refine .inr ⟨order, ?_, log⟩
    rcases kind with rfl | rfl <;> rfl

theorem Notes.keepsEntries (notes : Notes v w) : KeepsEntries v w :=
  .of_log notes.threads.recorded notes.threads.hedge
    (notes.log.imp_right fun ⟨_, _, _, _, _, log⟩ => ⟨_, rfl, log⟩)

theorem exitHedge_hedge (w : World) (a : Answer) (pc : ExitPc) :
    (w.exitHedge a pc).1.memory.hedge = w.memory.hedge := by
  cases pc with
  | begin | sell =>
    simp only [World.exitHedge]
    split <;> rfl
  | clear => simp [World.exitHedge]

theorem exitHedge_keepsEntries (w : World) (a : Answer) (pc : ExitPc) :
    KeepsEntries (w.exitHedge a pc).1 w := by
  apply KeepsEntries.of_log (fun s => congrArg Option.isSome ((exitHedge_frame w a pc).session s))
    (exitHedge_hedge w a pc)
  rcases exitHedge_log w a pc with same | ⟨token, log⟩
  · exact .inl same
  · exact .inr ⟨_, rfl, log⟩

def sellUnderWay : EnginePc → Session → Opt → Option Bool
  | .sell s .ce, t, _ => if t = s then some false else none
  | .sell s .pe, t, opt => if t = s then some (opt = .ce) else none
  | .record s, t, _ => if t = s then some true else none
  | _, _, _ => none

def buyUnderWay : EnginePc → Opt → Option Bool
  | .buyHedge _ _ (some ce), .ce => some ce
  | .buyHedge _ _ (some _), .pe => some false
  | .recordHedge hedge, opt => some (hedge.leg opt).bought
  | _, _ => none

def soldIn (w : World) (s : Session) (opt : Opt) : Bool :=
  (sellUnderWay w.engine s opt).getD (recordedIn w s)

def boughtIn (w : World) (opt : Opt) : Bool :=
  (buyUnderWay w.engine opt).getD (hedgeLegBought w.memory.hedge opt)

structure Counted (w : World) : Prop where
  sold : ∀ s opt, timesSold w.log s opt ≤ (soldIn w s opt).toNat
  bought : ∀ opt, hedgeBought w.log opt ≤ (boughtIn w opt).toNat

def entering : EnginePc → Bool
  | .buyHedge _ _ (some _) | .recordHedge _ | .sell _ _ | .record _ => true
  | _ => false

theorem sellUnderWay_idle (idle : entering pc = false) (s : Session) (opt : Opt) :
    sellUnderWay pc s opt = none := by
  cases pc with
  | sell | record => cases idle
  | _ => rfl

theorem buyUnderWay_idle (idle : entering pc = false) (opt : Opt) : buyUnderWay pc opt = none := by
  cases pc with
  | buyHedge _ _ ce =>
    cases ce with
    | none => rfl
    | some => cases idle
  | recordHedge => cases idle
  | _ => rfl

theorem entering_after (step : Step) : entering step.after = false := by
  cases step <;> rfl

theorem Counted.stays (counted : Counted w) (kept : KeepsEntries v w) (engine : v.engine = w.engine) :
    Counted v where
  sold := by
    intro s opt
    rw [kept.sold, soldIn, engine, kept.recorded]
    exact counted.sold s opt
  bought := by
    intro opt
    rw [kept.bought, boughtIn, engine, kept.hedge]
    exact counted.bought opt

theorem Counted.idle (counted : Counted w) (kept : KeepsEntries v w)
    (before : entering w.engine = false) (after : entering v.engine = false) : Counted v where
  sold := by
    intro s opt
    have bound := counted.sold s opt
    rw [soldIn, sellUnderWay_idle before] at bound
    rw [kept.sold, soldIn, sellUnderWay_idle after, Option.getD_none, kept.recorded]
    exact bound
  bought := by
    intro opt
    have bound := counted.bought opt
    rw [boughtIn, buyUnderWay_idle before] at bound
    rw [kept.bought, boughtIn, buyUnderWay_idle after, Option.getD_none, kept.hedge]
    exact bound

variable {s : Session}

section
variable (counted : Counted w)
include counted

theorem Counted.enter (here : w.engine = .at (entryStep s)) (new : recordedIn w s = false) :
    Counted { w with engine := .sell s .ce } where
  sold := by
    intro t opt
    have bound := counted.sold t opt
    rw [soldIn, here] at bound
    by_cases same : t = s
    · subst same
      have recorded : (sellUnderWay (.at (entryStep t)) t opt).getD (recordedIn w t) = false := new
      rw [recorded] at bound
      exact bound.trans (Nat.zero_le _)
    · simpa [soldIn, sellUnderWay, same, recordedIn] using bound
  bought := by
    intro opt
    have bound := counted.bought opt
    rw [boughtIn, here] at bound
    exact bound

theorem Counted.sell {opt : Opt} {next : EnginePc} (here : w.engine = .sell s opt)
    (there : next = match opt with | .ce => .sell s .pe | .pe => .record s) (accepted : Bool) :
    Counted { w.submit (.straddleSell s opt accepted) with engine := next } where
  sold := by
    intro t o
    have bound := counted.sold t o
    rw [soldIn, here] at bound
    simp only [World.submit, timesSold_snoc, soldIn, there]
    by_cases same : t = s
    · subst same
      cases opt <;> cases o <;> cases accepted <;> simp_all [sellUnderWay]
    · have other : OrderLog.straddleSell s opt accepted ≠ .straddleSell t o true := by
        rintro equal
        cases equal
        exact same rfl
      rw [if_neg other]
      cases opt <;> simpa [sellUnderWay, same, recordedIn] using bound
  bought := by
    intro o
    have bound := counted.bought o
    rw [boughtIn, here] at bound
    simp only [World.submit, hedgeBought_snoc, boughtIn, there]
    cases opt <;> simpa [buysHedgeLeg, buyUnderWay] using bound

theorem Counted.record (here : w.engine = .record s) (a : Answer) :
    Counted ((w.recordSession s a).finishStep (entryStep s)) where
  sold := by
    intro t opt
    have bound := counted.sold t opt
    rw [soldIn, here] at bound
    rw [finishStep_log, recordSession_log, soldIn, finishStep_engine,
      sellUnderWay_idle (entering_after _), Option.getD_none, recordSession_recordedIn]
    by_cases same : t = s <;> simpa [sellUnderWay, same] using bound
  bought := by
    intro opt
    have bound := counted.bought opt
    rw [boughtIn, here] at bound
    rw [finishStep_log, recordSession_log, boughtIn, finishStep_engine,
      buyUnderWay_idle (entering_after _), Option.getD_none, finishStep_memory,
      recordSession_hedge]
    exact bound

theorem Counted.buyCe (here : w.engine = .buyHedge ceStrike peStrike none)
    (free : hedgeLegBought w.memory.hedge .ce = false ∧ hedgeLegBought w.memory.hedge .pe = false)
    (accepted : Bool) :
    Counted { w.submit (.hedgeBuy ⟨ceStrike, .ce⟩ accepted) with
      engine := .buyHedge ceStrike peStrike (some accepted) } where
  sold := by
    intro s opt
    have bound := counted.sold s opt
    rw [soldIn, here] at bound
    simpa [World.submit, timesSold_snoc, soldIn, sellUnderWay, recordedIn] using bound
  bought := by
    intro opt
    have bound := counted.bought opt
    rw [boughtIn, here] at bound
    simp only [World.submit, hedgeBought_snoc, boughtIn]
    cases opt <;> cases accepted <;> simp_all [buyUnderWay, buysHedgeLeg]

theorem Counted.buyPe {ce : Bool} (here : w.engine = .buyHedge ceStrike peStrike (some ce))
    (accepted : Bool) :
    Counted { w.submit (.hedgeBuy ⟨peStrike, .pe⟩ accepted) with
      engine := .recordHedge ⟨⟨ceStrike, ce⟩, ⟨peStrike, accepted⟩⟩ } where
  sold := by
    intro s opt
    have bound := counted.sold s opt
    rw [soldIn, here] at bound
    simpa [World.submit, timesSold_snoc, soldIn, sellUnderWay, recordedIn] using bound
  bought := by
    intro opt
    have bound := counted.bought opt
    rw [boughtIn, here] at bound
    simp only [World.submit, hedgeBought_snoc, boughtIn]
    cases opt <;> cases accepted <;> simp_all [buyUnderWay, buysHedgeLeg, Hedge.leg]

theorem Counted.recordHedge {hedge : Hedge} (here : w.engine = .recordHedge hedge) (saved : Bool) :
    Counted ((w.recordHedge hedge saved).finishStep .hedge) where
  sold := by
    intro s opt
    have bound := counted.sold s opt
    rw [soldIn, here] at bound
    rw [finishStep_log, recordHedge_log, soldIn, finishStep_engine,
      sellUnderWay_idle (entering_after _), Option.getD_none, recordedIn, finishStep_memory,
      recordHedge_session]
    exact bound
  bought := by
    intro opt
    have bound := counted.bought opt
    rw [boughtIn, here] at bound
    simpa [World.recordHedge, boughtIn, Step.after, buyUnderWay, hedgeLegBought] using bound

theorem engineMove_counted (resumable : Resumable w (.engine a)) (move : EngineMove w a v) :
    Counted v := by
  have same {u : World} (log : u.log = w.log) (memory : u.memory = w.memory) : KeepsEntries u w :=
    KeepsEntries.rfl.of_eq log memory
  have closes (s : Session) (opt : Opt) {u : World}
      (log : u.log = (w.closeLeg s opt .timeExit a).log)
      (memory : u.memory = (w.closeLeg s opt .timeExit a).memory) : KeepsEntries u w :=
    (closeLeg_keepsEntries w s opt .timeExit a).of_eq log memory
  have idle {pc : EnginePc} (here : w.engine = pc) (outside : entering pc = false) :
      entering w.engine = false := here ▸ outside
  cases move with
  | stop here | sample here | raised _ here | beginHedge _ _ here | beginExit _ here | wake here =>
    exact counted.idle (same rfl rfl) (idle here rfl) rfl
  | skip step here | finish step here =>
    exact counted.idle (same rfl rfl) (idle here rfl) (entering_after step)
  | enter s here _ _ _ new => exact counted.enter here new
  | buyCe _ _ here => exact counted.buyCe here (resumable (by rw [here]; rfl)) a.accepted
  | buyPe _ _ _ here => exact counted.buyPe here a.accepted
  | recordHedge hedge here => exact counted.recordHedge here a.saved
  | sellCe _ here | sellPe _ here => exact counted.sell here rfl a.accepted
  | record s here => exact counted.record here a
  | closeCe s here => exact counted.idle (closes s .ce rfl rfl) (idle here rfl) rfl
  | closeMorning here => exact counted.idle (closes .morning .pe rfl rfl) (idle here rfl) rfl
  | closeAfternoon here => exact counted.idle (closes .afternoon .pe rfl rfl) (idle here rfl) rfl
  | exitHedge pc here =>
    have kept := (exitHedge_keepsEntries w a pc).of_eq (v :=
      { (w.exitHedge a pc).1 with engine := EnginePc.afterExit (w.exitHedge a pc).2 }) rfl rfl
    apply counted.idle kept (idle here rfl)
    show entering (EnginePc.afterExit (w.exitHedge a pc).2) = false
    cases (w.exitHedge a pc).2 <;> rfl

theorem guardMove_counted (move : GuardMove w a v) : Counted v := by
  have closes (s : Session) (opt : Opt) := closeLeg_threads w s opt .emergencyExit a
  have kept (s : Session) (opt : Opt) := closeLeg_keepsEntries w s opt .emergencyExit a
  cases move with
  | trip | found | missing => exact counted.stays (KeepsEntries.rfl.of_eq rfl rfl) rfl
  | closeCe s => exact counted.stays ((kept s .ce).of_eq rfl rfl) (closes s .ce).engine
  | closePe s => exact counted.stays ((kept s .pe).of_eq rfl rfl) (closes s .pe).engine
  | exitHedge pc =>
    exact counted.stays ((exitHedge_keepsEntries w a pc).of_eq rfl rfl)
      (exitHedge_frame w a pc).engine

theorem Counted.killed (known : unrecorded w = false) (saved : OnDisk w) : Counted w.start where
  sold := by
    intro s opt
    have bound := counted.sold s opt
    have disk : soldIn w.start s opt = recordedIn w s := by
      cases s
      · exact saved.morning
      · exact saved.afternoon
    rw [disk]
    change timesSold w.log s opt ≤ _
    have unsold (absent : .straddleSell s opt true ∉ w.log) :
        timesSold w.log s opt ≤ (recordedIn w s).toNat := by
      rw [timesSold, count_eq_zero_of_not_mem absent]
      exact Nat.zero_le _
    cases here : w.engine with
    | sell t o =>
      by_cases same : s = t
      · subst same
        cases o with
        | ce =>
          simp only [soldIn, here, sellUnderWay, if_true, Option.getD_some] at bound
          exact bound.trans (Nat.zero_le _)
        | pe =>
          cases opt with
          | ce => exact unsold (by simpa [unrecorded, here] using known)
          | pe =>
            simp only [soldIn, here, sellUnderWay, if_true, Option.getD_some] at bound
            exact bound.trans (Nat.zero_le _)
      · cases o <;> simpa [soldIn, here, sellUnderWay, same] using bound
    | record t =>
      by_cases same : s = t
      · subst same
        simp only [unrecorded, here, decide_eq_false_iff_not, not_or] at known
        cases opt with
        | ce => exact unsold known.1
        | pe => exact unsold known.2
      · simpa [soldIn, here, sellUnderWay, same] using bound
    | _ => simpa [soldIn, here, sellUnderWay] using bound
  bought := by
    intro opt
    have bound := counted.bought opt
    have disk : boughtIn w.start opt = hedgeLegBought w.memory.hedge opt :=
      congrArg (hedgeLegBought · opt) saved.hedge
    rw [disk]
    change hedgeBought w.log opt ≤ _
    cases here : w.engine with
    | buyHedge _ _ ce =>
      cases ce <;> cases opt <;>
        simp_all [unrecorded, boughtIn, buyUnderWay]
    | recordHedge hedge =>
      cases opt <;> simp_all [unrecorded, boughtIn, buyUnderWay, Hedge.leg]
    | _ => simpa [boughtIn, here, buyUnderWay] using bound

end

def Recovering (w : World) : Prop := Counted (if w.alive then w else w.start)

theorem Recovering.of_alive (counted : Counted w) (alive : w.alive = true) :
    Recovering w := by
  rw [Recovering, if_pos alive]
  exact counted

theorem Recovering.counted (recovering : Recovering w) (alive : w.alive = true) :
    Counted w := by
  rwa [Recovering, if_pos alive] at recovering

theorem step_recovering (w : World) (e : Event) (v : World) (recovering : Recovering w)
    (resumable : Resumable w e) (moved : step w e = some v) : Recovering v := by
  cases step_move moved with
  | start dead =>
    simp only [Recovering, dead] at recovering
    exact .of_alive recovering rfl
  | crash alive => exact (recovering.counted alive).killed resumable.1 resumable.2
  | exit final ended =>
    simp only [step, ended, Option.ite_none_right_eq_some] at moved
    exact (recovering.counted moved.1).killed resumable.1 resumable.2
  | engine a alive move =>
    exact .of_alive (engineMove_counted (recovering.counted alive) resumable move)
      ((engineMove_frame move).2.2.trans alive)
  | guard a alive move =>
    exact .of_alive (guardMove_counted (recovering.counted alive) move)
      ((guardMove_frame move).2.2.2.1.trans alive)
  | monitorClose s opt reason a alive =>
    have threads := closeLeg_threads w s opt reason a
    exact .of_alive ((recovering.counted alive).stays (closeLeg_keepsEntries w s opt reason a)
      threads.engine) (threads.alive.trans alive)
  | placeStopLoss alive notes | entryFound alive notes =>
    exact .of_alive ((recovering.counted alive).stays notes.keepsEntries notes.threads.engine)
      (notes.threads.alive.trans alive)

theorem Recovering.enteredOnce (recovering : Recovering w) : EnteredOnce w := by
  have log : (if w.alive then w else w.start).log = w.log := by
    cases w.alive <;> rfl
  constructor
  · intro s opt
    have bound := recovering.sold s opt
    rw [log] at bound
    exact bound.trans (Bool.toNat_le _)
  · intro opt
    have bound := recovering.bought opt
    rw [log] at bound
    exact bound.trans (Bool.toNat_le _)
  · intro dead s opt accepted
    have bound := recovering.sold s opt
    rw [log, dead] at bound
    have positive : 0 < timesSold w.log s opt := count_pos_iff.mpr accepted
    have known : soldIn w.start s opt = recordedIn w.start s := rfl
    rw [if_neg Bool.false_ne_true, known] at bound
    cases found : recordedIn w.start s with
    | true => rfl
    | false =>
      rw [found] at bound
      exact absurd positive (Nat.not_lt.mpr bound)

theorem enteredOnce_of_resumable (events : List Event) (w : World)
    (path : run step {} events = some w) (resumable : Meets step Resumable {} events) :
    EnteredOnce w := by
  have initial : Recovering {} := ⟨fun _ _ => Nat.zero_le _, fun _ => Nat.zero_le _⟩
  exact (run_invariant_of_meets step_recovering path resumable initial).enteredOnce

def restartedBetweenEntries : List Event :=
  .start :: hedgePass ++ [.crash, .start] ++ morningPass ++ [.crash, .start]

theorem enteredOnce_restartedBetweenEntries :
    EnteredOnce (worldAfter restartedBetweenEntries) ∧
      timesSold (worldAfter restartedBetweenEntries).log .morning .ce = 1 := by
  have path : run step {} restartedBetweenEntries = some (worldAfter restartedBetweenEntries) := by
    decide +kernel
  have resumable : Meets step Resumable {} restartedBetweenEntries := by decide +kernel
  exact ⟨enteredOnce_of_resumable restartedBetweenEntries _ path resumable, by decide +kernel⟩

def killedInEntry : List Event :=
  .start :: hedgePass ++ morningPass.take 4 ++ [.crash]

def restartedInEntry : List Event := killedInEntry ++ .start :: morningPass

theorem not_enteredOnce_restartedInEntry :
    run step {} killedInEntry = some (worldAfter killedInEntry) ∧
    OrderLog.straddleSell .morning .ce true ∈ (worldAfter killedInEntry).log ∧
    recordedIn (worldAfter killedInEntry).start .morning = false ∧
    ¬ EnteredOnce (worldAfter killedInEntry) ∧
    run step {} restartedInEntry = some (worldAfter restartedInEntry) ∧
    timesSold (worldAfter restartedInEntry).log .morning .ce = 2 ∧
    ¬ EnteredOnce (worldAfter restartedInEntry) := by
  have sent : OrderLog.straddleSell .morning .ce true ∈ (worldAfter killedInEntry).log := by
    decide +kernel
  have lost : recordedIn (worldAfter killedInEntry).start .morning = false := by decide +kernel
  have twice : timesSold (worldAfter restartedInEntry).log .morning .ce = 2 := by decide +kernel
  refine ⟨by decide +kernel, sent, lost, ?_, by decide +kernel, twice, ?_⟩
  · intro once
    have found := once.recovered (by decide +kernel) .morning .ce sent
    rw [lost] at found
    cases found
  · intro once
    have bound := once.sold .morning .ce
    omega

end AlgoSystem.Proof.DoubleStraddle
