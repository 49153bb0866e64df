import AlgoSystem.DoubleStraddle.Leg

/-!
`trading/algos/DoubleStraddelAlgo` in live mode: the loop of `strategy/engine.py`, `enter_hedge` and
`exit_hedge` of `hedge.py`, `enter_straddle` and `time_exit_straddle` of `straddle.py`,
`emergency_square_off` of `risk/guard.py` and the file of `state/store.py`. The threads interleave
between broker calls; the leg's lock makes a close one step. The process may be killed at any time
and started again on the same day.
-/

namespace AlgoSystem.DoubleStraddle

inductive Session where
  | morning
  | afternoon
  deriving DecidableEq

structure HedgeToken where
  strike : Nat
  opt : Opt
  deriving DecidableEq

structure HedgeLeg where
  strike : Nat
  bought : Bool
  deriving DecidableEq

structure Hedge where
  ce : HedgeLeg
  pe : HedgeLeg
  deriving DecidableEq

def Hedge.leg (hedge : Hedge) : Opt → HedgeLeg
  | .ce => hedge.ce
  | .pe => hedge.pe

def Hedge.token (hedge : Hedge) (opt : Opt) : HedgeToken := ⟨(hedge.leg opt).strike, opt⟩

/-- A session's entry in the state; it is there exactly when the session is entered. -/
structure SessionRecord where
  ce : LegRecord
  pe : LegRecord
  deriving DecidableEq

def SessionRecord.leg (session : SessionRecord) : Opt → LegRecord
  | .ce => session.ce
  | .pe => session.pe

def SessionRecord.setLeg (session : SessionRecord) (opt : Opt) (leg : LegRecord) : SessionRecord :=
  match opt with
  | .ce => { session with ce := leg }
  | .pe => { session with pe := leg }

structure Memory where
  hedgeActive : Bool := false
  hedge : Option Hedge := none
  morning : Option SessionRecord := none
  afternoon : Option SessionRecord := none
  deriving DecidableEq

def Memory.session (memory : Memory) : Session → Option SessionRecord
  | .morning => memory.morning
  | .afternoon => memory.afternoon

def Memory.setSession (memory : Memory) (s : Session) (session : SessionRecord) : Memory :=
  match s with
  | .morning => { memory with morning := some session }
  | .afternoon => { memory with afternoon := some session }

inductive Step where
  | hedge
  | morn
  | mornExit
  | aft
  | final
  deriving DecidableEq

def Step.minute : Step → Nat
  | .hedge => 10 * 60 + 20
  | .morn => 10 * 60 + 25
  | .mornExit => 14 * 60 + 14
  | .aft => 14 * 60 + 16
  | .final => 15 * 60 + 18

inductive ExitPc where
  | begin
  | sell (hedge : Hedge) (opt : Opt)
  | clear
  deriving DecidableEq

inductive EnginePc where
  | top
  | at (step : Step)
  | buyHedge (ceStrike peStrike : Nat) (ce : Option Bool)
  | recordHedge (hedge : Hedge)
  | sell (s : Session) (opt : Opt)
  | record (s : Session)
  | squareOff (s : Session) (opt : Opt)
  | finalSleep
  | exitHedge (pc : ExitPc)
  | ended (final : Bool)
  deriving DecidableEq

def EnginePc.afterExit : Option ExitPc → EnginePc
  | some pc => .exitHedge pc
  | none => .ended true

def Step.after : Step → EnginePc
  | .hedge => .at .morn
  | .morn => .at .mornExit
  | .mornExit => .at .aft
  | .aft => .at .final
  | .final => .top

inductive GuardPc where
  | watching
  | check (s : Session)
  | squareOff (s : Session) (opt : Opt)
  | exitHedge (pc : ExitPc)
  | finished
  deriving DecidableEq

def GuardPc.afterExit : Option ExitPc → GuardPc
  | some pc => .exitHedge pc
  | none => .finished

def GuardPc.afterSession : Session → GuardPc
  | .morning => .check .afternoon
  | .afternoon => .exitHedge .begin

inductive OrderLog where
  | straddleSell (s : Session) (opt : Opt) (accepted : Bool)
  | stopLoss (s : Session) (opt : Opt) (accepted : Bool)
  | stopLossFilled (s : Session) (opt : Opt)
  | buyBack (s : Session) (opt : Opt) (accepted : Bool)
  | hedgeBuy (token : HedgeToken) (accepted : Bool)
  | hedgeSell (token : HedgeToken) (accepted : Bool)
  deriving DecidableEq

structure World where
  alive : Bool := false
  memory : Memory := {}
  disk : Memory := {}
  killSwitch : Bool := false
  doneSteps : List Step := []
  clock : Nat := 0
  engine : EnginePc := .top
  guard : GuardPc := .watching
  log : List OrderLog := []
  deriving DecidableEq

/-- The sampled minute, the hedge strikes (`none` if `get_atm` raises), whether an order is
accepted, whether a close finds the leg's stop-loss filled, the entry prices, and whether the state
file is written. -/
structure Answer where
  now : Nat := 0
  strikes : Option (Nat × Nat) := none
  accepted : Bool := true
  stopLossFilled : Bool := false
  ceEntry : Option ℚ := none
  peEntry : Option ℚ := none
  saved : Bool := true

namespace World

def save (w : World) (saved : Bool) : World := if saved then { w with disk := w.memory } else w

def submit (w : World) (order : OrderLog) : World := { w with log := w.log ++ [order] }

def setLeg (w : World) (s : Session) (session : SessionRecord) (opt : Opt) (leg : LegRecord) :
    World :=
  { w with memory := w.memory.setSession s (session.setLeg opt leg) }

def closeLeg (w : World) (s : Session) (opt : Opt) (reason : Reason) (a : Answer) : World :=
  match w.memory.session s with
  | none => w
  | some session =>
    let leg := session.leg opt
    if leg.done then w
    else if leg.slOid.isSome && a.stopLossFilled then
      ((w.submit (.stopLossFilled s opt)).setLeg s session opt
        (leg.recordExit .brokerStopLoss)).save a.saved
    else
      ((w.submit (.buyBack s opt a.accepted)).setLeg s session opt
        (leg.recordExit reason)).save a.saved

def placeStopLoss (w : World) (s : Session) (opt : Opt) (a : Answer) : World :=
  match w.memory.session s with
  | none => w
  | some session =>
    let leg := session.leg opt
    if leg.wantsStopLoss then
      let sent := w.submit (.stopLoss s opt a.accepted)
      if a.accepted then
        (sent.setLeg s session opt { leg with slOid := some w.log.length }).save a.saved
      else sent
    else w

/-- `_monitor_leg` of a leg whose entry price was missing. -/
def entryFound (w : World) (s : Session) (opt : Opt) (price : ℚ) (a : Answer) : World :=
  match w.memory.session s with
  | none => w
  | some session =>
    let leg := session.leg opt
    if leg.entry.isSome then w
    else (w.setLeg s session opt { leg with entry := some price }).save a.saved

def exitHedge (w : World) (a : Answer) : ExitPc → World × Option ExitPc
  | .begin =>
    match w.memory.hedge with
    | none => (w, none)
    | some hedge => (w, some (.sell hedge .ce))
  | .sell hedge opt =>
    (if (hedge.leg opt).bought then w.submit (.hedgeSell (hedge.token opt) a.accepted) else w,
      some (match opt with
        | .ce => .sell hedge .pe
        | .pe => .clear))
  | .clear => ({ w with memory := { w.memory with hedgeActive := false } }.save a.saved, none)

def nextStep (w : World) (step : Step) : World := { w with engine := step.after }

def finishStep (w : World) (step : Step) : World :=
  { w with doneSteps := step :: w.doneSteps }.nextStep step

def enterStraddle (w : World) (a : Answer) (s : Session) (step : Step) : World :=
  if !w.memory.hedgeActive || (w.memory.session s).isSome then w.finishStep step
  else if a.strikes.isNone then { w with engine := .top }
  else { w with engine := .sell s .ce }

def beginStep (w : World) (a : Answer) : Step → World
  | .hedge =>
    if w.memory.hedgeActive then w.finishStep .hedge
    else match a.strikes with
      | none => { w with engine := .top }
      | some (ceStrike, peStrike) => { w with engine := .buyHedge ceStrike peStrike none }
  | .morn => w.enterStraddle a .morning .morn
  | .mornExit => { w with engine := .squareOff .morning .ce }
  | .aft => w.enterStraddle a .afternoon .aft
  | .final => { w with engine := .squareOff .afternoon .ce }

def recordHedge (w : World) (hedge : Hedge) (saved : Bool) : World :=
  { w with memory := { w.memory with
      hedge := some hedge
      hedgeActive := hedge.ce.bought && hedge.pe.bought } }.save saved

def recordSession (w : World) (s : Session) (a : Answer) : World :=
  { w with memory := w.memory.setSession s ⟨{ entry := a.ceEntry }, { entry := a.peEntry }⟩ }.save
    a.saved

def entryStep : Session → Step
  | .morning => .morn
  | .afternoon => .aft

def engineStep (w : World) (a : Answer) : Option World :=
  match w.engine with
  | .top =>
    if w.killSwitch then some { w with engine := .ended false }
    else if w.clock ≤ a.now then some { w with clock := a.now, engine := .at .hedge }
    else none
  | .at step =>
    if w.clock = step.minute ∧ step ∉ w.doneSteps then some (w.beginStep a step)
    else some (w.nextStep step)
  | .buyHedge ceStrike peStrike none =>
    some { w.submit (.hedgeBuy ⟨ceStrike, .ce⟩ a.accepted) with
      engine := .buyHedge ceStrike peStrike (some a.accepted) }
  | .buyHedge ceStrike peStrike (some ce) =>
    some { w.submit (.hedgeBuy ⟨peStrike, .pe⟩ a.accepted) with
      engine := .recordHedge ⟨⟨ceStrike, ce⟩, ⟨peStrike, a.accepted⟩⟩ }
  | .recordHedge hedge => some ((w.recordHedge hedge a.saved).finishStep .hedge)
  | .sell s .ce =>
    some { w.submit (.straddleSell s .ce a.accepted) with engine := .sell s .pe }
  | .sell s .pe =>
    some { w.submit (.straddleSell s .pe a.accepted) with engine := .record s }
  | .record s => some ((w.recordSession s a).finishStep (entryStep s))
  | .squareOff s .ce =>
    some { w.closeLeg s .ce .timeExit a with engine := .squareOff s .pe }
  | .squareOff .morning .pe => some ((w.closeLeg .morning .pe .timeExit a).finishStep .mornExit)
  | .squareOff .afternoon .pe =>
    some { w.closeLeg .afternoon .pe .timeExit a with engine := .finalSleep }
  | .finalSleep => some { w with engine := .exitHedge .begin }
  | .exitHedge pc =>
    let exit := w.exitHedge a pc
    some { exit.1 with engine := EnginePc.afterExit exit.2 }
  | .ended _ => none

def guardStep (w : World) (a : Answer) : Option World :=
  match w.guard with
  | .watching => some { w with killSwitch := true, guard := .check .morning }
  | .check s =>
    some { w with guard :=
      if (w.memory.session s).isSome then .squareOff s .ce else GuardPc.afterSession s }
  | .squareOff s .ce =>
    some { w.closeLeg s .ce .emergencyExit a with guard := .squareOff s .pe }
  | .squareOff s .pe =>
    some { w.closeLeg s .pe .emergencyExit a with guard := GuardPc.afterSession s }
  | .exitHedge pc =>
    let exit := w.exitHedge a pc
    some { exit.1 with guard := GuardPc.afterExit exit.2 }
  | .finished => none

def start (w : World) : World :=
  { w with
    alive := true
    memory := w.disk
    killSwitch := false
    doneSteps :=
      (if w.disk.hedgeActive then [.hedge] else []) ++
        (if w.disk.morning.isSome then [.morn] else []) ++
        (if w.disk.afternoon.isSome then [.aft] else [])
    engine := .top
    guard := .watching }

end World

inductive Event where
  | start
  | crash
  | exit
  | engine (a : Answer)
  | guard (a : Answer)
  | monitorClose (s : Session) (opt : Opt) (reason : Reason) (a : Answer)
  | placeStopLoss (s : Session) (opt : Opt) (a : Answer)
  | entryFound (s : Session) (opt : Opt) (price : ℚ) (a : Answer)

def step (w : World) : Event → Option World
  | .start => if w.alive then none else some w.start
  | .crash => if w.alive then some { w with alive := false } else none
  | .exit =>
    match w.engine with
    | .ended _ => if w.alive then some { w with alive := false } else none
    | _ => none
  | .engine a => if w.alive then w.engineStep a else none
  | .guard a => if w.alive then w.guardStep a else none
  | .monitorClose s opt reason a =>
    if w.alive ∧ (reason = .stopLoss ∨ reason = .target) then some (w.closeLeg s opt reason a)
    else none
  | .placeStopLoss s opt a => if w.alive then some (w.placeStopLoss s opt a) else none
  | .entryFound s opt price a => if w.alive then some (w.entryFound s opt price a) else none

end AlgoSystem.DoubleStraddle
