import AlgoSystem.General.Rounding
import Mathlib.Data.List.MinMax

/-!
`trading/algos/CombinedVwapNifty/manager.py` with the values of `config.py` it uses. The `config`
dictionaries have the two option tokens as keys; here each token has one `Leg`.
-/

namespace AlgoSystem.CombinedVwap
open General

inductive Token where
  | ce
  | pe
  deriving DecidableEq

structure Config where
  lotSize : Nat := 65
  numLots : Nat := 1

def Config.qty (cfg : Config) : Nat := cfg.lotSize * cfg.numLots

def riskLossLevels : List ℚ := [650, 1300, 2000]
def reentryCooldownSeconds : ℚ := 60
def staleDataSeconds : ℚ := 15
def noNewEntryAfter : Nat := 15 * 3600
def eodSquareOffTime : Nat := 15 * 3600 + 25 * 60

structure Leg where
  inPosition : Bool := false
  entryPrice : ℚ := 0
  cumLoss : ℚ := 0
  lastExitTime : ℚ := 0
  reentryCount : Nat := 0
  lastLtp : Option ℚ := none
  lastTickTime : Option ℚ := none
  staleAlerted : Bool := false
  deriving DecidableEq

inductive SignalState where
  | waitArm
  | armed
  deriving DecidableEq

inductive ExitReason where
  | eod
  | slLevel (level : Nat)
  deriving DecidableEq

inductive Label where
  | entry
  | exit (reason : ExitReason)
  deriving DecidableEq

inductive Side where
  | buy
  | sell
  deriving DecidableEq

structure Order where
  token : Token
  qty : Nat
  side : Side
  referencePrice : ℚ
  label : Label
  deriving DecidableEq

structure PriceTick where
  token : Token
  ltp : ℚ
  time : ℚ

/-- The answer of one `execute_limit_order` call, with the ticks that arrive while it runs and the
clock when it returns. -/
structure Fill where
  filledQty : Nat
  avgPrice : ℚ
  slippage : ℚ := 0
  during : List PriceTick := []
  endTime : ℚ := 0

structure Manager where
  ce : Leg := {}
  pe : Leg := {}
  combinedRiskLevelIndex : Nat := 0
  dayStopped : Bool := false
  skipLogIndex : Option Nat := none
  signalState : SignalState := .waitArm
  firstFlagEntry : Bool := true
  dayDone : Bool := false
  ended : Bool := false  -- the loop has been left with `break`
  orders : List Order := []
  deriving DecidableEq

inductive Candles where
  | missing
  | empty
  | latest (ts : Nat) (cp cv : ℚ)

structure Pass where
  timeOfDay : Nat
  riskFill : Token → Fill
  staleTime : Token → ℚ
  restLtp : Token → Option ℚ
  restTime : Token → ℚ
  eodFill : Token → Fill
  candles : Candles
  reentryTime : Token → ℚ
  entryFill : Token → Fill

namespace Manager

def leg (m : Manager) : Token → Leg
  | .ce => m.ce
  | .pe => m.pe

def setLeg (m : Manager) (token : Token) (leg : Leg) : Manager :=
  match token with
  | .ce => { m with ce := leg }
  | .pe => { m with pe := leg }

def updateLtp (m : Manager) (tick : PriceTick) : Manager :=
  m.setLeg tick.token
    { m.leg tick.token with lastLtp := some tick.ltp, lastTickTime := some tick.time }

def updateLtps (m : Manager) (ticks : List PriceTick) : Manager := ticks.foldl updateLtp m

def submit (m : Manager) (order : Order) (fill : Fill) : Manager :=
  { m with orders := m.orders ++ [order] }.updateLtps fill.during

def enterLeg (cfg : Config) (m : Manager) (token : Token) (fill : Fill) : Manager :=
  let refPrice := (m.leg token).lastLtp.getD 0
  if refPrice ≤ 0 then m
  else
    let m := m.submit ⟨token, cfg.qty, .sell, refPrice, .entry⟩ fill
    if 0 < fill.filledQty then
      m.setLeg token { m.leg token with inPosition := true, entryPrice := fill.avgPrice }
    else m

def canReenter (m : Manager) (token : Token) (now : ℚ) : Bool :=
  if m.dayStopped then false
  else
    let lastExit := (m.leg token).lastExitTime
    !(decide (lastExit ≠ 0) && decide (now - lastExit < reentryCooldownSeconds))

def triggerLeg (cfg : Config) (m : Manager) (token : Token) (now : ℚ) (fill : Fill) : Manager :=
  if (m.leg token).inPosition then m
  else
    let isReentry := decide (0 < (m.leg token).lastExitTime)
    if isReentry && !m.canReenter token now then m
    else
      let m := m.enterLeg cfg token fill
      if isReentry && (m.leg token).inPosition then
        m.setLeg token { m.leg token with reentryCount := (m.leg token).reentryCount + 1 }
      else m

def handleTrigger (cfg : Config) (m : Manager) (ts : Nat) (now : Token → ℚ)
    (fill : Token → Fill) : Manager :=
  if m.dayStopped then m
  else if noNewEntryAfter ≤ ts then m
  else
    let m := m.triggerLeg cfg .ce (now .ce) (fill .ce)
    m.triggerLeg cfg .pe (now .pe) (fill .pe)

def exitRefPrice (m : Manager) (token : Token) : ℚ :=
  (m.leg token).lastLtp.getD (m.leg token).entryPrice

def exitLeg (cfg : Config) (m : Manager) (token : Token) (reason : ExitReason) (fill : Fill) :
    Manager :=
  let refPrice := m.exitRefPrice token
  let m := m.submit ⟨token, cfg.qty, .buy, refPrice, .exit reason⟩ fill
  let exitQty := if fill.filledQty = 0 then cfg.qty else fill.filledQty
  let exitPrice := if fill.avgPrice = 0 then refPrice else fill.avgPrice
  let leg := m.leg token
  let pnl := roundTo 2 ((leg.entryPrice - exitPrice) * exitQty)
  m.setLeg token { leg with
    cumLoss := leg.cumLoss - pnl
    inPosition := false
    entryPrice := 0
    lastExitTime := fill.endTime }

def legUnrealizedPnlAsLoss (cfg : Config) (m : Manager) (token : Token) : ℚ :=
  if !(m.leg token).inPosition then 0
  else match (m.leg token).lastLtp with
    | none => 0
    | some ltp => (ltp - (m.leg token).entryPrice) * cfg.qty

def combinedLoss (cfg : Config) (m : Manager) : ℚ :=
  let realized := m.ce.cumLoss + m.pe.cumLoss
  let unrealized := m.legUnrealizedPnlAsLoss cfg .ce + m.legUnrealizedPnlAsLoss cfg .pe
  realized + unrealized

def biggerLoser (cfg : Config) (m : Manager) : Option Token :=
  let candidates := [Token.ce, Token.pe]
  let candidates := candidates.filter fun token => (m.leg token).inPosition
  let candidates := candidates.filter fun token => 0 < m.legUnrealizedPnlAsLoss cfg token
  -- A descending stable sort puts the first of the greatest losses in front.
  candidates.argmax (m.legUnrealizedPnlAsLoss cfg)

def threshold (cfg : Config) (levelIndex : Nat) : ℚ :=
  riskLossLevels.getD levelIndex 0 * cfg.numLots

def exitIfOpen (cfg : Config) (m : Manager) (token : Token) (reason : ExitReason) (fill : Fill) :
    Manager :=
  if (m.leg token).inPosition then m.exitLeg cfg token reason fill else m

def checkCombinedRisk (cfg : Config) (m : Manager) (fill : Token → Fill) : Manager :=
  let levelIndex := m.combinedRiskLevelIndex
  if riskLossLevels.length ≤ levelIndex then m
  else if m.combinedLoss cfg < threshold cfg levelIndex then m
  else if riskLossLevels.length - 1 ≤ levelIndex then
    let m := m.exitIfOpen cfg .ce (.slLevel 3) (fill .ce)
    let m := m.exitIfOpen cfg .pe (.slLevel 3) (fill .pe)
    { m with combinedRiskLevelIndex := m.combinedRiskLevelIndex + 1, dayStopped := true }
  else match m.biggerLoser cfg with
    | none => { m with skipLogIndex := some levelIndex }
    | some loser =>
      let m := { m with skipLogIndex := none }
      let m := m.exitLeg cfg loser (.slLevel (levelIndex + 1)) (fill loser)
      { m with combinedRiskLevelIndex := m.combinedRiskLevelIndex + 1 }

/-- `now` is the clock at the check, `restLtp` and `restTime` the REST answer and its clock. -/
def checkStaleFeed (m : Manager) (token : Token) (now : ℚ) (restLtp : Option ℚ) (restTime : ℚ) :
    Manager :=
  match (m.leg token).lastTickTime with
  | none => m
  | some lastTick =>
    let stale := decide (staleDataSeconds < now - lastTick)
    let m := m.setLeg token { m.leg token with staleAlerted := stale }
    if stale then
      match restLtp with
      | none => m
      | some ltp => m.updateLtp ⟨token, ltp, restTime⟩
    else m

def evaluateSignal (cfg : Config) (m : Manager) (pass : Pass) : Manager :=
  match pass.candles with
  | .missing => m
  | .empty => { m with firstFlagEntry := false }
  | .latest ts cp cv =>
    let anyLegExitedToday := decide (0 < m.ce.lastExitTime) || decide (0 < m.pe.lastExitTime)
    let needsReentry := !m.ce.inPosition || !m.pe.inPosition
    let m :=
      if anyLegExitedToday && needsReentry && decide (cp < cv) then
        m.handleTrigger cfg ts pass.reentryTime pass.entryFill
      else if m.signalState = .waitArm ∧ cv < cp then { m with signalState := .armed }
      else if m.signalState = .armed ∧ cp < cv then
        { m.handleTrigger cfg ts pass.reentryTime pass.entryFill with signalState := .waitArm }
      else m
    { m with firstFlagEntry := false }

def squareOffEod (cfg : Config) (m : Manager) (pass : Pass) : Manager :=
  let m := m.exitIfOpen cfg .ce .eod (pass.eodFill .ce)
  let m := m.exitIfOpen cfg .pe .eod (pass.eodFill .pe)
  { m with dayDone := true, ended := true }

def trademanagerPass (cfg : Config) (m : Manager) (pass : Pass) : Manager :=
  let checked := if m.dayDone then m else m.checkCombinedRisk cfg pass.riskFill
  if !m.dayDone && checked.dayStopped then { checked with dayDone := true, ended := true }
  else
    let m := checked.checkStaleFeed .ce (pass.staleTime .ce) (pass.restLtp .ce) (pass.restTime .ce)
    let m := m.checkStaleFeed .pe (pass.staleTime .pe) (pass.restLtp .pe) (pass.restTime .pe)
    if !m.dayDone && decide (eodSquareOffTime ≤ pass.timeOfDay) then m.squareOffEod cfg pass
    else if pass.timeOfDay % 60 = 0 ∨ m.firstFlagEntry then m.evaluateSignal cfg pass
    else m

end Manager

inductive Event where
  | tick (tick : PriceTick)
  | pass (pass : Pass)

def step (cfg : Config) (m : Manager) : Event → Option Manager
  | .tick tick => some (m.updateLtp tick)
  | .pass pass => if m.ended then none else some (m.trademanagerPass cfg pass)

end AlgoSystem.CombinedVwap
