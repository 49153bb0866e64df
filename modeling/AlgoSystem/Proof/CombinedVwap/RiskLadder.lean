import AlgoSystem.General.Runs
import AlgoSystem.Proof.CombinedVwap.Frame
import Mathlib.Tactic.IntervalCases
import Mathlib.Tactic.Linarith
import Mathlib.Tactic.NormNum

namespace AlgoSystem.Proof.CombinedVwap
open AlgoSystem.CombinedVwap General List

def quietFill (cfg : Config) (m : Manager) (now : ℚ) (token : Token) : Fill :=
  { filledQty := cfg.qty, avgPrice := m.exitRefPrice token, endTime := now }

def quietCheck (cfg : Config) (m : Manager) (now : ℚ) : Manager :=
  m.checkCombinedRisk cfg (quietFill cfg m now)

def quietRun (cfg : Config) (clock : Nat → ℚ) (m : Manager) : Nat → Manager
  | 0 => m
  | k + 1 => quietCheck cfg (quietRun cfg clock m k) (clock k)

def rule3Threshold (cfg : Config) : ℚ := Manager.threshold cfg (riskLossLevels.length - 1)

def StaysAbove (cfg : Config) (clock : Nat → ℚ) (m : Manager) : Prop :=
  ∀ k < 3, (quietRun cfg clock m k).dayStopped = true ∨
    rule3Threshold cfg ≤ (quietRun cfg clock m k).combinedLoss cfg

def StoppedFlat (m : Manager) : Prop :=
  m.dayStopped = true ∧ ∀ token, (m.leg token).inPosition = false

instance : DecidablePred StoppedFlat := fun m =>
  decidable_of_iff (m.dayStopped = true ∧ m.ce.inPosition = false ∧ m.pe.inPosition = false)
    ⟨fun ⟨stopped, call, put⟩ => ⟨stopped, fun | .ce => call | .pe => put⟩,
      fun ⟨stopped, flat⟩ => ⟨stopped, flat .ce, flat .pe⟩⟩

instance (cfg : Config) (clock : Nat → ℚ) (m : Manager) : Decidable (StaysAbove cfg clock m) :=
  inferInstanceAs (Decidable (∀ k < 3, _))

def losing (cfg : Config) (m : Manager) (token : Token) : Bool :=
  decide (0 < m.legUnrealizedPnlAsLoss cfg token)

def losingLegs (cfg : Config) (m : Manager) : Nat := [Token.ce, .pe].countP (losing cfg m)

def entryOrders (m : Manager) : List Order := m.orders.filter fun order => order.label = .entry

variable {cfg : Config} {m : Manager} {token : Token}

theorem losing_inPosition (loses : losing cfg m token = true) :
    (m.leg token).inPosition = true := by
  cases h : (m.leg token).inPosition with
  | true => rfl
  | false => simp [losing, Manager.legUnrealizedPnlAsLoss, h] at loses

variable {n : Manager}

theorem losing_congr (same : m.leg token = n.leg token) :
    losing cfg m token = losing cfg n token := by
  simp [losing, Manager.legUnrealizedPnlAsLoss, same]

theorem losingLegs_eq (cfg : Config) (m : Manager) (token : Token) :
    losingLegs cfg m =
      (if losing cfg m token then 1 else 0) + (if losing cfg m (other token) then 1 else 0) := by
  cases call : losing cfg m .ce <;> cases put : losing cfg m .pe <;> cases token <;>
    simp [losingLegs, other, call, put]

theorem biggerLoser_eq_none (none : m.biggerLoser cfg = none) :
    losingLegs cfg m = 0 := by
  have empty := argmax_eq_none.mp none
  simp only [filter_eq_nil_iff, mem_filter] at empty
  rw [losingLegs, countP_eq_zero]
  intro token member loses
  exact empty token ⟨member, losing_inPosition loses⟩ (by simpa [losing] using loses)

theorem biggerLoser_eq_some (found : m.biggerLoser cfg = some token) :
    losing cfg m token = true := by
  have member := argmax_mem found
  simp only [mem_filter] at member
  simpa [losing] using member.2

theorem threshold_mono (cfg : Config) {levelIndex : Nat} (low : levelIndex ≤ 2) :
    Manager.threshold cfg levelIndex ≤ rule3Threshold cfg := by
  have lots : (0 : ℚ) ≤ cfg.numLots := Nat.cast_nonneg _
  have level : riskLossLevels.getD levelIndex 0 ≤ 2000 := by
    interval_cases levelIndex <;> norm_num [riskLossLevels]
  have top : rule3Threshold cfg = 2000 * cfg.numLots := by
    norm_num [rule3Threshold, Manager.threshold, riskLossLevels]
  rw [top, Manager.threshold]
  exact mul_le_mul_of_nonneg_right level lots

section
variable (cfg m)

theorem check_cases (fill : Token → Fill) :
    (m.checkCombinedRisk cfg fill = m ∧
      (3 ≤ m.combinedRiskLevelIndex ∨ m.combinedLoss cfg < rule3Threshold cfg)) ∨
    (m.combinedRiskLevelIndex = 2 ∧ m.checkCombinedRisk cfg fill =
      { (m.exitIfOpen cfg .ce (.slLevel 3) (fill .ce)).exitIfOpen cfg .pe (.slLevel 3) (fill .pe) with
        combinedRiskLevelIndex := 3, dayStopped := true }) ∨
    (m.combinedRiskLevelIndex < 2 ∧ losingLegs cfg m = 0 ∧
      m.checkCombinedRisk cfg fill = { m with skipLogIndex := some m.combinedRiskLevelIndex }) ∨
    (m.combinedRiskLevelIndex < 2 ∧ ∃ token, losing cfg m token = true ∧
      m.checkCombinedRisk cfg fill =
        { ({ m with skipLogIndex := none } : Manager).exitLeg cfg token
            (.slLevel (m.combinedRiskLevelIndex + 1)) (fill token) with
          combinedRiskLevelIndex := m.combinedRiskLevelIndex + 1 }) := by
  have length : riskLossLevels.length = 3 := rfl
  unfold Manager.checkCombinedRisk
  simp only [length]
  by_cases top : 3 ≤ m.combinedRiskLevelIndex
  · exact .inl ⟨by simp [top], .inl top⟩
  · rw [if_neg top]
    by_cases below : m.combinedLoss cfg < Manager.threshold cfg m.combinedRiskLevelIndex
    · have bound := threshold_mono cfg (show m.combinedRiskLevelIndex ≤ 2 by omega)
      exact .inl ⟨by simp [below], .inr (below.trans_le bound)⟩
    · rw [if_neg below]
      by_cases last : 2 ≤ m.combinedRiskLevelIndex
      · have index : m.combinedRiskLevelIndex = 2 := by omega
        refine .inr (.inl ⟨index, ?_⟩)
        have control := (exitIfOpen_control cfg (m.exitIfOpen cfg .ce (.slLevel 3) (fill .ce)) .pe
          (.slLevel 3) (fill .pe)).trans (exitIfOpen_control cfg m .ce (.slLevel 3) (fill .ce))
        simp [control.index, index]
      · rw [if_neg (by omega)]
        cases loser : m.biggerLoser cfg with
        | none =>
          exact .inr (.inr (.inl ⟨by omega, biggerLoser_eq_none loser, rfl⟩))
        | some token =>
          refine .inr (.inr (.inr ⟨by omega, token, biggerLoser_eq_some loser, ?_⟩))
          have control := exitLeg_control cfg { m with skipLogIndex := none } token
            (.slLevel (m.combinedRiskLevelIndex + 1)) (fill token)
          simp [control.index]

theorem check_index_le (fill : Token → Fill) :
    m.combinedRiskLevelIndex ≤ (m.checkCombinedRisk cfg fill).combinedRiskLevelIndex := by
  rcases check_cases cfg m fill with ⟨same, -⟩ | ⟨index, same⟩ | ⟨-, -, same⟩ | ⟨-, token, -, same⟩
  all_goals rw [same]
  · exact index ▸ Nat.le_succ 2
  · exact Nat.le_succ _

theorem exitLeg_entryOrders (token : Token) (reason : ExitReason) (fill : Fill) :
    entryOrders (m.exitLeg cfg token reason fill) = entryOrders m := by
  simp [entryOrders, exitLeg_orders]

theorem exitIfOpen_entryOrders (token : Token) (reason : ExitReason) (fill : Fill) :
    entryOrders (m.exitIfOpen cfg token reason fill) = entryOrders m := by
  unfold Manager.exitIfOpen
  split
  · exact exitLeg_entryOrders _ _ _ _ _
  · rfl

theorem check_entryOrders (fill : Token → Fill) :
    entryOrders (m.checkCombinedRisk cfg fill) = entryOrders m := by
  rcases check_cases cfg m fill with ⟨same, -⟩ | ⟨-, same⟩ | ⟨-, -, same⟩ | ⟨-, token, -, same⟩
  all_goals rw [same]
  · exact (exitIfOpen_entryOrders _ _ _ _ _).trans (exitIfOpen_entryOrders _ _ _ _ _)
  · rfl
  · exact exitLeg_entryOrders cfg { m with skipLogIndex := none } _ _ _

end

theorem check_stays_stopped (stopped : m.dayStopped = true) (fill : Token → Fill) :
    (m.checkCombinedRisk cfg fill).dayStopped = true := by
  rcases check_cases cfg m fill with ⟨same, -⟩ | ⟨-, same⟩ | ⟨-, -, same⟩ | ⟨-, token, -, same⟩
  all_goals rw [same]
  · exact stopped
  · exact stopped
  · exact (exitLeg_control cfg { m with skipLogIndex := none } token _ (fill token)).stopped.trans
      stopped

theorem triggerLeg_control (cfg : Config) (m : Manager) (token : Token) (now : ℚ) (fill : Fill) :
    SameControl (m.triggerLeg cfg token now fill) m := by
  unfold Manager.triggerLeg
  dsimp only
  split
  · exact SameControl.rfl
  · split
    · exact SameControl.rfl
    · split
      · exact (setLeg_control _ _ _).trans (enterLeg_control _ _ _ _)
      · exact enterLeg_control _ _ _ _

theorem handleTrigger_control (cfg : Config) (m : Manager) (ts : Nat) (now : Token → ℚ)
    (fill : Token → Fill) : SameControl (m.handleTrigger cfg ts now fill) m := by
  unfold Manager.handleTrigger
  dsimp only
  split
  · exact SameControl.rfl
  · split
    · exact SameControl.rfl
    · exact (triggerLeg_control _ _ _ _ _).trans (triggerLeg_control _ _ _ _ _)

theorem evaluateSignal_control (cfg : Config) (m : Manager) (pass : Pass) :
    SameControl (m.evaluateSignal cfg pass) m := by
  unfold Manager.evaluateSignal
  cases pass.candles with
  | missing => exact SameControl.rfl
  | empty => exact ⟨rfl, rfl, rfl, rfl⟩
  | latest ts cp cv =>
    have trigger := handleTrigger_control cfg m ts pass.reentryTime pass.entryFill
    dsimp only
    split
    · exact ⟨trigger.1, trigger.2, trigger.3, trigger.4⟩
    · split
      · exact ⟨rfl, rfl, rfl, rfl⟩
      · split
        · exact ⟨trigger.1, trigger.2, trigger.3, trigger.4⟩
        · exact ⟨rfl, rfl, rfl, rfl⟩

theorem evaluateSignal_of_stopped (stopped : m.dayStopped = true) (cfg : Config) (pass : Pass) :
    (m.evaluateSignal cfg pass).orders = m.orders ∧
      ∀ token, (m.evaluateSignal cfg pass).leg token = m.leg token := by
  unfold Manager.evaluateSignal
  cases pass.candles with
  | missing => exact ⟨rfl, fun _ => rfl⟩
  | empty => exact ⟨rfl, fun token => by cases token <;> rfl⟩
  | latest ts cp cv =>
    simp only [Manager.handleTrigger, stopped, if_true]
    split
    · exact ⟨rfl, fun token => by cases token <;> rfl⟩
    · split
      · exact ⟨rfl, fun token => by cases token <;> rfl⟩
      · split <;> exact ⟨rfl, fun token => by cases token <;> rfl⟩

section
variable (cfg m) (pass : Pass)

theorem squareOffEod_control :
    (m.squareOffEod cfg pass).combinedRiskLevelIndex = m.combinedRiskLevelIndex ∧
      (m.squareOffEod cfg pass).dayStopped = m.dayStopped := by
  have control := (exitIfOpen_control cfg (m.exitIfOpen cfg .ce .eod (pass.eodFill .ce)) .pe .eod
    (pass.eodFill .pe)).trans (exitIfOpen_control cfg m .ce .eod (pass.eodFill .ce))
  exact ⟨control.index, control.stopped⟩

theorem exitBoth_flat (reason : ExitReason) (fill : Token → Fill) (token : Token) :
    (((m.exitIfOpen cfg .ce reason (fill .ce)).exitIfOpen cfg .pe reason (fill .pe)).leg
      token).inPosition = false := by
  cases token with
  | pe => exact exitIfOpen_flat _ _ _ _ _
  | ce =>
    have kept := exitIfOpen_other cfg (m.exitIfOpen cfg .ce reason (fill .ce)) .pe reason (fill .pe)
    exact kept.inPosition.trans (exitIfOpen_flat _ _ _ _ _)

def checked (cfg : Config) (m : Manager) (pass : Pass) : Manager :=
  if m.dayDone then m else m.checkCombinedRisk cfg pass.riskFill

def refreshed (m : Manager) (pass : Pass) : Manager :=
  (m.checkStaleFeed .ce (pass.staleTime .ce) (pass.restLtp .ce) (pass.restTime .ce)).checkStaleFeed
    .pe (pass.staleTime .pe) (pass.restLtp .pe) (pass.restTime .pe)

theorem refreshed_control : SameControl (refreshed m pass) m :=
  (checkStaleFeed_control _ _ _ _ _).trans (checkStaleFeed_control _ _ _ _ _)

theorem refreshed_position (token : Token) :
    SamePosition ((refreshed m pass).leg token) (m.leg token) :=
  (checkStaleFeed_position _ _ _ _ _ token).trans (checkStaleFeed_position _ _ _ _ _ token)

theorem refreshed_orders : (refreshed m pass).orders = m.orders :=
  (checkStaleFeed_orders _ _ _ _ _).trans (checkStaleFeed_orders _ _ _ _ _)

theorem pass_cases :
    m.trademanagerPass cfg pass = { checked cfg m pass with dayDone := true, ended := true } ∨
    m.trademanagerPass cfg pass = (refreshed (checked cfg m pass) pass).squareOffEod cfg pass ∨
    m.trademanagerPass cfg pass = (refreshed (checked cfg m pass) pass).evaluateSignal cfg pass ∨
    m.trademanagerPass cfg pass = refreshed (checked cfg m pass) pass := by
  have shape : m.trademanagerPass cfg pass =
      if (!m.dayDone && (checked cfg m pass).dayStopped) = true then
        { checked cfg m pass with dayDone := true, ended := true }
      else if (!(refreshed (checked cfg m pass) pass).dayDone &&
          decide (eodSquareOffTime ≤ pass.timeOfDay)) = true then
        (refreshed (checked cfg m pass) pass).squareOffEod cfg pass
      else if pass.timeOfDay % 60 = 0 ∨ (refreshed (checked cfg m pass) pass).firstFlagEntry then
        (refreshed (checked cfg m pass) pass).evaluateSignal cfg pass
      else refreshed (checked cfg m pass) pass := rfl
  rw [shape]
  split
  · exact .inl rfl
  · split
    · exact .inr (.inl rfl)
    · split
      · exact .inr (.inr (.inl rfl))
      · exact .inr (.inr (.inr rfl))

theorem checked_index_le :
    m.combinedRiskLevelIndex ≤ (checked cfg m pass).combinedRiskLevelIndex := by
  unfold checked
  split
  · exact le_rfl
  · exact check_index_le _ _ _

theorem pass_index_le :
    m.combinedRiskLevelIndex ≤ (m.trademanagerPass cfg pass).combinedRiskLevelIndex := by
  refine (checked_index_le cfg m pass).trans_eq ?_
  have fresh := (refreshed_control (checked cfg m pass) pass).index
  rcases pass_cases cfg m pass with same | same | same | same
  all_goals rw [same]
  · rw [(squareOffEod_control cfg _ pass).1, fresh]
  · rw [(evaluateSignal_control cfg _ pass).index, fresh]
  · rw [fresh]

end

theorem step_index_le {e : Event} (moved : step cfg m e = some n) :
    m.combinedRiskLevelIndex ≤ n.combinedRiskLevelIndex := by
  cases e with
  | tick tick =>
    cases moved
    exact (updateLtp_control m tick).index.ge
  | pass pass =>
    simp only [step] at moved
    split at moved
    · cases moved
    · cases moved
      exact pass_index_le cfg m pass

structure LadderInv (m : Manager) : Prop where
  stopped : m.dayStopped = true ↔ 3 ≤ m.combinedRiskLevelIndex
  flat : m.dayStopped = true → ∀ token, (m.leg token).inPosition = false

theorem LadderInv.of_same (inv : LadderInv m) (control : SameControl n m)
    (position : ∀ token, SamePosition (n.leg token) (m.leg token)) : LadderInv n where
  stopped := by rw [control.stopped, control.index, inv.stopped]
  flat := by
    intro stopped token
    rw [(position token).inPosition]
    exact inv.flat (control.stopped ▸ stopped) token

theorem check_ladderInv (inv : LadderInv m) (fill : Token → Fill) :
    LadderInv (m.checkCombinedRisk cfg fill) := by
  have running (low : m.combinedRiskLevelIndex < 2) : m.dayStopped = false := by
    cases h : m.dayStopped with
    | false => rfl
    | true =>
      have := inv.stopped.mp h
      omega
  rcases check_cases cfg m fill with ⟨same, -⟩ | ⟨-, same⟩ | ⟨low, -, same⟩ | ⟨low, token, -, same⟩
  all_goals rw [same]
  · exact inv
  · refine ⟨by simp, fun _ token => ?_⟩
    have flat := exitBoth_flat cfg m (.slLevel 3) fill token
    cases token <;> exact flat
  · have flag := running low
    refine ⟨?_, by simp [flag]⟩
    simp only [flag]
    exact ⟨by simp, by omega⟩
  · have flag : (({ m with skipLogIndex := none } : Manager).exitLeg cfg token
        (.slLevel (m.combinedRiskLevelIndex + 1)) (fill token)).dayStopped = false :=
      (exitLeg_control cfg { m with skipLogIndex := none } token _ (fill token)).stopped.trans
        (running low)
    refine ⟨?_, by simp [flag]⟩
    simp only [flag]
    exact ⟨by simp, by omega⟩

theorem pass_ladderInv (inv : LadderInv m) (pass : Pass) :
    LadderInv (m.trademanagerPass cfg pass) := by
  have first : LadderInv (checked cfg m pass) := by
    unfold checked
    split
    · exact inv
    · exact check_ladderInv inv _
  have fresh : LadderInv (refreshed (checked cfg m pass) pass) :=
    first.of_same (refreshed_control _ pass) (refreshed_position _ pass)
  rcases pass_cases cfg m pass with same | same | same | same
  all_goals rw [same]
  · refine ⟨first.stopped, fun stopped token => ?_⟩
    have flat := first.flat stopped token
    cases token <;> exact flat
  · obtain ⟨index, stopped⟩ := squareOffEod_control cfg (refreshed (checked cfg m pass) pass) pass
    refine ⟨by rw [index, stopped, fresh.stopped], fun _ token => ?_⟩
    have flat := exitBoth_flat cfg (refreshed (checked cfg m pass) pass) .eod pass.eodFill token
    cases token <;> exact flat
  · have control := evaluateSignal_control cfg (refreshed (checked cfg m pass) pass) pass
    refine ⟨by rw [control.stopped, control.index, fresh.stopped], fun stopped token => ?_⟩
    rw [control.stopped] at stopped
    rw [(evaluateSignal_of_stopped stopped cfg pass).2 token]
    exact fresh.flat stopped token
  · exact fresh

theorem step_ladderInv (m : Manager) (e : Event) (n : Manager) (inv : LadderInv m)
    (moved : step cfg m e = some n) : LadderInv n := by
  cases e with
  | tick tick =>
    cases moved
    exact inv.of_same (updateLtp_control m tick) (updateLtp_position m tick)
  | pass pass =>
    simp only [step] at moved
    split at moved
    · cases moved
    · cases moved
      exact pass_ladderInv inv pass

theorem reachable_ladderInv (reachable : Reachable (step cfg) {} m) :
    LadderInv m :=
  reachable_invariant step_ladderInv ⟨by decide, by simp⟩ reachable

theorem stopped_day_is_flat (cfg : Config) (events : List Event) :
    Always (step cfg) LadderInv {} events :=
  fun before _ _ path => reachable_ladderInv ⟨before, path⟩

theorem pass_of_stopped (cfg : Config) (stopped : m.dayStopped = true) (pass : Pass) :
    (m.trademanagerPass cfg pass).dayStopped = true ∧
      entryOrders (m.trademanagerPass cfg pass) = entryOrders m := by
  have first : (checked cfg m pass).dayStopped = true ∧
      entryOrders (checked cfg m pass) = entryOrders m := by
    unfold checked
    split
    · exact ⟨stopped, rfl⟩
    · exact ⟨check_stays_stopped stopped _, check_entryOrders _ _ _⟩
  have fresh : (refreshed (checked cfg m pass) pass).dayStopped = true ∧
      entryOrders (refreshed (checked cfg m pass) pass) = entryOrders m := by
    refine ⟨(refreshed_control _ pass).stopped.trans first.1, ?_⟩
    rw [← first.2, entryOrders, entryOrders, refreshed_orders]
  rcases pass_cases cfg m pass with same | same | same | same
  all_goals rw [same]
  · exact first
  · refine ⟨(squareOffEod_control cfg _ pass).2.trans fresh.1, ?_⟩
    rw [← fresh.2]
    exact (exitIfOpen_entryOrders _ _ _ _ _).trans (exitIfOpen_entryOrders _ _ _ _ _)
  · refine ⟨(evaluateSignal_control cfg _ pass).stopped.trans fresh.1, ?_⟩
    rw [← fresh.2, entryOrders, entryOrders, (evaluateSignal_of_stopped fresh.1 cfg pass).1]
  · exact fresh

theorem run_of_stopped {events : List Event} (path : run (step cfg) m events = some n)
    (stopped : m.dayStopped = true) :
    entryOrders n = entryOrders m := by
  have kept : n.dayStopped = true ∧ entryOrders n = entryOrders m := by
    refine run_invariant (I := fun u => u.dayStopped = true ∧ entryOrders u = entryOrders m)
      ?_ path ⟨stopped, rfl⟩
    intro u e v kept moved
    cases e with
    | tick tick =>
      cases moved
      refine ⟨(updateLtp_control u tick).stopped.trans kept.1, ?_⟩
      rw [← kept.2]
      simp [entryOrders, Manager.updateLtp]
    | pass pass =>
      simp only [step] at moved
      split at moved
      · cases moved
      · cases moved
        have after := pass_of_stopped cfg kept.1 pass
        exact ⟨after.1, after.2.trans kept.2⟩
  exact kept.2

theorem quietCheck_of_stopped (inv : LadderInv m) (stopped : m.dayStopped = true) (now : ℚ) :
    quietCheck cfg m now = m := by
  have top := inv.stopped.mp stopped
  rcases check_cases cfg m (quietFill cfg m now) with ⟨same, -⟩ | ⟨index, -⟩ | ⟨low, -⟩ | ⟨low, -⟩
  · exact same
  all_goals omega

theorem quietCheck_last (index : m.combinedRiskLevelIndex = 2)
    (above : rule3Threshold cfg ≤ m.combinedLoss cfg) (now : ℚ) :
    StoppedFlat (quietCheck cfg m now) := by
  rcases check_cases cfg m (quietFill cfg m now) with
    ⟨-, top | below⟩ | ⟨-, same⟩ | ⟨low, -⟩ | ⟨low, -⟩
  · omega
  · exact absurd above (not_le.mpr below)
  · rw [quietCheck, same]
    refine ⟨rfl, fun token => ?_⟩
    have flat := exitBoth_flat cfg m (.slLevel 3) (quietFill cfg m now) token
    cases token <;> exact flat
  · omega
  · omega

theorem quietCheck_low (low : m.combinedRiskLevelIndex < 2)
    (above : rule3Threshold cfg ≤ m.combinedLoss cfg) (now : ℚ) :
    (losingLegs cfg m = 0 ∧ losingLegs cfg (quietCheck cfg m now) = 0 ∧
      (quietCheck cfg m now).combinedRiskLevelIndex = m.combinedRiskLevelIndex) ∨
    (losingLegs cfg (quietCheck cfg m now) + 1 = losingLegs cfg m ∧
      (quietCheck cfg m now).combinedRiskLevelIndex = m.combinedRiskLevelIndex + 1) := by
  rcases check_cases cfg m (quietFill cfg m now) with
    ⟨-, top | below⟩ | ⟨index, -⟩ | ⟨-, none, same⟩ | ⟨-, token, loses, same⟩
  · omega
  · exact absurd above (not_le.mpr below)
  · omega
  · rw [quietCheck, same]
    exact .inl ⟨none, none, rfl⟩
  · rw [quietCheck, same]
    refine .inr ⟨?_, rfl⟩
    set exited := ({ m with skipLogIndex := none } : Manager).exitLeg cfg token
      (.slLevel (m.combinedRiskLevelIndex + 1)) (quietFill cfg m now token)
    have gone : losing cfg { exited with combinedRiskLevelIndex := m.combinedRiskLevelIndex + 1 }
        token = false := by
      rw [Bool.eq_false_iff]
      intro still
      have flat := exitLeg_flat cfg { m with skipLogIndex := none } token
        (.slLevel (m.combinedRiskLevelIndex + 1)) (quietFill cfg m now token)
      have open' := losing_inPosition still
      cases token <;> exact absurd (flat.symm.trans open') (by decide)
    have kept : losing cfg { exited with combinedRiskLevelIndex := m.combinedRiskLevelIndex + 1 }
        (other token) = losing cfg m (other token) := by
      apply losing_congr
      have untouched := exitLeg_other cfg { m with skipLogIndex := none } token
        (.slLevel (m.combinedRiskLevelIndex + 1)) (quietFill cfg m now token)
      cases token <;> exact untouched
    rw [losingLegs_eq cfg _ token, losingLegs_eq cfg m token, gone, kept, loses]
    simp [Nat.add_comm]

theorem quietRun_ladderInv (cfg : Config) (inv : LadderInv m) (clock : Nat → ℚ) (k : Nat) :
    LadderInv (quietRun cfg clock m k) := by
  induction k with
  | zero => exact inv
  | succ k ih => exact check_ladderInv ih _

variable {clock : Nat → ℚ}

section
variable (inv : LadderInv m) (above : StaysAbove cfg clock m)
include inv above

theorem quietRun_climbs (enough : 2 ≤ m.combinedRiskLevelIndex + losingLegs cfg m) (k : Nat)
    (few : k ≤ 3) :
    StoppedFlat (quietRun cfg clock m k) ∨
      (k ≤ (quietRun cfg clock m k).combinedRiskLevelIndex ∧
        2 ≤ (quietRun cfg clock m k).combinedRiskLevelIndex +
          losingLegs cfg (quietRun cfg clock m k)) := by
  induction k with
  | zero => exact .inr ⟨Nat.zero_le _, enough⟩
  | succ k ih =>
    have here := quietRun_ladderInv cfg inv clock k
    by_cases stopped : (quietRun cfg clock m k).dayStopped = true
    · left
      rw [quietRun, quietCheck_of_stopped here stopped]
      exact ⟨stopped, here.flat stopped⟩
    · have loss := (above k few).resolve_left stopped
      have below : (quietRun cfg clock m k).combinedRiskLevelIndex < 3 := by
        rw [here.stopped] at stopped
        omega
      rcases ih (by omega) with done | ⟨climbed, legs⟩
      · exact absurd done.1 stopped
      · by_cases last : (quietRun cfg clock m k).combinedRiskLevelIndex = 2
        · exact .inl (quietCheck_last last loss _)
        · right
          rcases quietCheck_low (by omega) loss (clock k) with ⟨none, -⟩ | ⟨legs', index⟩
          · omega
          · rw [quietRun]
            omega

theorem quietRun_stays_low (few : m.combinedRiskLevelIndex + losingLegs cfg m < 2) (k : Nat)
    (bound : k ≤ 3) :
    (quietRun cfg clock m k).combinedRiskLevelIndex +
      losingLegs cfg (quietRun cfg clock m k) < 2 := by
  induction k with
  | zero => exact few
  | succ k ih =>
    have low := ih (by omega)
    have here := quietRun_ladderInv cfg inv clock k
    have running : ¬ (quietRun cfg clock m k).dayStopped = true := by
      rw [here.stopped]
      omega
    have loss := (above k bound).resolve_left running
    rw [quietRun]
    rcases quietCheck_low (by omega) loss (clock k) with ⟨none, none', index⟩ | ⟨legs, index⟩ <;>
      omega

theorem stoppedFlat_iff :
    (∃ k ≤ 3, StoppedFlat (quietRun cfg clock m k)) ↔
      2 ≤ m.combinedRiskLevelIndex + losingLegs cfg m := by
  constructor
  · rintro ⟨k, bound, stopped, -⟩
    by_contra few
    have low := quietRun_stays_low inv above (by omega) k bound
    have top := (quietRun_ladderInv cfg inv clock k).stopped.mp stopped
    omega
  · intro enough
    refine ⟨3, le_rfl, ?_⟩
    rcases quietRun_climbs inv above enough 3 le_rfl with done | ⟨climbed, -⟩
    · exact done
    · have last := quietRun_ladderInv cfg inv clock 3
      have stopped := last.stopped.mpr climbed
      exact ⟨stopped, last.flat stopped⟩

end

/-- A loss above the threshold of Rule 3 stops the day exactly when the levels already climbed and
the legs that are themselves losing reach the last level. -/
theorem rule3_stops_iff (cfg : Config) :
    (∀ m, Reachable (step cfg) {} m → ∀ clock, StaysAbove cfg clock m →
      ((∃ k ≤ 3, StoppedFlat (quietRun cfg clock m k)) ↔
        riskLossLevels.length - 1 ≤ m.combinedRiskLevelIndex + losingLegs cfg m)) ∧
    (∀ m events n, run (step cfg) m events = some n →
      m.combinedRiskLevelIndex ≤ n.combinedRiskLevelIndex ∧
      (m.dayStopped = true → entryOrders n = entryOrders m)) := by
  refine ⟨fun m reachable clock above => ?_, fun m events n path => ⟨?_, ?_⟩⟩
  · exact stoppedFlat_iff (reachable_ladderInv reachable) above
  · exact run_monotone (fun _ _ _ moved => step_index_le moved) path
  · exact run_of_stopped path

def signalPass (cp cv : ℚ) : Pass where
  timeOfDay := 10 * 3600
  riskFill := fun _ => { filledQty := 0, avgPrice := 0 }
  staleTime := fun _ => 1
  restLtp := fun _ => none
  restTime := fun _ => 1
  eodFill := fun _ => { filledQty := 0, avgPrice := 0 }
  candles := .latest (10 * 3600) cp cv
  reentryTime := fun _ => 1
  entryFill := fun _ => { filledQty := 65, avgPrice := 100 }

def soldThenPriced (ce pe : ℚ) : List Event :=
  [.tick ⟨.ce, 100, 1⟩, .tick ⟨.pe, 100, 1⟩, .pass (signalPass 201 200), .pass (signalPass 199 200),
    .tick ⟨.ce, ce, 2⟩, .tick ⟨.pe, pe, 2⟩]

def dayAfter (events : List Event) : Manager := (run (step {}) {} events).getD {}

theorem rule3_stops_both_losing :
    StaysAbove {} (fun _ => 3) (dayAfter (soldThenPriced 140 110)) ∧
      ∃ k ≤ 3, StoppedFlat (quietRun {} (fun _ => 3) (dayAfter (soldThenPriced 140 110)) k) := by
  have path : run (step {}) {} (soldThenPriced 140 110) =
      some (dayAfter (soldThenPriced 140 110)) := by decide +kernel
  have above : StaysAbove {} (fun _ => 3) (dayAfter (soldThenPriced 140 110)) := by decide +kernel
  exact ⟨above, ((rule3_stops_iff {}).1 _ ⟨_, path⟩ _ above).mpr (by decide +kernel)⟩

/-- A losing call and a put in profit: the net loss is 2275, Rule 1 exits the call, and the ladder
never moves again. -/
theorem rule3_skipped_put_in_profit :
    run (step {}) {} (soldThenPriced 140 95) = some (dayAfter (soldThenPriced 140 95)) ∧
    StaysAbove {} (fun _ => 3) (dayAfter (soldThenPriced 140 95)) ∧
    ¬ ∃ k ≤ 3, StoppedFlat (quietRun {} (fun _ => 3) (dayAfter (soldThenPriced 140 95)) k) := by
  refine ⟨by decide +kernel, by decide +kernel, ?_⟩
  decide +kernel

end AlgoSystem.Proof.CombinedVwap
