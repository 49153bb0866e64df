import AlgoSystem.CombinedVwap.Manager

namespace AlgoSystem.Proof.CombinedVwap
open AlgoSystem.CombinedVwap General

structure SamePosition (a b : Leg) : Prop where
  inPosition : a.inPosition = b.inPosition
  entryPrice : a.entryPrice = b.entryPrice
  cumLoss : a.cumLoss = b.cumLoss
  lastExitTime : a.lastExitTime = b.lastExitTime

theorem SamePosition.rfl {a : Leg} : SamePosition a a := ⟨Eq.refl _, Eq.refl _, Eq.refl _, Eq.refl _⟩

theorem SamePosition.trans {a b c : Leg} (ab : SamePosition a b) (bc : SamePosition b c) :
    SamePosition a c :=
  ⟨ab.1.trans bc.1, ab.2.trans bc.2, ab.3.trans bc.3, ab.4.trans bc.4⟩

structure SameControl (m n : Manager) : Prop where
  index : m.combinedRiskLevelIndex = n.combinedRiskLevelIndex
  stopped : m.dayStopped = n.dayStopped
  done : m.dayDone = n.dayDone
  ended : m.ended = n.ended

theorem SameControl.rfl {m : Manager} : SameControl m m := ⟨Eq.refl _, Eq.refl _, Eq.refl _, Eq.refl _⟩

theorem SameControl.trans {m n k : Manager} (mn : SameControl m n) (nk : SameControl n k) :
    SameControl m k :=
  ⟨mn.1.trans nk.1, mn.2.trans nk.2, mn.3.trans nk.3, mn.4.trans nk.4⟩

def other : Token → Token
  | .ce => .pe
  | .pe => .ce

variable (cfg : Config) (m : Manager) (token : Token) (reason : ExitReason) (fill : Fill)
  (leg : Leg) (ticks : List PriceTick) (order : Order) (now : ℚ) (restLtp : Option ℚ) (restTime : ℚ)

@[simp] theorem leg_setLeg_same : (m.setLeg token leg).leg token = leg := by
  cases token <;> rfl

@[simp] theorem leg_setLeg_other :
    (m.setLeg token leg).leg (other token) = m.leg (other token) := by
  cases token <;> rfl

theorem setLeg_control : SameControl (m.setLeg token leg) m := by
  cases token <;> exact ⟨rfl, rfl, rfl, rfl⟩

@[simp] theorem setLeg_orders : (m.setLeg token leg).orders = m.orders := by
  cases token <;> rfl

theorem updateLtp_position (tick : PriceTick) (token : Token) :
    SamePosition ((m.updateLtp tick).leg token) (m.leg token) := by
  obtain ⟨target, ltp, time⟩ := tick
  cases target <;> cases token <;> exact ⟨rfl, rfl, rfl, rfl⟩

theorem updateLtp_control (tick : PriceTick) : SameControl (m.updateLtp tick) m :=
  setLeg_control _ _ _

theorem updateLtps_position (m : Manager) (token : Token) :
    SamePosition ((m.updateLtps ticks).leg token) (m.leg token) := by
  induction ticks generalizing m with
  | nil => exact SamePosition.rfl
  | cons tick ticks ih => exact (ih (m.updateLtp tick)).trans (updateLtp_position m tick token)

theorem updateLtps_control (m : Manager) : SameControl (m.updateLtps ticks) m := by
  induction ticks generalizing m with
  | nil => exact SameControl.rfl
  | cons tick ticks ih => exact (ih (m.updateLtp tick)).trans (updateLtp_control m tick)

@[simp] theorem updateLtps_orders (m : Manager) : (m.updateLtps ticks).orders = m.orders := by
  induction ticks generalizing m with
  | nil => rfl
  | cons tick ticks ih =>
    refine (ih (m.updateLtp tick)).trans ?_
    simp [Manager.updateLtp]

theorem submit_position (fill : Fill) (token : Token) :
    SamePosition ((m.submit order fill).leg token) (m.leg token) :=
  (updateLtps_position fill.during _ token).trans (by cases token <;> exact SamePosition.rfl)

theorem submit_control (fill : Fill) : SameControl (m.submit order fill) m :=
  (updateLtps_control fill.during _).trans ⟨rfl, rfl, rfl, rfl⟩

@[simp] theorem submit_orders (fill : Fill) :
    (m.submit order fill).orders = m.orders ++ [order] := by
  simp [Manager.submit]

theorem checkStaleFeed_position (t : Token) :
    SamePosition ((m.checkStaleFeed token now restLtp restTime).leg t) (m.leg t) := by
  unfold Manager.checkStaleFeed
  cases (m.leg token).lastTickTime with
  | none => exact SamePosition.rfl
  | some lastTick =>
    have alerted (stale : Bool) : SamePosition
        ((m.setLeg token { m.leg token with staleAlerted := stale }).leg t) (m.leg t) := by
      cases token <;> cases t <;> exact ⟨rfl, rfl, rfl, rfl⟩
    dsimp only
    split
    · cases restLtp with
      | none => exact alerted _
      | some ltp => exact (updateLtp_position _ _ t).trans (alerted _)
    · exact alerted _

theorem checkStaleFeed_control : SameControl (m.checkStaleFeed token now restLtp restTime) m := by
  unfold Manager.checkStaleFeed
  cases (m.leg token).lastTickTime with
  | none => exact SameControl.rfl
  | some lastTick =>
    dsimp only
    split
    · cases restLtp with
      | none => exact setLeg_control _ _ _
      | some ltp => exact (updateLtp_control _ _).trans (setLeg_control _ _ _)
    · exact setLeg_control _ _ _

theorem checkStaleFeed_orders :
    (m.checkStaleFeed token now restLtp restTime).orders = m.orders := by
  unfold Manager.checkStaleFeed
  cases (m.leg token).lastTickTime with
  | none => rfl
  | some lastTick =>
    dsimp only
    split
    · cases restLtp <;> simp [Manager.updateLtp]
    · simp

theorem enterLeg_control : SameControl (m.enterLeg cfg token fill) m := by
  unfold Manager.enterLeg
  dsimp only
  split
  · exact SameControl.rfl
  · split
    · exact (setLeg_control _ _ _).trans (submit_control _ _ _)
    · exact submit_control _ _ _

theorem exitLeg_control : SameControl (m.exitLeg cfg token reason fill) m := by
  unfold Manager.exitLeg
  exact (setLeg_control _ _ _).trans (submit_control _ _ _)

theorem exitLeg_flat : ((m.exitLeg cfg token reason fill).leg token).inPosition = false := by
  simp [Manager.exitLeg]

theorem exitLeg_other :
    (m.exitLeg cfg token reason fill).leg (other token) =
      (m.submit ⟨token, cfg.qty, .buy, m.exitRefPrice token, .exit reason⟩ fill).leg
        (other token) := by
  simp [Manager.exitLeg]

theorem exitLeg_orders :
    (m.exitLeg cfg token reason fill).orders =
      m.orders ++ [⟨token, cfg.qty, .buy, m.exitRefPrice token, .exit reason⟩] := by
  simp [Manager.exitLeg]

theorem exitIfOpen_control : SameControl (m.exitIfOpen cfg token reason fill) m := by
  unfold Manager.exitIfOpen
  split
  · exact exitLeg_control _ _ _ _ _
  · exact SameControl.rfl

theorem exitIfOpen_flat : ((m.exitIfOpen cfg token reason fill).leg token).inPosition = false := by
  unfold Manager.exitIfOpen
  cases h : (m.leg token).inPosition with
  | true => simpa using exitLeg_flat cfg m token reason fill
  | false => simpa using h

theorem exitIfOpen_other :
    SamePosition ((m.exitIfOpen cfg token reason fill).leg (other token)) (m.leg (other token)) := by
  unfold Manager.exitIfOpen
  split
  · rw [exitLeg_other]
    exact submit_position _ _ _ _
  · exact SamePosition.rfl

end AlgoSystem.Proof.CombinedVwap
