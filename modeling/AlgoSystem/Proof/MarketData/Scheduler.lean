import AlgoSystem.MarketData.Scheduler

namespace AlgoSystem.Proof.MarketData.Scheduler
open AlgoSystem.MarketData.Scheduler General

def Idle (log : List Entry) : Prop :=
  log = [] ∨ log.head? = some .stopped

/-- A feed goes live, is started and is stopped, one after the other. -/
def InTurn : List Entry → Prop
  | [] => True
  | .effect :: log => Idle log ∧ InTurn log
  | .started :: log => log.head? = some .effect ∧ InTurn log
  | .stopped :: log => log.head? = some .started ∧ InTurn log

/-- After `shutdown` no feed is left live. -/
def Orderly (s : State) : Prop :=
  InTurn s.log ∧ (s.phase = .returned → Idle s.log)

/-- No start succeeds over a feed whose stop has failed; `shutdown` finds a live feed running, and
its own stop succeeds. -/
def Clean (s : State) : Event → Prop
  | .resume succeeds => (s.phase = .starting → succeeds = true → s.log.head? ≠ some .started) ∧
      (s.phase = .finalStopping → succeeds = true)
  | .taskDone => s.live = true → s.feedRunning = true
  | _ => True

theorem idle_iff (log : List Entry) :
    Idle log ↔ log.head? ≠ some .effect ∧ log.head? ≠ some .started := by
  rcases log with _ | ⟨_ | _ | _, log⟩ <;> simp [Idle]

structure Inv (s : State) : Prop where
  live : s.live = true ↔ s.log.head? = some .effect ∨ s.log.head? = some .started
  running : s.feedRunning = true → s.log.head? = some .started
  starting : s.phase = .starting → s.live = true ∧ s.feedRunning = false
  stopping : s.phase = .stopping ∨ s.phase = .finalStopping → s.feedRunning = true
  returned : s.phase = .returned → s.feedRunning = false

variable {s t : State}

theorem Inv.idle_iff_not_live (inv : Inv s) : Idle s.log ↔ s.live = false := by
  rw [← Bool.not_eq_true, inv.live, idle_iff, not_or]

theorem Inv.goLive (inv : Inv s) (idle : s.feedRunning = false) {phase : Phase}
    (next : phase = .asleep ∨ phase = .starting) : Inv { s.goLive with phase } := by
  unfold State.goLive
  split
  next live => obtain rfl | rfl := next <;> constructor <;> simp [idle, live, inv.live.mp live]
  · obtain rfl | rfl := next <;> constructor <;> simp [idle]

/-- `endStop` takes the feed for stopped; a stop that succeeded ends it. -/
theorem Inv.endStop (inv : Inv s) (succeeds : Bool) {phase : Phase}
    (next : phase = .asleep ∨ phase = .ended ∨ phase = .returned) :
    Inv { s.endStop succeeds with phase } := by
  cases succeeds with
  | true => obtain rfl | rfl | rfl := next <;> constructor <;> simp [State.endStop]
  | false =>
    obtain rfl | rfl | rfl := next <;> constructor <;> simp [State.endStop, inv.live]

theorem Inv.goto (inv : Inv s) (stopping : Bool) {phase : Phase} (other : phase ≠ .starting)
    (stops : phase = .stopping ∨ phase = .finalStopping → s.feedRunning = true)
    (returns : phase = .returned → s.feedRunning = false) : Inv { s with stopping, phase } :=
  ⟨inv.live, inv.running, fun starts => absurd starts other, stops, returns⟩

theorem inTurn_goLive (inv : Inv s) : InTurn s.goLive.log ↔ InTurn s.log := by
  unfold State.goLive
  split
  · rfl
  next dead => simp [InTurn, inv.idle_iff_not_live, dead]

theorem inTurn_endStop (inv : Inv s) (running : s.feedRunning = true) (succeeds : Bool) :
    InTurn (s.endStop succeeds).log ↔ InTurn s.log := by
  cases succeeds with
  | true => simp [State.endStop, InTurn, inv.running running]
  | false => rfl

theorem orderly_iff (unfinished : s.phase ≠ .returned) : Orderly s ↔ InTurn s.log := by
  simp [Orderly, unfinished]

theorem goLive_spec (inv : Inv s) (asleep : s.phase = .asleep) (idle : s.feedRunning = false)
    {phase : Phase} (next : phase = .asleep ∨ phase = .starting) :
    Inv { s.goLive with phase } ∧ (Orderly { s.goLive with phase } ↔ Orderly s) := by
  refine ⟨inv.goLive idle next, ?_⟩
  rw [orderly_iff (by obtain rfl | rfl := next <;> simp), orderly_iff (by simp [asleep])]
  exact inTurn_goLive inv

theorem step_spec (s : State) (e : Event) (t : State) (inv : Inv s) (stepped : s.step e = some t) :
    Inv t ∧ (Orderly t ↔ Orderly s ∧ Clean s e) := by
  cases e with
  | tick openNow begins =>
    obtain ⟨asleep, ⟨⟩⟩ := Option.ite_none_right_eq_some.mp stepped
    simp only [Clean, and_true, State.tick]
    split
    next start =>
      have idle : s.feedRunning = false := by
        revert start
        cases openNow <;> cases s.feedRunning <;> simp [decideAction]
      cases begins with
      | refused => exact ⟨inv, .rfl⟩
      | broken =>
        have same : { s.goLive with phase := .asleep } = s.goLive := by
          unfold State.goLive
          split <;> simp [← asleep]
        exact same ▸ goLive_spec inv asleep idle (.inl rfl)
      | waits => exact goLive_spec inv asleep idle (.inr rfl)
    next stop =>
      have running : s.feedRunning = true := by
        revert stop
        cases openNow <;> cases s.feedRunning <;> simp [decideAction]
      exact ⟨inv.goto _ (by simp) (fun _ => running) (by simp), by simp [Orderly, asleep]⟩
    all_goals exact ⟨inv, .rfl⟩
  | resume succeeds =>
    cases here : s.phase <;> simp only [State.step, here, reduceCtorEq] at stepped
    case starting =>
      cases succeeds <;> cases stepped
      · exact ⟨inv.goto _ (by simp) (by simp) (by simp), by simp [Orderly, Clean, here]⟩
      · refine ⟨by constructor <;> simp [inv.starting here], ?_⟩
        -- the feed that starts is live: its last entry tells whether it was started before
        rw [orderly_iff (by simp), orderly_iff (by simp [here])]
        obtain effect | started := inv.live.mp (inv.starting here).1
        · simp [Clean, InTurn, here, effect]
        · simp [Clean, InTurn, here, started]
    case stopping =>
      cases stepped
      have next : (if s.stopping then Phase.ended else .asleep) ≠ .returned := by
        split <;> simp
      refine ⟨inv.endStop _ (by split <;> simp), ?_⟩
      rw [orderly_iff next, orderly_iff (by simp [here]),
        inTurn_endStop inv (inv.stopping (.inl here))]
      simp [Clean, here]
    case finalStopping =>
      cases stepped
      have running := inv.stopping (.inr here)
      refine ⟨inv.endStop _ (by simp), ?_⟩
      rw [Orderly, inTurn_endStop inv running, orderly_iff (by simp [here])]
      cases succeeds with
      | true => simp [Clean, here, State.endStop, Idle]
      | false => simp [Clean, here, State.endStop, idle_iff, inv.running running]
  | shutdown =>
    cases once : s.stopping <;> cases here : s.phase <;>
      simp [State.step, once, here] at stepped <;> subst stepped
    case false.stopping =>
      have running := inv.stopping (.inl here)
      exact ⟨inv.goto _ (by simp) (fun _ => running) (by simp), by simp [Orderly, Clean, here]⟩
    all_goals exact ⟨inv.goto _ (by simp) (by simp) (by simp), by simp [Orderly, Clean, here]⟩
  | taskDone =>
    obtain ⟨ended, ⟨⟩⟩ := Option.ite_none_right_eq_some.mp stepped
    split
    next running =>
      exact ⟨inv.goto _ (by simp) (fun _ => running) (by simp),
        by simp [Orderly, Clean, ended, running]⟩
    next running =>
      rw [Bool.not_eq_true] at running
      exact ⟨inv.goto _ (by simp) (by simp) (fun _ => running),
        by simp [Orderly, Clean, ended, inv.idle_iff_not_live, running]⟩

theorem step_inv (s : State) (e : Event) (t : State) (inv : Inv s) (stepped : s.step e = some t) :
    Inv t :=
  (step_spec s e t inv stepped).1

theorem hooks_in_turn (events : List Event) : Always State.step Inv {} events :=
  fun _ _ _ path => run_invariant step_inv path (by constructor <;> simp)

/-- Starts and stops alternate and every live feed is stopped once exactly when no start comes after
a failed stop and `shutdown` leaves none, such as one whose start was cancelled. -/
theorem feeds_stopped_iff {events : List Event} {s : State}
    (path : run State.step {} events = some s) :
    Orderly s ↔ Meets State.step Clean {} events := by
  have start : Inv {} := by constructor <;> simp
  rw [run_property_iff step_inv (fun s e t inv stepped => (step_spec s e t inv stepped).2) path start]
  simp [Orderly, InTurn]

theorem open_and_close : ∃ s, Orderly s ∧ s.log = [.stopped, .started, .effect] :=
  ⟨_, (@feeds_stopped_iff
    [.tick true .waits, .resume true, .tick false .refused, .shutdown, .resume true, .taskDone] _
    rfl).2 (by simp [Meets, Clean, State.step, State.tick, State.goLive, State.endStop, decideAction]),
    rfl⟩

theorem cancelled_start_left_live : ∃ s,
    run State.step {} [.tick true .waits, .shutdown, .taskDone] = some s ∧
    s.phase = .returned ∧ s.live = true ∧ ¬ Orderly s :=
  ⟨{ stopping := true, phase := .returned, live := true, log := [.effect] }, rfl, rfl, rfl,
    by simp [Orderly, Idle]⟩

end AlgoSystem.Proof.MarketData.Scheduler
