import AlgoSystem.General.Runs

/-!
`MarketDataScheduler` of `trading/market_data/scheduler.py` with `startup_flow` and `stop_flow` of
`service.py` as its hooks. A step goes from one await to the next.
-/

namespace AlgoSystem.MarketData.Scheduler
open General

inductive Action where
  | start
  | stop
  | running
  | idle

def decideAction (openNow feedRunning : Bool) : Action :=
  if openNow && !feedRunning then .start
  else if !openNow && feedRunning then .stop
  else if openNow then .running else .idle

inductive Phase where
  | asleep
  | starting
  | stopping
  | ended
  | finalStopping
  | returned
  deriving DecidableEq

/-- How `startup_flow` comes to its await: it raises before the feed is live, after that, or not. -/
inductive Begin where
  | refused
  | broken
  | waits

/-- The feed goes live, `on_start` returns, `on_stop` returns. -/
inductive Entry where
  | effect
  | started
  | stopped

structure State where
  feedRunning : Bool := false
  stopping : Bool := false
  phase : Phase := .asleep
  live : Bool := false
  log : List Entry := []

inductive Event where
  | tick (openNow : Bool) (begins : Begin)
  | resume (succeeds : Bool)
  | shutdown
  | taskDone

namespace State

def goLive (s : State) : State :=
  if s.live then s else { s with live := true, log := .effect :: s.log }

/-- The end of `_run_stop`, which takes the feed for stopped in either case. -/
def endStop (s : State) (succeeds : Bool) : State :=
  if succeeds then { s with feedRunning := false, live := false, log := .stopped :: s.log }
  else { s with feedRunning := false }

def tick (s : State) (openNow : Bool) (begins : Begin) : State :=
  match decideAction openNow s.feedRunning with
  | .start =>
    match begins with
    | .refused => s
    | .broken => s.goLive
    | .waits => { s.goLive with phase := .starting }
  | .stop => { s with phase := .stopping }
  | .running | .idle => s

def step (s : State) : Event → Option State
  | .tick openNow begins =>
    if s.phase = .asleep then some (s.tick openNow begins) else none
  | .resume succeeds =>
    match s.phase with
    | .starting =>
      if succeeds then
        some { s with feedRunning := true, phase := .asleep, log := .started :: s.log }
      else some { s with phase := .asleep }
    | .stopping =>
      some { s.endStop succeeds with phase := if s.stopping then .ended else .asleep }
    | .finalStopping => some { s.endStop succeeds with phase := .returned }
    | _ => none
  | .shutdown =>
    if s.stopping then none
    else match s.phase with
      | .asleep | .starting => some { s with stopping := true, phase := .ended }
      | .stopping => some { s with stopping := true }
      | _ => none
  | .taskDone =>
    if s.phase = .ended then
      some { s with phase := if s.feedRunning then .finalStopping else .returned }
    else none

end State

end AlgoSystem.MarketData.Scheduler
