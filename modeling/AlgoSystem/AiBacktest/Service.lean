import AlgoSystem.AiBacktest.Repository
import AlgoSystem.General.Runs

/-!
`_run_backtest`, `_run_one_cell`, `resume_backtest` and `cancel_backtest` of `service.py` in
`trading/ai_research/backtest`. A step performs at most one call that writes to the rows.
-/

namespace AlgoSystem.AiBacktest
open General

inductive Stage where
  | buildingRequest
  | creatingRun
  | markingRunning (researchId : String)
  | resolvingInstrument (researchId : String)
  | buildingContext (researchId : String)
  | researching (researchId : String)
  | buildingReport (researchId : String) (finalTradeDecision : Option String)
  | persisting (researchId : String) (finalTradeDecision : Option String)
  | lookingUp (researchId : String) (finalTradeDecision : Option String)
  | completing (researchId : String) (finalTradeDecision normalized : Option String)
  | markingFailed (error : String)
  | failing (error : String)
  deriving DecidableEq

structure Answer where
  researchId : String := ""
  finalTradeDecision : Option String := none
  rating : Option String := none
  evaluation : Option Evaluation := none
  deriving DecidableEq

inductive Outcome where
  | returns (answer : Answer)
  | raises (error : String)
  deriving DecidableEq

inductive Call where
  | markCellRunning (key : Key)
  | markCellCompleted (key : Key) (researchId : String)
      (rawDecision normalizedDecision : Option String)
  | markCellFailed (key : Key) (error : String)
  | markCellEvaluated (key : Key) (evaluation : Evaluation)

def Job.perform (job : Job) : Call → Job
  | .markCellRunning key => job.markCellRunning key
  | .markCellCompleted key researchId rawDecision normalizedDecision =>
    job.markCellCompleted key researchId rawDecision normalizedDecision
  | .markCellFailed key error => job.markCellFailed key error
  | .markCellEvaluated key evaluation => job.markCellEvaluated key evaluation

namespace Stage

def afterReturn (india : Bool) (key : Key) (answer : Answer) : Stage → Stage ⊕ Call
  | buildingRequest => .inl creatingRun
  | creatingRun => .inl (markingRunning answer.researchId)
  | markingRunning researchId => .inl (resolvingInstrument researchId)
  | resolvingInstrument researchId =>
    .inl (if india then buildingContext researchId else researching researchId)
  | buildingContext researchId => .inl (researching researchId)
  | researching researchId => .inl (buildingReport researchId answer.finalTradeDecision)
  | buildingReport researchId decision => .inl (persisting researchId decision)
  | persisting researchId decision => .inl (lookingUp researchId decision)
  | lookingUp researchId decision => .inl (completing researchId decision answer.rating)
  | completing researchId decision rating =>
    .inr (.markCellCompleted key researchId decision rating)
  | markingFailed error => .inl (failing error)
  | failing error => .inr (.markCellFailed key error)

/-- The stage of the handler; `none` for an exception that leaves `_run_one_cell`. -/
def afterRaise (error : String) : Stage → Option Stage
  | buildingContext researchId => some (researching researchId)
  | researching _ => some (markingFailed (firstChars 1000 error))
  | persisting _ _ => some (failing "failed to persist research result")
  | _ => none

end Stage

inductive Position where
  | entering
  | waiting
  | looping (rest : List Int)
  | inCell (date : Int) (rest : List Int) (stage : Stage)
  | settling
  | evaluating (rest : List Int)
  | finished
  | raised
  deriving DecidableEq

def Position.holds : Position → Bool
  | .looping _ | .inCell .. | .settling | .evaluating _ => true
  | _ => false

structure Sweep where
  symbol : String
  dates : List Int
  position : Position := .entering
  deriving DecidableEq

namespace Sweep
variable (sweep : Sweep)

def afterReturn (job : Job) (alreadyCompleted : List Key) (answer : Answer) :
    Option (Position × Option Call) :=
  match sweep.position with
  | .entering => some (.waiting, none)
  | .waiting => some (.looping sweep.dates, none)
  | .looping [] => some (.settling, none)
  | .looping (date :: rest) =>
    if job.cancelRequested then some (.finished, none)
    else if (sweep.symbol, date) ∈ alreadyCompleted then some (.looping rest, none)
    else some (.inCell date rest .buildingRequest, some (.markCellRunning (sweep.symbol, date)))
  | .inCell date rest stage =>
    match stage.afterReturn (job.market = some .india) (sweep.symbol, date) answer with
    | .inl stage' => some (.inCell date rest stage', none)
    | .inr call => some (.looping rest, some call)
  | .settling => some (.evaluating sweep.dates, none)
  | .evaluating [] => some (.finished, none)
  | .evaluating (date :: rest) =>
    some (.evaluating rest, answer.evaluation.map (.markCellEvaluated (sweep.symbol, date)))
  | .finished => none
  | .raised => none

def afterRaise (error : String) : Option Position :=
  match sweep.position with
  | .entering => some .raised
  | .looping (_ :: _) => some .raised
  | .inCell date rest stage =>
    match stage.afterRaise error with
    | some stage' => some (.inCell date rest stage')
    | none => some .raised
  | .settling => some (.evaluating sweep.dates)
  | .evaluating (_ :: _) => some .raised
  | _ => none

def act (job : Job) (alreadyCompleted : List Key) : Outcome → Option (Position × Option Call)
  | .returns answer => sweep.afterReturn job alreadyCompleted answer
  | .raises error => (sweep.afterRaise error).map fun position => (position, none)

end Sweep

/-- `crashed`: the exception of a sweep has left `gather`; the other sweeps go on. -/
inductive Main where
  | created
  | gathering
  | ended
  | crashed
  deriving DecidableEq

structure Task where
  main : Main := .created
  alreadyCompleted : List Key := []
  sweeps : List Sweep := []

namespace Job
variable (job : Job)

def completedKeys : List Key :=
  (job.cells.entries.filter fun e => e.2.status = .completed).map Prod.fst

def sweeps : List Sweep :=
  (Dict.group (job.cells.entries.map Prod.fst)).entries.map fun (symbol, dates) =>
    { symbol, dates := dates.insertionSort (· ≤ ·) }

def conclude : Job :=
  if job.cancelRequested then job.markBacktestCancelled
  else if 0 < job.totalRuns ∧ job.countCells .completed = 0 then
    job.markBacktestFailed "every research run in this backtest failed"
  else job.markBacktestCompleted
    (computeMetrics (job.cells.entries.map Prod.snd) job.holdingDays)

end Job

/-- `started` has the cells for which `mark_cell_running` was called; `closed` says that CANCELLED
or COMPLETED was written and no resume accepted since. -/
structure Backtest where
  job : Job
  tasks : List Task
  started : List Key := []
  closed : Bool := false

inductive Event where
  | begins (i : Nat)
  | sweeps (i j : Nat) (outcome : Outcome)
  | gatherRaises (i : Nat)
  | concludes (i : Nat)
  | resume
  | cancel
  | restart
  deriving DecidableEq

namespace Backtest
variable (maxConcurrent : Nat) (s : Backtest)

def submitted (job : Job) : Backtest := { job, tasks := [{}] }

def active : Nat := (s.tasks.map fun task => task.sweeps.countP (·.position.holds)).sum

def begins (i : Nat) (task : Task) : Option Backtest :=
  if task.main = .created then
    some { s with
      job := s.job.markBacktestRunning
      tasks := s.tasks.set i
        ⟨.gathering, s.job.completedKeys, s.job.sweeps⟩ }
  else none

def moved (i j : Nat) (task : Task) (sweep : Sweep) (position : Position) (call : Option Call) :
    Backtest :=
  { s with
    job := call.elim s.job s.job.perform
    tasks := s.tasks.set i
      { task with sweeps := task.sweeps.set j { sweep with position } }
    started := match call with
      | some (.markCellRunning key) => s.started ++ [key]
      | _ => s.started }

def sweepActs (i j : Nat) (task : Task) (sweep : Sweep) (outcome : Outcome) : Option Backtest :=
  if sweep.position = .waiting ∧ maxConcurrent ≤ s.active then none
  else (sweep.act s.job task.alreadyCompleted outcome).map fun (position, call) =>
    s.moved i j task sweep position call

def gatherRaises (i : Nat) (task : Task) : Option Backtest :=
  if task.main = .gathering ∧ ∃ sweep ∈ task.sweeps, sweep.position = .raised then
    some { s with tasks := s.tasks.set i { task with main := .crashed } }
  else none

def concludes (i : Nat) (task : Task) : Option Backtest :=
  if task.main = .gathering ∧ ∀ sweep ∈ task.sweeps, sweep.position = .finished then
    some { s with
      job := s.job.conclude
      tasks := s.tasks.set i { task with main := .ended }
      closed := s.closed || s.job.conclude.status ≠ .failed }
  else none

def resume : Option Backtest :=
  if s.job.status = .failed ∨ s.job.status = .cancelled then
    some { s with job := s.job.clearCancelFlag, tasks := s.tasks ++ [{}], closed := false }
  else none

def step : Event → Option Backtest
  | .begins i => s.tasks[i]?.bind (s.begins i)
  | .sweeps i j outcome =>
    s.tasks[i]?.bind fun task => task.sweeps[j]?.bind fun sweep =>
      s.sweepActs maxConcurrent i j task sweep outcome
  | .gatherRaises i => s.tasks[i]?.bind (s.gatherRaises i)
  | .concludes i => s.tasks[i]?.bind (s.concludes i)
  | .resume => s.resume
  | .cancel => s.job.requestCancel.map fun job => { s with job }
  | .restart => some { s with job := s.job.recoverInterruptedBacktests, tasks := [] }

end Backtest

end AlgoSystem.AiBacktest
