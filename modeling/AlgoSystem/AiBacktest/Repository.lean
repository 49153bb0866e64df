import AlgoSystem.AiBacktest.Evaluator

/-!
`repository.py` in `trading/ai_research/backtest`, for the rows of one backtest. A function that
opens a session and commits is a function on the job row with its cells. The times are left out.
-/

namespace AlgoSystem.AiBacktest
open General

inductive JobStatus where
  | queued
  | running
  | completed
  | failed
  | cancelled
  deriving DecidableEq

inductive Market where
  | us
  | india
  deriving DecidableEq

structure Job where
  market : Option Market := none
  holdingDays : Nat
  status : JobStatus := .queued
  totalRuns : Nat
  completedRuns : Nat := 0
  failedRuns : Nat := 0
  currentSymbol : Option String := none
  currentDate : Option Int := none
  cancelRequested : Bool := false
  metrics : Option Metrics := none
  errorMessage : Option String := none
  cells : Dict Key Cell

/-- A validated request: no symbol is there twice, and the date grid is strictly increasing. -/
structure Grid where
  symbols : List String
  dates : List Int
  symbolsNodup : symbols.Nodup
  datesNodup : dates.Nodup

def createBacktest (grid : Grid) (market : Option Market) (holdingDays : Nat) : Job where
  market := market
  holdingDays := holdingDays
  totalRuns := grid.symbols.length * grid.dates.length
  cells := ⟨(grid.symbols ×ˢ grid.dates).map fun key => (key, {}), by
    simpa [Function.comp_def] using grid.symbolsNodup.product grid.datesNodup⟩

def firstChars (n : Nat) (text : String) : String := String.ofList (text.toList.take n)

structure Evaluation where
  rawReturn : ℚ
  alphaReturn : ℚ
  benchmark : String
  holdingDays : Int
  resolutionDate : Int
  deriving DecidableEq

namespace Job
variable (job : Job)

def countCells (status : CellStatus) : Nat := job.cells.entries.countP fun e => e.2.status = status

def clearCancelFlag : Job := { job with cancelRequested := false }

def markBacktestRunning : Job := { job with status := .running }

def writeCell (key : Key) (update : Cell → Cell) (counters : Job → Job) : Job :=
  match job.cells.get? key with
  | none => job
  | some _ => counters { job with cells := job.cells.modify key update }

def markCellRunning (key : Key) : Job :=
  job.writeCell key (fun c => { c with status := .running }) fun job =>
    { job with currentSymbol := some key.1, currentDate := some key.2 }

def markCellCompleted (key : Key) (researchId : String)
    (rawDecision normalizedDecision : Option String) : Job :=
  job.writeCell key (fun c => { c with
      status := .completed
      researchId := some researchId
      rawDecision := truthy (some (firstChars 2000 (rawDecision.getD "")))
      normalizedDecision
      evaluationStatus := some .pending }) fun job =>
    { job with completedRuns := job.completedRuns + 1 }

def markCellFailed (key : Key) (error : String) : Job :=
  job.writeCell key (fun c => { c with
      status := .failed
      errorMessage := some (firstChars 1000 error) }) fun job =>
    { job with failedRuns := job.failedRuns + 1 }

def markCellEvaluated (key : Key) (evaluation : Evaluation) : Job :=
  job.writeCell key (fun c => { c with
      evaluationStatus := some .resolved
      rawReturn := some evaluation.rawReturn
      alphaReturn := some evaluation.alphaReturn
      benchmark := some evaluation.benchmark
      holdingDays := some evaluation.holdingDays
      resolutionDate := some evaluation.resolutionDate }) id

def markBacktestCompleted (metrics : Metrics) : Job :=
  { job with
    status := .completed
    metrics := some metrics
    currentSymbol := none
    currentDate := none }

def markBacktestFailed (error : String) : Job :=
  { job with status := .failed, errorMessage := some (firstChars 1000 error) }

def markBacktestCancelled : Job :=
  { job with status := .cancelled, currentSymbol := none, currentDate := none }

def requestCancel : Option Job :=
  if job.status = .queued ∨ job.status = .running then some { job with cancelRequested := true }
  else none

def interrupt (c : Cell) : Cell :=
  if c.status = .running then
    { c with
      status := .failed
      errorMessage := some "Interrupted by a backend restart while RUNNING." }
  else c

def recoverInterruptedBacktests : Job :=
  if job.status = .queued ∨ job.status = .running then
    { job with
      cells := job.cells.mapValues interrupt
      failedRuns := job.failedRuns + job.countCells .running
      status := .failed
      errorMessage := some
        "Backtest was interrupted by a backend restart. Resume to continue pending cells."
      currentSymbol := none
      currentDate := none }
  else job

end Job

end AlgoSystem.AiBacktest
