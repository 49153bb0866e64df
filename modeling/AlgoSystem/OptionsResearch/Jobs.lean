import AlgoSystem.General.Checklist
import AlgoSystem.General.Runs
import Mathlib.Data.List.Infix

/-!
`repository.py`, `_run_pipeline` and `_run_job` in `trading/ai_options_research`. A run is its row
with those of its stages in sequence. A step performs at most one call of the repository.
-/

namespace AlgoSystem.OptionsResearch
open General

def stageNames : List String :=
  ["Snapshot Validation", "Market Regime", "Volatility", "OI Positioning", "Candidate Generation",
    "Strategy Research", "Bull/Bear Research", "Risk", "Final Coordinator"]

def stageName (stage : Fin 9) : String := stageNames.get stage

inductive RunStatus where
  | queued
  | running
  | completed
  | failed
  deriving DecidableEq

inductive EvidenceQuality where
  | ok
  | degraded
  | insufficient
  deriving DecidableEq

structure OptionsRun where
  status : RunStatus := .queued
  currentStage : Option String := none
  stages : List NodeStage
  report : Option String := none
  researchSnapshotId : Option String := none
  evidenceQuality : Option EvidenceQuality := none
  errorMessage : Option String := none
  errorCategory : Option String := none

def createRun : OptionsRun where
  stages := stageNames.map fun name => { name }

structure ResearchContext where
  researchSnapshotId : String
  evidenceLevel : EvidenceQuality
  deriving DecidableEq

inductive Call where
  | markRunning
  | markStageComplete (name : String)
  | markCompleted (report : String) (context : ResearchContext)
  | markFailed (message : String) (category : Option String) (context : Option ResearchContext)
  | markRemainingStagesSkipped

namespace OptionsRun
variable (run : OptionsRun)

def markRunning : OptionsRun :=
  { run with
    status := .running
    stages := run.stages.modify 0 (·.withStatus .running)
    currentStage := (run.stages.head?.map NodeStage.name).or run.currentStage }

def markStageComplete (name : String) : OptionsRun :=
  match openIndex run.stages name with
  | none => run
  | some i =>
    { run with
      stages := handOn (fun _ => true) run.stages i
      currentStage := (run.stages[i + 1]?.map NodeStage.name).or run.currentStage }

def markCompleted (report : String) (context : ResearchContext) : OptionsRun :=
  { run with
    status := .completed
    report := some report
    researchSnapshotId := some context.researchSnapshotId
    evidenceQuality := some context.evidenceLevel
    currentStage := none }

def markFailed (message : String) (category : Option String) (context : Option ResearchContext) :
    OptionsRun :=
  { run with
    status := .failed
    errorMessage := some (String.ofList (message.toList.take 2000))
    errorCategory := category
    researchSnapshotId := (context.map (·.researchSnapshotId)).or run.researchSnapshotId
    evidenceQuality := (context.map (·.evidenceLevel)).or run.evidenceQuality }

def markRemainingStagesSkipped : OptionsRun :=
  { run with
    stages := run.stages.map fun s => if s.isOpen then s.withStatus .skipped else s
    currentStage := none }

def recover : OptionsRun :=
  if run.status = .running then
    { run with
      status := .failed
      errorMessage := some "Interrupted by backend restart"
      errorCategory := some "INTERRUPTED" }
  else run

def perform : Call → OptionsRun
  | .markRunning => run.markRunning
  | .markStageComplete name => run.markStageComplete name
  | .markCompleted report context => run.markCompleted report context
  | .markFailed message category context => run.markFailed message category context
  | .markRemainingStagesSkipped => run.markRemainingStagesSkipped

def terminal : Bool := run.status = .completed || run.status = .failed

def Tidy : Prop := ∀ s ∈ run.stages, s.isOpen = false
  deriving Decidable

end OptionsRun

/-- An exception with its text as it is and after `lower()`; `isTimeout` for a `TimeoutError`. -/
structure PipelineError where
  typeName : String
  text : String
  lowered : String
  isTimeout : Bool
  deriving DecidableEq

def PipelineError.message (error : PipelineError) : String := error.typeName ++ ": " ++ error.text

def contains (text part : String) : Bool := part.toList <:+: text.toList

def classifyLlmError (error : PipelineError) : Option String :=
  if ["rate_limit", "429", "too many requests"].any (contains error.lowered) then
    some "LLM_RATE_LIMIT"
  else if ["auth", "401", "invalid api key", "unauthorized"].any (contains error.lowered) then
    some "LLM_AUTH"
  else if ["timeout", "timed out"].any (contains error.lowered) then some "LLM_TIMEOUT"
  else none

inductive Outcome where
  | snapshot (context : ResearchContext)
  | refused (message : String) (category : Option String)
  | returned (report : String)
  | raised (error : PipelineError)
  deriving DecidableEq

inductive Pipeline where
  /-- There is no thread: not yet, or because it was cancelled before it began or died. -/
  | absent
  | enqueued
  | resolvingChain
  | markingStage (context : ResearchContext) (stage : Fin 9)
  | generatingCandidates (context : ResearchContext)
  | skippingAgents (context : ResearchContext) (report : String)
  | callingAgent (context : ResearchContext) (stage : Fin 9)
  | buildingReport (context : ResearchContext)
  | completing (context : ResearchContext) (report : String)
  | failing (message : String) (category : Option String) (context : Option ResearchContext)
  | skippingRemaining
  | ended
  | crashed (error : PipelineError)
  deriving DecidableEq

namespace Pipeline

def beginStage (context : ResearchContext) (stage : Fin 9) : Pipeline :=
  if stage = 4 then .markingStage context stage else .callingAgent context stage

def afterStage (context : ResearchContext) (stage : Fin 9) : Pipeline :=
  if stage = 0 then .generatingCandidates context
  else if next : stage.val + 1 < 9 then beginStage context ⟨stage + 1, next⟩
  else .buildingReport context

def next : Pipeline → Outcome → Option (Option Call × Pipeline)
  | .enqueued, _ => some (none, .resolvingChain)
  | .resolvingChain, .snapshot context => some (none, .markingStage context 0)
  | .resolvingChain, .refused message category => some (none, .failing message category none)
  | .resolvingChain, .raised error => some (none, .crashed error)
  | .markingStage context stage, _ =>
    some (some (.markStageComplete (stageName stage)), afterStage context stage)
  | .generatingCandidates context, .returned report =>
    some (none, if context.evidenceLevel = .insufficient then .skippingAgents context report
      else .callingAgent context 1)
  | .generatingCandidates _, .raised error => some (none, .crashed error)
  | .skippingAgents context report, _ =>
    some (some .markRemainingStagesSkipped, .completing context report)
  | .callingAgent context stage, .returned _ => some (none, .markingStage context stage)
  | .callingAgent context _, .raised error =>
    some (none, .failing error.message ((classifyLlmError error).or (some "LLM_ERROR"))
      (some context))
  | .buildingReport context, .returned report => some (none, .completing context report)
  | .buildingReport _, .raised error => some (none, .crashed error)
  | .completing context report, _ => some (some (.markCompleted report context), .ended)
  | .failing message category context, _ =>
    some (some (.markFailed message category context), .skippingRemaining)
  | .skippingRemaining, _ => some (some .markRemainingStagesSkipped, .ended)
  | _, _ => none

def stopped : Pipeline → Bool
  | .absent | .ended | .crashed _ => true
  | _ => false

end Pipeline

inductive Coroutine where
  | queued
  | waiting
  | failing (message : String) (category : Option String)
  | skipping
  | done
  | gone
  deriving DecidableEq

/-- `asyncio.TimeoutError` is the builtin one, which the pipeline may raise as well. -/
def PipelineError.handled (error : PipelineError) : Coroutine :=
  if error.isTimeout then .failing "Research timed out" (some "LLM_TIMEOUT")
  else .failing error.message none

structure Job where
  run : OptionsRun := createRun
  coroutine : Coroutine := .queued
  pipeline : Pipeline := .absent

inductive Action where
  | start
  | work (outcome : Outcome)
  | timeOut
  | deliver
  | handle
  deriving DecidableEq

namespace Job
variable (job : Job)

def act : Action → Option Job
  | .start =>
    if job.coroutine = .queued then
      some { run := job.run.perform .markRunning, coroutine := .waiting, pipeline := .enqueued }
    else none
  | .work outcome =>
    (job.pipeline.next outcome).map fun (call, pipeline) =>
      { job with run := call.elim job.run job.run.perform, pipeline }
  -- `wait_for` gives up; only a thread that has not begun is cancelled with it
  | .timeOut =>
    if job.coroutine = .waiting then
      some { job with
        coroutine := .failing "Research timed out" (some "LLM_TIMEOUT")
        pipeline := if job.pipeline = .enqueued then .absent else job.pipeline }
    else none
  | .deliver =>
    if job.coroutine = .waiting then
      match job.pipeline with
      | .ended => some { job with coroutine := .done }
      | .crashed error => some { job with coroutine := error.handled }
      | _ => none
    else none
  | .handle =>
    match job.coroutine with
    | .failing message category =>
      some { job with
        run := job.run.perform (.markFailed message category none)
        coroutine := .skipping }
    | .skipping =>
      some { job with run := job.run.perform .markRemainingStagesSkipped, coroutine := .done }
    | _ => none

def holdsSemaphore : Bool :=
  match job.coroutine with
  | .waiting | .failing _ _ | .skipping => true
  | _ => false

def quiescent : Bool :=
  (job.coroutine = .done || job.coroutine = .gone) && job.pipeline.stopped

def restart : Job where
  run := job.run.recover
  coroutine := .gone
  pipeline := .absent

end Job

inductive Event where
  | submit
  | act (i : Nat) (action : Action)
  | restart

def step (maxConcurrent : Nat) (jobs : List Job) : Event → Option (List Job)
  | .submit => some (jobs ++ [{}])
  | .act i action => do
      let job ← jobs[i]?
      if action = .start ∧ maxConcurrent ≤ jobs.countP Job.holdsSemaphore then none
      else (job.act action).map (jobs.set i)
  | .restart => some (jobs.map Job.restart)

end AlgoSystem.OptionsResearch
