import AlgoSystem.General.Checklist
import AlgoSystem.General.Runs

/-!
`real_node_order` and `stage_bucket_for_node` of `trading_agents_adapter.py`, and the functions of
`repository.py` in `trading/ai_research` that write a run's progress. A run is its row with those of
its stages in sequence; times are left out, a report is a text.
-/

namespace AlgoSystem.AiResearch
open General

inductive AnalystKey where
  | market
  | social
  | news
  | fundamentals
  deriving DecidableEq

def supportedAnalysts : List AnalystKey := [.market, .social, .news, .fundamentals]

def analystNodeName : AnalystKey → String
  | .market => "Market Analyst"
  | .social => "Sentiment Analyst"
  | .news => "News Analyst"
  | .fundamentals => "Fundamentals Analyst"

def researchDebateNodes : List String := ["Bull Researcher", "Bear Researcher", "Research Manager"]

def traderNodes : List String := ["Trader"]

def riskNodes : List String := ["Aggressive Analyst", "Conservative Analyst", "Neutral Analyst"]

def portfolioNodes : List String := ["Portfolio Manager"]

def realNodeOrder (selectedAnalysts : List AnalystKey) : List String :=
  (supportedAnalysts.filter (· ∈ selectedAnalysts)).map analystNodeName ++
    (researchDebateNodes ++ traderNodes ++ riskNodes ++ portfolioNodes)

inductive ResearchStage where
  | queued
  | analysts
  | researchDebate
  | trader
  | risk
  | portfolioManager
  | completed
  | failed

def stageBucketForNode (name : String) : Option ResearchStage :=
  if name ∈ supportedAnalysts.map analystNodeName then some .analysts
  else if name ∈ researchDebateNodes then some .researchDebate
  else if name ∈ traderNodes then some .trader
  else if name ∈ riskNodes then some .risk
  else if name ∈ portfolioNodes then some .portfolioManager
  else none

inductive ResearchJobStatus where
  | queued
  | running
  | completed
  | failed
  deriving DecidableEq

structure ResearchRun where
  status : ResearchJobStatus := .queued
  stage : ResearchStage := .queued
  currentStage : Option String := none
  stages : List NodeStage
  report : Option String := none
  marketDataProvenance : Option String := none
  errorMessage : Option String := none
  errorCategory : Option String := none

def analystsOf (selectedAnalysts : Option (List AnalystKey)) : List AnalystKey :=
  match selectedAnalysts with
  | some (a :: as) => a :: as
  | _ => supportedAnalysts

def createRun (selectedAnalysts : Option (List AnalystKey)) : ResearchRun where
  stages := (realNodeOrder (analystsOf selectedAnalysts)).map fun name => { name }

namespace ResearchRun
variable (run : ResearchRun)

def markRunning : ResearchRun :=
  { run with
    status := .running
    stage := .analysts
    stages := run.stages.modify 0 (·.withStatus .running)
    currentStage := (run.stages.head?.map NodeStage.name).or run.currentStage }

def stageAfter (name : String) (i : Nat) : String :=
  match run.stages[i + 1]? with
  | some next => if next.status = .pending then next.name else name
  | none => name

def markNodeComplete (name : String) : ResearchRun :=
  if run.status ≠ .running then run
  else match openIndex run.stages name with
    | none => run
    | some i =>
      { run with
        stages := handOn (· = .pending) run.stages i
        currentStage := some (run.stageAfter name i)
        stage := (stageBucketForNode name).getD run.stage }

def markCompleted (report : String) (marketDataProvenance : Option String) : ResearchRun :=
  { run with
    stages := run.stages.map (·.withStatus .completed)
    status := .completed
    stage := .completed
    report := some report
    marketDataProvenance := marketDataProvenance.or run.marketDataProvenance }

def failFirstRunning : List NodeStage → List NodeStage
  | [] => []
  | s :: rest =>
    if s.status = .running then s.withStatus .failed :: rest else s :: failFirstRunning rest

def markFailed (error : String) (providerError : Option String) : ResearchRun :=
  { run with
    stages := failFirstRunning run.stages
    status := .failed
    stage := .failed
    errorMessage := some error
    errorCategory := providerError }

def recoverInterruptedJobs : ResearchRun :=
  if run.status = .queued ∨ run.status = .running then
    { run with
      stages := run.stages.map fun s => if s.status = .running then s.withStatus .failed else s
      status := .failed
      stage := .failed
      errorCategory := some "INTERRUPTED"
      errorMessage := some (if run.status = .running
        then "Research was interrupted by a backend restart while RUNNING."
        else "Research was interrupted by a backend restart while QUEUED.") }
  else run

end ResearchRun

inductive RunEvent where
  | begins
  | node (name : String)
  | completes (report : String) (marketDataProvenance : Option String)
  | fails (error : String) (providerError : Option String)
  | restart

def ResearchRun.step (run : ResearchRun) : RunEvent → Option ResearchRun
  | .begins => if run.status = .queued then some run.markRunning else none
  | .node name => some (run.markNodeComplete name)
  | .completes report marketDataProvenance =>
    if run.status = .queued then none else some (run.markCompleted report marketDataProvenance)
  | .fails error providerError =>
    if run.status = .queued then none else some (run.markFailed error providerError)
  | .restart => some run.recoverInterruptedJobs

end AlgoSystem.AiResearch
