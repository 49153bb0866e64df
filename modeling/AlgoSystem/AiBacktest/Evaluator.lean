import AlgoSystem.General.Dict
import Mathlib.Data.String.Basic
import Mathlib.Data.List.Sort
import Mathlib.Algebra.Order.Field.Rat

/-!
The row `AIBacktestRun` of `models.py` and `evaluator.py` in `trading/ai_research/backtest`. A date
is the number of a day, a return is a rational number.
-/

namespace AlgoSystem.AiBacktest
open General

inductive CellStatus where
  | pending
  | running
  | completed
  | failed
  deriving DecidableEq

inductive EvaluationStatus where
  | pending
  | resolved

abbrev Key := String × Int

structure Cell where
  status : CellStatus := .pending
  researchId : Option String := none
  rawDecision : Option String := none
  normalizedDecision : Option String := none
  evaluationStatus : Option EvaluationStatus := none
  rawReturn : Option ℚ := none
  alphaReturn : Option ℚ := none
  benchmark : Option String := none
  holdingDays : Option Int := none
  resolutionDate : Option Int := none
  errorMessage : Option String := none

def directions : List (String × Int) :=
  [("Buy", 1), ("Overweight", 1), ("Hold", 0), ("Underweight", -1), ("Sell", -1)]

def direction (rating : String) : Int := (directions.lookup rating).getD 0

def review : String := "REVIEW"

def truthy (text : Option String) : Option String := text.filter (· ≠ "")

namespace Cell

def completed (c : Cell) : Bool := c.status = .completed

def decision (c : Cell) : String := (truthy c.normalizedDecision).getD review

def unrated (c : Cell) : Bool := c.decision = review

def evaluated (c : Cell) : Bool := c.alphaReturn.isSome

end Cell

structure DecisionMetrics where
  count : Nat
  hitRate : Option ℚ
  meanAlpha : ℚ

structure Metrics where
  label : String
  totalDecisions : Nat
  countsByDecision : Dict String Nat
  resolved : Nat
  pendingEvaluation : Int
  unscored : Nat
  byDecision : List (String × DecisionMetrics)
  overallMeanAlpha : Option ℚ
  overallMedianAlpha : Option ℚ
  positiveDecisionRate : Option ℚ
  holdingDays : Nat

def mean (values : List ℚ) : ℚ := values.sum / values.length

def median (values : List ℚ) : ℚ :=
  let sorted := values.insertionSort (· ≤ ·)
  let half := sorted.length / 2
  if sorted.length % 2 = 1 then sorted.getD half 0
  else (sorted.getD (half - 1) 0 + sorted.getD half 0) / 2

def countsByDecision (completed : List Cell) : Dict String Nat :=
  completed.foldl (fun counts c => counts.upsert c.decision 0 (· + 1)) .empty

def decisionMetrics (resolved : List Cell) (rating : String) : DecisionMetrics :=
  let alphas := (resolved.filter (·.normalizedDecision = some rating)).filterMap (·.alphaReturn)
  { count := alphas.length
    hitRate := if direction rating ≠ 0 ∧ alphas ≠ []
      then some (alphas.countP (0 < · * (direction rating : ℚ)) / alphas.length) else none
    meanAlpha := if alphas ≠ [] then mean alphas else 0 }

def positiveDecisionRate (resolved : List Cell) : Option ℚ :=
  let directional := resolved.filter fun c => direction (c.normalizedDecision.getD "") ≠ 0
  if directional ≠ [] then
    some (directional.countP (fun c =>
      0 < c.alphaReturn.getD 0 * (direction (c.normalizedDecision.getD "") : ℚ)) /
        directional.length)
  else none

def computeMetrics (cells : List Cell) (holdingDays : Nat) : Metrics :=
  let completed := cells.filter (·.completed)
  let resolved := completed.filter (·.evaluated)
  let unscored := completed.countP (·.unrated)
  let ratings := (resolved.filterMap (truthy ·.normalizedDecision)).dedup.insertionSort (· ≤ ·)
  let allAlphas := resolved.filterMap (·.alphaReturn)
  { label := "AI Research Decision Evaluation"
    totalDecisions := completed.length
    countsByDecision := countsByDecision completed
    resolved := resolved.length
    pendingEvaluation := completed.length - resolved.length - unscored
    unscored
    byDecision := ratings.map fun rating => (rating, decisionMetrics resolved rating)
    overallMeanAlpha := if allAlphas ≠ [] then some (mean allAlphas) else none
    overallMedianAlpha := if allAlphas ≠ [] then some (median allAlphas) else none
    positiveDecisionRate := positiveDecisionRate resolved
    holdingDays }

end AlgoSystem.AiBacktest
