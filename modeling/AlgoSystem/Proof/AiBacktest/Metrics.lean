import AlgoSystem.AiBacktest.Repository

namespace AlgoSystem.Proof.AiBacktest.Metrics
open General AlgoSystem.AiBacktest List

theorem length_add_countP_and {α : Type*} (p q : α → Bool) (l : List α) :
    l.length + l.countP (fun a => p a && q a) =
      l.countP p + l.countP q + l.countP (fun a => !p a && !q a) := by
  induction l with
  | nil => rfl
  | cons a l ih =>
    simp only [length_cons, countP_cons]
    cases p a <;> cases q a <;> simp <;> omega

theorem sum_countsByDecision (completed : List Cell) :
    ((countsByDecision completed).entries.map Prod.snd).sum = completed.length := by
  induction completed using List.reverseRecOn with
  | nil => rfl
  | append_singleton completed c ih =>
    have last : countsByDecision (completed ++ [c]) =
        (countsByDecision completed).upsert c.decision 0 (· + 1) := by simp [countsByDecision]
    rw [last, Dict.sum_upsert, ih, length_append, length_singleton]

theorem metrics_partition (cells : List Cell) (holdingDays : Nat) :
    ((computeMetrics cells holdingDays).resolved : ℤ) +
        (computeMetrics cells holdingDays).pendingEvaluation +
        (computeMetrics cells holdingDays).unscored =
      (computeMetrics cells holdingDays).totalDecisions ∧
    ((computeMetrics cells holdingDays).countsByDecision.entries.map Prod.snd).sum =
      (computeMetrics cells holdingDays).totalDecisions ∧
    (0 ≤ (computeMetrics cells holdingDays).pendingEvaluation ↔
      (cells.filter Cell.completed).countP (fun c => c.unrated && c.evaluated) ≤
        (cells.filter Cell.completed).countP fun c => !c.unrated && !c.evaluated) := by
  refine ⟨?_, sum_countsByDecision _, ?_⟩
  · simp only [computeMetrics]
    omega
  · have balance := length_add_countP_and Cell.unrated Cell.evaluated (cells.filter Cell.completed)
    have pending : (computeMetrics cells holdingDays).pendingEvaluation =
        ((cells.filter Cell.completed).length : ℤ) -
          ((cells.filter Cell.completed).filter Cell.evaluated).length -
          (cells.filter Cell.completed).countP Cell.unrated := rfl
    rw [pending, ← countP_eq_length_filter (p := Cell.evaluated)]
    omega

/-! A decision for review is evaluated like any other. -/

def oneDecision (rating : Option String) : Job :=
  (createBacktest ⟨["INFY"], [20000], by simp, by simp⟩ (some .us) 5).markCellCompleted
    ("INFY", 20000) "r-1" (some "Wait for the results.") rating

def evaluation : Evaluation := ⟨3 / 100, 1 / 100, "SPY", 5, 20007⟩

def evaluatedCells (rating : Option String) : List Cell :=
  ((oneDecision rating).markCellEvaluated ("INFY", 20000) evaluation).cells.entries.map Prod.snd

theorem review_cell_counted_twice :
    (evaluatedCells (some "REVIEW")).map Cell.status = [.completed] ∧
      (computeMetrics (evaluatedCells (some "REVIEW")) 5).pendingEvaluation = -1 :=
  ⟨rfl, rfl⟩

example : (computeMetrics (evaluatedCells (some "Buy")) 5).pendingEvaluation = 0 := rfl

end AlgoSystem.Proof.AiBacktest.Metrics
