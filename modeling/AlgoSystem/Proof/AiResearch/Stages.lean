import AlgoSystem.AiResearch.Runs

namespace AlgoSystem.Proof.AiResearch.Stages
open General AlgoSystem.AiResearch List

variable {run run' : ResearchRun} {e : RunEvent} {i k : Nat} {s t : NodeStage} {name : String}
  {stages : List NodeStage}

structure Tidy (run : ResearchRun) : Prop where
  one : run.status = .running → ∀ (i k : Nat) s t, run.stages[i]? = some s →
    run.stages[k]? = some t → s.status = .running → t.status = .running → i = k
  current : run.status = .running → ∀ s ∈ run.stages, s.status = .running →
    run.currentStage = some s.name
  over' : run.status = .completed ∨ run.status = .failed → ∀ s ∈ run.stages, s.status ≠ .running

def NoneRunning (stages : List NodeStage) : Prop := ∀ s ∈ stages, s.status ≠ .running
  deriving Decidable

/-- A reported node whose stage is open is the running one, or no stage runs. -/
def Expected (run : ResearchRun) : RunEvent → Prop
  | .node name => run.status = .running → ∀ i ∈ openIndex run.stages name,
      ∀ s ∈ run.stages[i]?, s.status = .running ∨ NoneRunning run.stages
  | _ => True

instance Expected.decidable (run : ResearchRun) : (e : RunEvent) → Decidable (Expected run e)
  | .node name => inferInstanceAs (Decidable (run.status = .running →
      ∀ i ∈ openIndex run.stages name, ∀ s ∈ run.stages[i]?,
        s.status = .running ∨ NoneRunning run.stages))
  | .begins | .completes .. | .fails .. | .restart => .isTrue trivial

structure Orderly (run : ResearchRun) : Prop extends Tidy run where
  distinct : (run.stages.map NodeStage.name).Nodup
  fresh : run.status = .queued → NoneRunning run.stages

theorem noneRunning_failFirst (one : ∀ (i k : Nat) s t, stages[i]? = some s →
    stages[k]? = some t → s.status = .running → t.status = .running → i = k) :
    NoneRunning (ResearchRun.failFirstRunning stages) := by
  induction stages with
  | nil => simp [NoneRunning, ResearchRun.failFirstRunning]
  | cons s rest ih =>
    unfold ResearchRun.failFirstRunning
    split_ifs with first
    · refine forall_mem_cons.mpr ⟨by simp [NodeStage.withStatus], ?_⟩
      intro t mem running
      obtain ⟨k, found⟩ := mem_iff_getElem?.mp mem
      have same := one 0 (k + 1) s t rfl (by simpa using found) first running
      omega
    · refine forall_mem_cons.mpr ⟨first, ih ?_⟩
      intro i k s t found found' running running'
      have same := one (i + 1) (k + 1) s t (by simpa using found) (by simpa using found')
        running running'
      omega

theorem names_failFirst (stages : List NodeStage) :
    (ResearchRun.failFirstRunning stages).map NodeStage.name = stages.map NodeStage.name := by
  induction stages with
  | nil => rfl
  | cons s rest ih =>
    unfold ResearchRun.failFirstRunning
    split_ifs
    · rfl
    · rw [map_cons, map_cons, ih]

theorem orderly_of_over (over' : run.status = .completed ∨ run.status = .failed)
    (distinct : (run.stages.map NodeStage.name).Nodup) (none : NoneRunning run.stages) :
    Orderly run where
  one := by
    intro running
    rw [running] at over'
    simp at over'
  current := by
    intro running
    rw [running] at over'
    simp at over'
  over' := fun _ => none
  distinct := distinct
  fresh := fun _ => none

section
variable (orderly : Orderly run)
include orderly

theorem Orderly.markCompleted (report : String) (marketDataProvenance : Option String) :
    Orderly (run.markCompleted report marketDataProvenance) := by
  refine orderly_of_over (.inl rfl) ?_ ?_
  · simpa [ResearchRun.markCompleted, Function.comp_def, NodeStage.withStatus] using
      orderly.distinct
  · simp [NoneRunning, ResearchRun.markCompleted, NodeStage.withStatus]

theorem Orderly.markFailed (begun : run.status ≠ .queued) (error : String)
    (providerError : Option String) : Orderly (run.markFailed error providerError) := by
  refine orderly_of_over (.inr rfl) ?_ ?_
  · simpa [ResearchRun.markFailed, names_failFirst] using orderly.distinct
  · apply noneRunning_failFirst
    cases status : run.status with
    | queued => exact absurd status begun
    | running => exact orderly.one status
    | completed =>
      intro i k s t found _ running _
      exact absurd running (orderly.over' (.inl status) s (mem_of_getElem? found))
    | failed =>
      intro i k s t found _ running _
      exact absurd running (orderly.over' (.inr status) s (mem_of_getElem? found))

theorem Orderly.recover : Orderly run.recoverInterruptedJobs := by
  unfold ResearchRun.recoverInterruptedJobs
  by_cases stale : run.status = .queued ∨ run.status = .running
  · rw [if_pos stale]
    refine orderly_of_over (.inr rfl) ?_ ?_
    · have names : ∀ s : NodeStage,
          (if s.status = .running then s.withStatus .failed else s).name = s.name := by
        intro s
        split_ifs <;> rfl
      simpa [Function.comp_def, names] using orderly.distinct
    · intro s mem
      obtain ⟨t, -, rfl⟩ := mem_map.mp mem
      split_ifs with running
      · simp [NodeStage.withStatus]
      · exact running
  · rw [if_neg stale]
    exact orderly

theorem Orderly.markRunning (queued : run.status = .queued) : Orderly run.markRunning := by
  have none := orderly.fresh queued
  have first : ∀ {k : Nat} {s : NodeStage}, run.markRunning.stages[k]? = some s →
      s.status = .running → k = 0 := by
    intro k s found running
    simp only [ResearchRun.markRunning, getElem?_modify] at found
    cases k with
    | zero => rfl
    | succ k =>
      have old : run.stages[k + 1]? = some s := by simpa using found
      exact absurd running (none s (mem_of_getElem? old))
  have distinct : (run.markRunning.stages.map NodeStage.name).Nodup := by
    have names : run.markRunning.stages.map NodeStage.name = run.stages.map NodeStage.name := by
      cases stages : run.stages <;> simp [ResearchRun.markRunning, stages, NodeStage.withStatus]
    rw [names]
    exact orderly.distinct
  refine ⟨⟨?_, ?_, by simp [ResearchRun.markRunning]⟩, distinct, by simp [ResearchRun.markRunning]⟩
  · intro _ i k s t found found' running running'
    exact (first found running).trans (first found' running').symm
  · intro _ s mem running
    obtain ⟨k, found⟩ := mem_iff_getElem?.mp mem
    obtain rfl := first found running
    cases stages : run.stages with
    | nil => simp [ResearchRun.markRunning, stages] at found
    | cons head rest =>
      simp only [ResearchRun.markRunning, stages, modify_zero_cons, getElem?_cons_zero,
        Option.some.injEq] at found
      subst found
      simp [ResearchRun.markRunning, stages, NodeStage.withStatus]

end

theorem running_handOn (found : (handOn (· = .pending) stages i)[k]? = some t)
    (running : t.status = .running) : ∃ s, stages[k]? = some s ∧ s.name = t.name ∧
      (k ≠ i ∧ s.status = .running ∨ k = i + 1 ∧ s.status = .pending) := by
  rw [getElem?_handOn, Option.map_eq_some_iff] at found
  obtain ⟨s, old, rfl⟩ := found
  split_ifs at running ⊢ with here next
  · simp [NodeStage.withStatus] at running
  · exact ⟨s, old, rfl, .inr ⟨next.1, of_decide_eq_true next.2⟩⟩
  · exact ⟨s, old, rfl, .inl ⟨here, running⟩⟩

theorem still_running (found : stages[k]? = some t) (running : t.status = .running) (other : k ≠ i) :
    (handOn (· = .pending) stages i)[k]? = some t := by
  simp [getElem?_handOn, found, other, running]

theorem markNodeComplete_some (running : run.status = .running)
    (found : openIndex run.stages name = some i) : run.markNodeComplete name =
      { run with
        stages := handOn (· = .pending) run.stages i
        currentStage := some (run.stageAfter name i)
        stage := (stageBucketForNode name).getD run.stage } := by
  simp [ResearchRun.markNodeComplete, running, found]

theorem stageAfter_of_pending (next : run.stages[i + 1]? = some s) (pending : s.status = .pending) :
    run.stageAfter name i = s.name := by
  simp [ResearchRun.stageAfter, next, pending]

theorem Orderly.markNodeComplete (orderly : Orderly run) (expected : Expected run (.node name)) :
    Orderly (run.markNodeComplete name) := by
  by_cases running : run.status = .running
  · cases found : openIndex run.stages name with
    | none => simpa [ResearchRun.markNodeComplete, running, found] using orderly
    | some i =>
      obtain ⟨target, own, -, -⟩ := openIndex_eq_some found
      have alone := expected running i found target own
      -- Whatever ran before was the stage that is completed now.
      have only : ∀ {k : Nat} {t : NodeStage},
          (handOn (· = .pending) run.stages i)[k]? = some t → t.status = .running →
          k = i + 1 ∧ ∃ s, run.stages[i + 1]? = some s ∧ s.name = t.name ∧ s.status = .pending := by
        intro k t present runs
        obtain ⟨s, old, name', ⟨other, was⟩ | ⟨rfl, pending⟩⟩ := running_handOn present runs
        · rcases alone with itself | nothing
          · exact absurd (orderly.one running k i s target old own was itself) other
          · exact absurd was (nothing s (mem_of_getElem? old))
        · exact ⟨rfl, s, old, name', pending⟩
      rw [markNodeComplete_some running found]
      refine ⟨⟨?_, ?_, by simp [running]⟩, ?_, by simp [running]⟩
      · intro _ k k' t t' present present' runs runs'
        exact (only present runs).1.trans (only present' runs').1.symm
      · intro _ t mem runs
        obtain ⟨k, present⟩ := mem_iff_getElem?.mp mem
        obtain ⟨-, s, next, name', pending⟩ := only present runs
        rw [stageAfter_of_pending next pending, name']
      · rw [names_handOn]
        exact orderly.distinct
  · simpa [ResearchRun.markNodeComplete, running] using orderly

theorem not_tidy_of_unexpected (orderly : Orderly run) (unexpected : ¬ Expected run (.node name)) :
    ¬ Tidy (run.markNodeComplete name) := by
  simp only [Expected, NoneRunning, Option.mem_def, not_forall, not_or, not_not] at unexpected
  obtain ⟨running, i, found, target, own, idle, other, mem, runs⟩ := unexpected
  obtain ⟨k, present⟩ := mem_iff_getElem?.mp mem
  obtain ⟨target', own', named, -⟩ := openIndex_eq_some found
  rw [own, Option.some.injEq] at own'
  subst own'
  have apart : k ≠ i := by
    rintro rfl
    rw [present, Option.some.injEq] at own
    exact idle (own ▸ runs)
  have kept := still_running (i := i) present runs apart
  rw [markNodeComplete_some running found]
  intro tidy
  have current := tidy.current running other (mem_of_getElem? kept) runs
  simp only [Option.some.injEq] at current
  cases next : run.stages[i + 1]? with
  | none =>
    simp only [ResearchRun.stageAfter, next] at current
    exact apart (index_eq_of_key orderly.distinct present own (by rw [← current, named]))
  | some s =>
    by_cases pending : s.status = .pending
    · have begun : (handOn (· = .pending) run.stages i)[i + 1]? = some (s.withStatus .running) := by
        simp [getElem?_handOn, next, pending]
      have same := tidy.one running k (i + 1) other _ kept begun runs rfl
      rw [same, next, Option.some.injEq] at present
      rw [← present, pending] at runs
      cases runs
    · simp only [ResearchRun.stageAfter, next, pending, if_false] at current
      exact apart (index_eq_of_key orderly.distinct present own (by rw [← current, named]))

theorem Orderly.step (orderly : Orderly run) (expected : Expected run e)
    (stepped : run.step e = some run') : Orderly run' := by
  cases e with
  | begins =>
    simp only [ResearchRun.step] at stepped
    split_ifs at stepped with queued
    cases stepped
    exact orderly.markRunning queued
  | node name =>
    cases stepped
    exact orderly.markNodeComplete expected
  | completes report marketDataProvenance =>
    simp only [ResearchRun.step] at stepped
    split_ifs at stepped
    cases stepped
    exact orderly.markCompleted report marketDataProvenance
  | fails error providerError =>
    simp only [ResearchRun.step] at stepped
    split_ifs at stepped with queued
    cases stepped
    exact orderly.markFailed queued error providerError
  | restart =>
    cases stepped
    exact orderly.recover

theorem realNodeOrder_nodup (selectedAnalysts : List AnalystKey) :
    (realNodeOrder selectedAnalysts).Nodup := by
  have all : (realNodeOrder supportedAnalysts).Nodup := by decide
  refine all.sublist (List.Sublist.append_right ?_ _)
  exact List.Sublist.map _ (by simp [supportedAnalysts, filter_sublist])

theorem orderly_createRun (selectedAnalysts : Option (List AnalystKey)) :
    Orderly (createRun selectedAnalysts) where
  one := by simp [createRun]
  current := by simp [createRun]
  over' := by simp [createRun]
  distinct := by
    simpa [createRun, Function.comp_def] using realNodeOrder_nodup (analystsOf selectedAnalysts)
  fresh := by simp [createRun, NoneRunning]

theorem tidy_iff_expected {selectedAnalysts : Option (List AnalystKey)} {events : List RunEvent}
    (path : General.run ResearchRun.step (createRun selectedAnalysts) events = some run) :
    Always ResearchRun.step Tidy (createRun selectedAnalysts) events ↔
      Meets ResearchRun.step Expected (createRun selectedAnalysts) events := by
  refine always_iff_meets (P := Orderly) (fun _ orderly => orderly.toTidy)
    (fun _ _ _ orderly expected => orderly.step expected) ?_ path
    (orderly_createRun selectedAnalysts)
  intro run e run' orderly unexpected stepped
  cases e with
  | node name =>
    cases stepped
    exact not_tidy_of_unexpected orderly unexpected
  | _ => exact absurd trivial unexpected

def debateTwice : List RunEvent :=
  [.begins, .node "Market Analyst", .node "Bull Researcher", .node "Bear Researcher",
    .node "Bull Researcher", .node "Bear Researcher", .node "Research Manager",
    .fails "research timed out after 900s" (some "TIMEOUT")]

theorem debate_in_order_tidy :
    (General.run ResearchRun.step (createRun (some [.market])) debateTwice).isSome ∧
      Always ResearchRun.step Tidy (createRun (some [.market])) debateTwice := by
  refine ⟨by decide, ?_⟩
  obtain ⟨run, path⟩ := Option.isSome_iff_exists.mp (by decide :
    (General.run ResearchRun.step (createRun (some [.market])) debateTwice).isSome = true)
  exact (tidy_iff_expected path).mpr (by decide)

theorem stage_left_running :
    ∃ run, General.run ResearchRun.step (createRun (some [.market]))
        [.begins, .node "Trader", .fails "rate limit" none] = some run ∧
      run.status = .failed ∧ run.stages[5]? = some ⟨"Aggressive Analyst", .running⟩ :=
  ⟨_, rfl, rfl, rfl⟩

end AlgoSystem.Proof.AiResearch.Stages
