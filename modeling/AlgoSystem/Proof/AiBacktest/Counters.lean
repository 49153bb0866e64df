import AlgoSystem.General.Lists
import AlgoSystem.Proof.AiBacktest.Steps
import Mathlib.Data.List.ProdSigma

namespace AlgoSystem.Proof.AiBacktest.Counters
open General AlgoSystem.AiBacktest List

variable {job : Job}
variable {job' : Job} {call : Call} {c : Cell} {update : Cell → Cell}

structure Agree (job : Job) : Prop where
  completed : job.completedRuns = job.countCells .completed
  failed : job.failedRuns = job.countCells .failed
  total : job.completedRuns + job.failedRuns ≤ job.totalRuns

def drift (job : Job) : ℤ × ℤ :=
  (job.completedRuns - job.countCells .completed, job.failedRuns - job.countCells .failed)

def Open (c : Cell) : Prop := c.status = .pending ∨ c.status = .running
  deriving Decidable

def MarksOpen (job : Job) (call : Call) : Prop :=
  newStatus call = none ∨ ∀ c ∈ job.cells.get? (keyOf call), Open c
  deriving Decidable

def CallsOpen (s : Backtest) (e : Event) : Prop :=
  ∀ call ∈ callOf s e, MarksOpen s.job call
  deriving Decidable

section
variable (found : job.cells.get? (keyOf call) = some c)
  (performed : Performed job call c update job')
include found performed

theorem countCells_performed (status : CellStatus) :
    job'.countCells status + (decide (c.status = status)).toNat =
      job.countCells status + (decide ((newStatus call).getD c.status = status)).toNat := by
  rw [Job.countCells, performed.cells, ← performed.updated]
  exact job.cells.countP_modify found update fun c => c.status = status

theorem drift_performed :
    drift job ≤ drift job' ∧ (drift job' = drift job ↔ newStatus call = none ∨ Open c) := by
  have completed := countCells_performed found performed .completed
  have failed := countCells_performed found performed .failed
  simp only [drift, Prod.mk_le_mk, Prod.mk.injEq, performed.completedRuns, performed.failedRuns,
    Open]
  cases new : newStatus call with
  | none =>
    simp only [new, Option.getD_none] at completed failed
    simp
    omega
  | some status =>
    simp only [new, Option.getD_some] at completed failed
    cases old : c.status <;> cases status <;> simp [old] at completed failed ⊢ <;> omega

end

theorem drift_perform (job : Job) (call : Call) :
    drift job ≤ drift (job.perform call) ∧
      (drift (job.perform call) = drift job ↔ MarksOpen job call) := by
  cases found : job.cells.get? (keyOf call) with
  | none =>
    rw [perform_of_none found]
    exact ⟨le_rfl, iff_of_true rfl (.inr (by simp [found]))⟩
  | some c =>
    obtain ⟨update, performed⟩ := perform_of_some found
    simpa [MarksOpen, found] using drift_performed found performed

theorem drift_eq (cells : job'.cells = job.cells)
    (completedRuns : job'.completedRuns = job.completedRuns)
    (failedRuns : job'.failedRuns = job.failedRuns) : drift job' = drift job := by
  simp [drift, Job.countCells, cells, completedRuns, failedRuns]

theorem drift_conclude (job : Job) : drift job.conclude = drift job := by
  unfold Job.conclude
  split_ifs <;> exact drift_eq rfl rfl rfl

theorem countP_interrupt (entries : List (Key × Cell)) :
    (entries.countP fun e => (Job.interrupt e.2).status = .completed) =
        entries.countP (fun e => e.2.status = .completed) ∧
      (entries.countP fun e => (Job.interrupt e.2).status = .failed) =
        entries.countP (fun e => e.2.status = .failed) +
          entries.countP (fun e => e.2.status = .running) := by
  induction entries with
  | nil => simp
  | cons e entries ih =>
    simp only [countP_cons, ih.1, ih.2]
    cases old : e.2.status <;> simp [Job.interrupt, old] <;> omega

theorem drift_recover (job : Job) : drift job.recoverInterruptedBacktests = drift job := by
  unfold Job.recoverInterruptedBacktests
  split_ifs
  · obtain ⟨completed, failed⟩ := countP_interrupt job.cells.entries
    simp [drift, Job.countCells, Dict.mapValues, countP_map, Function.comp_def, completed, failed]
  · rfl

variable {maxConcurrent : Nat} {s s' : Backtest} {e : Event}

theorem drift_step (stepped : s.step maxConcurrent e = some s') :
    drift s.job ≤ drift s'.job ∧ (drift s'.job = drift s.job ↔ CallsOpen s e) := by
  have silent : callOf s e = none → drift s'.job = drift s.job →
      drift s.job ≤ drift s'.job ∧ (drift s'.job = drift s.job ↔ CallsOpen s e) := by
    intro none same
    exact ⟨same.ge, iff_of_true same (by simp [CallsOpen, none])⟩
  cases steps_of_step stepped with
  | begins | resume | cancel => exact silent rfl (drift_eq rfl rfl rfl)
  | @sweeps i j outcome task sweep position call own part acted =>
    have calls : callOf s (.sweeps i j outcome) = call := by
      simp [callOf, own, part, acted]
    cases call with
    | none => exact silent calls rfl
    | some call => simpa [CallsOpen, calls, Backtest.moved] using drift_perform s.job call
  | gatherRaises => exact silent rfl rfl
  | concludes => exact silent rfl (drift_conclude s.job)
  | restart => exact silent rfl (drift_recover s.job)

def Sized (job : Job) : Prop := job.totalRuns = job.cells.entries.length

theorem Sized.step (sized : Sized s.job) (stepped : s.step maxConcurrent e = some s') :
    Sized s'.job := by
  cases steps_of_step stepped with
  | begins | gatherRaises | resume | cancel => exact sized
  | @sweeps _ _ _ _ _ _ call =>
    cases call with
    | none => exact sized
    | some call =>
      have same := sameRow_perform s.job call
      have lengths := congrArg List.length same.keys
      simp only [length_map] at lengths
      exact same.totalRuns.trans (sized.trans lengths.symm)
  | concludes =>
    unfold Job.conclude
    split_ifs <;> exact sized
  | restart =>
    unfold Job.recoverInterruptedBacktests
    split_ifs
    · simpa [Sized, Dict.mapValues] using sized
    · exact sized

theorem agree_iff (sized : Sized job) : Agree job ↔ drift job = 0 := by
  have bound : job.countCells .completed + job.countCells .failed ≤ job.totalRuns := by
    rw [sized, ← countP_true]
    refine countP_add_countP_le (by simp) (by simp) ?_
    intro e _ completed failed
    simp only [decide_eq_true_eq] at completed failed
    rw [completed] at failed
    cases failed
  simp only [drift, Prod.mk_eq_zero]
  constructor
  · rintro ⟨completed, failed, -⟩
    omega
  · rintro ⟨completed, failed⟩
    exact ⟨by omega, by omega, by omega⟩

theorem sized_create (grid : Grid) (market : Option Market) (holdingDays : Nat) :
    Sized (createBacktest grid market holdingDays) := by
  simp [Sized, createBacktest, length_product]

theorem drift_create (grid : Grid) (market : Option Market) (holdingDays : Nat) :
    drift (createBacktest grid market holdingDays) = 0 := by
  simp [drift, createBacktest, Job.countCells]

theorem counters_agree_iff {grid : Grid} {market : Option Market} {holdingDays : Nat}
    {events : List Event}
    (path : run (Backtest.step maxConcurrent)
      (.submitted (createBacktest grid market holdingDays)) events = some s) :
    s.job.countCells .completed ≤ s.job.completedRuns ∧
      s.job.countCells .failed ≤ s.job.failedRuns ∧
      (Always (Backtest.step maxConcurrent) (fun s => Agree s.job)
          (.submitted (createBacktest grid market holdingDays)) events ↔
        Meets (Backtest.step maxConcurrent) CallsOpen
          (.submitted (createBacktest grid market holdingDays)) events) := by
  have keeps : ∀ (s : Backtest) e s', Sized s.job → s.step maxConcurrent e = some s' →
      Sized s'.job := fun _ _ _ sized => sized.step
  have grows : ∀ (s : Backtest) e s', Sized s.job → s.step maxConcurrent e = some s' →
      drift s.job ≤ drift s'.job ∧ (drift s'.job = drift s.job ↔ CallsOpen s e) :=
    fun _ _ _ _ stepped => drift_step stepped
  have start : Sized (Backtest.submitted (createBacktest grid market holdingDays)).job :=
    sized_create grid market holdingDays
  have zero : drift (Backtest.submitted (createBacktest grid market holdingDays)).job = 0 :=
    drift_create grid market holdingDays
  have after : ∀ {events s}, run (Backtest.step maxConcurrent)
      (.submitted (createBacktest grid market holdingDays)) events = some s →
      0 ≤ drift s.job ∧ (Agree s.job ↔ Meets (Backtest.step maxConcurrent) CallsOpen
        (.submitted (createBacktest grid market holdingDays)) events) := by
    intro events s path
    have measured := run_measure_eq_iff keeps grows path start
    rw [zero] at measured
    rw [agree_iff (run_invariant keeps path start)]
    exact measured
  obtain ⟨⟨completed, failed⟩, agree⟩ := after path
  simp only [drift, Prod.fst_zero, Prod.snd_zero] at completed failed
  refine ⟨by omega, by omega, ?_⟩
  constructor
  · intro always
    exact agree.mp (always events s prefix_rfl path)
  · rintro meets before t ⟨rest, rfl⟩ first
    exact (after first).2.mpr ((meets_append first).mp meets).1

theorem first_run_agrees :
    ∃ s, run (Backtest.step 1) (.submitted oneCell) (failedRun 0) = some s ∧
      s.job.status = .failed ∧
      Always (Backtest.step 1) (fun s => Agree s.job) (.submitted oneCell) (failedRun 0) := by
  refine ⟨_, rfl, rfl, ?_⟩
  exact (@counters_agree_iff 1 _ _ (some .us) 5 (failedRun 0) rfl).2.2.mpr (by decide)

theorem rerun_counted_twice :
    ∃ s, run (Backtest.step 1) (.submitted oneCell)
        (failedRun 0 ++ .resume :: upToResearch 1 ++ proceeds 1 5) = some s ∧
      s.job.completedRuns = 1 ∧ s.job.countCells .completed = 1 ∧
      s.job.failedRuns = 1 ∧ s.job.countCells .failed = 0 ∧ s.job.totalRuns = 1 :=
  ⟨_, rfl, rfl, rfl, rfl, rfl, rfl⟩

end AlgoSystem.Proof.AiBacktest.Counters
