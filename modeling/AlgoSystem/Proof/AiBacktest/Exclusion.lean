import AlgoSystem.General.Lists
import AlgoSystem.Proof.AiBacktest.Steps

namespace AlgoSystem.Proof.AiBacktest.Exclusion
open General AlgoSystem.AiBacktest List

variable {maxConcurrent : Nat} {s s' : Backtest} {e : Event} {task task' : Task} {sweep : Sweep}

def StartsAllowed (s : Backtest) (e : Event) : Prop :=
  ∀ key, callOf s e = some (.markCellRunning key) →
    statusOf s.job key ≠ some .completed ∧ s.closed = false

def Runs (task : Task) (key : Key) : Prop :=
  ∃ sweep ∈ task.sweeps, sweep.symbol = key.1 ∧
    ∃ rest stage, sweep.position = .inCell key.2 rest stage

def RunsOnce (s : Backtest) : Prop :=
  ∀ (i i' : Nat) task task' key, s.tasks[i]? = some task → s.tasks[i']? = some task' →
    Runs task key → Runs task' key → i = i'

def ResumesBegun (s : Backtest) (e : Event) : Prop :=
  e = .resume → ∀ task ∈ s.tasks, task.main ≠ .created
  deriving Decidable

structure SweepOk (job : Job) (alreadyCompleted : List Key) (sweep : Sweep) : Prop where
  distinct : (line sweep).Nodup
  ahead : ∀ date ∈ ahead sweep, (sweep.symbol, date) ∈ alreadyCompleted ∨
    statusOf job (sweep.symbol, date) ≠ some .completed

variable {job : Job} {alreadyCompleted : List Key} {position : Position} {call : Option Call}

theorem notCompleted_perform {call : Call} {key : Key} (before : statusOf job key ≠ some .completed)
    (other : newStatus call = some .completed → key ≠ keyOf call) :
    statusOf (job.perform call) key ≠ some .completed := by
  rw [statusOf_perform]
  split_ifs with same
  · cases new : newStatus call with
    | none => simpa using before
    | some status =>
      rintro after
      simp only [Option.map_eq_some_iff, Option.getD_some, exists_and_right] at after
      exact other (new.trans (congrArg some after.2)) same
  · exact before

theorem SweepOk.of_call (ok : SweepOk job alreadyCompleted sweep)
    (other : ∀ c ∈ call, newStatus c = some .completed → ∀ date ∈ AiBacktest.ahead sweep,
      (sweep.symbol, date) ≠ keyOf c) :
    SweepOk (call.elim job job.perform) alreadyCompleted sweep := by
  cases call with
  | none => exact ok
  | some call =>
    refine ⟨ok.distinct, ?_⟩
    intro date mem
    refine (ok.ahead date mem).imp_right fun before => ?_
    exact notCompleted_perform before fun new => other call rfl new date mem

theorem SweepOk.acts (ok : SweepOk job alreadyCompleted sweep)
    (acts : Acts job alreadyCompleted sweep position call) :
    SweepOk (call.elim job job.perform) alreadyCompleted { sweep with position } := by
  obtain ⟨shorter, fewer⟩ := line_acts acts
  have moved : SweepOk job alreadyCompleted { sweep with position } :=
    ⟨ok.distinct.sublist shorter, fun date mem => ok.ahead date (fewer mem)⟩
  apply moved.of_call
  intro c own new date mem
  cases acts with
  | completes _ _ _ here =>
    cases own
    have distinct := ok.distinct
    simp only [line, here, nodup_cons] at distinct
    simp only [AiBacktest.ahead, line] at mem
    rintro same
    cases same
    exact distinct.1 mem
  | starts | fails | evaluates => cases own; cases new
  | _ => cases own

structure TaskOk (s : Backtest) (task : Task) : Prop where
  created : task.main = .created → task.sweeps = []
  ended : task.main = .ended → ∀ sweep ∈ task.sweeps, sweep.position = .finished
  busy : task.main = .gathering ∨ task.main = .crashed → s.job.status = .running
  open' : task.main ≠ .ended → s.closed = false
  symbols : (task.sweeps.map Sweep.symbol).Nodup
  sweeps : ∀ sweep ∈ task.sweeps, SweepOk s.job task.alreadyCompleted sweep

structure Exclusive (s : Backtest) : Prop where
  each : ∀ (i : Nat) task, s.tasks[i]? = some task → TaskOk s task
  one : ∀ (i i' : Nat) task task', s.tasks[i]? = some task → s.tasks[i']? = some task' →
    task.main ≠ .ended → task'.main ≠ .ended → i = i'

theorem TaskOk.of_ended (ok : TaskOk s task) (ended : task.main = .ended) : TaskOk s' task where
  created := by simp [ended]
  ended := ok.ended
  busy := by simp [ended]
  open' := by simp [ended]
  symbols := ok.symbols
  sweeps := by
    intro sweep mem
    have finished := ok.ended ended sweep mem
    exact ⟨by simp [line, finished], by simp [ahead, line, finished]⟩

theorem Exclusive.set (exclusive : Exclusive s) {i : Nat} (own : s.tasks[i]? = some task)
    (live : task.main ≠ .ended) (tasks : s'.tasks = s.tasks.set i task') (ok : TaskOk s' task') :
    Exclusive s' := by
  have others : ∀ (k : Nat) other, k ≠ i → s.tasks[k]? = some other → other.main = .ended := by
    intro k other different present
    by_contra alive
    exact different (exclusive.one k i other task present own alive live)
  constructor
  · intro k other present
    rw [tasks, getElem?_set_eq_some] at present
    rcases present with ⟨-, -, rfl⟩ | ⟨different, present⟩
    · exact ok
    · exact (exclusive.each k other present).of_ended (others k other different present)
  · intro k k' other other' present present' alive alive'
    rw [tasks, getElem?_set_eq_some] at present present'
    have first : k = i := by
      rcases present with ⟨same, -, -⟩ | ⟨different, present⟩
      · exact same
      · exact absurd (others k other different present) alive
    have second : k' = i := by
      rcases present' with ⟨same, -, -⟩ | ⟨different, present⟩
      · exact same
      · exact absurd (others k' other' different present) alive'
    exact first.trans second.symm

theorem TaskOk.live_of_acts (ok : TaskOk s task) {j : Nat} (part : task.sweeps[j]? = some sweep)
    (acts : Acts s.job task.alreadyCompleted sweep position call) : task.main ≠ .ended := by
  intro ended
  exact acts.unfinished (ok.ended ended sweep (mem_of_getElem? part))

theorem taskOk_begins (job : s'.job = s.job.markBacktestRunning) (open' : s'.closed = false) :
    TaskOk s' ⟨.gathering, s.job.completedKeys, s.job.sweeps⟩ where
  created := by simp
  ended := by simp
  busy := by simp [job, Job.markBacktestRunning]
  open' := fun _ => open'
  symbols := symbols_nodup s.job
  sweeps := by
    intro sweep mem
    obtain ⟨-, entering, -⟩ := mem_sweeps_iff.mp mem
    refine ⟨by simpa [line, entering] using dates_nodup mem, ?_⟩
    intro date _
    by_cases completed : statusOf s.job (sweep.symbol, date) = some .completed
    · exact .inl (mem_completedKeys.mpr completed)
    · right
      rw [job]
      exact completed

theorem taskOk_moved (ok : TaskOk s task) {i j : Nat} (part : task.sweeps[j]? = some sweep)
    (acts : Acts s.job task.alreadyCompleted sweep position call) :
    TaskOk (s.moved i j task sweep position call)
      { task with sweeps := task.sweeps.set j { sweep with position } } := by
  have status : (s.moved i j task sweep position call).job.status = s.job.status := by
    cases call with
    | none => rfl
    | some call => exact (sameRow_perform s.job call).status
  have symbols : (task.sweeps.set j { sweep with position }).map Sweep.symbol =
      task.sweeps.map Sweep.symbol := map_set_of_getElem? part rfl
  refine ⟨?_, ?_, ?_, ok.open', ?_, ?_⟩
  · intro created
    simp [ok.created created] at part
  · intro ended
    exact absurd ended (ok.live_of_acts part acts)
  · intro busy
    rw [status]
    exact ok.busy busy
  · rw [symbols]
    exact ok.symbols
  · intro other mem
    obtain ⟨k, present⟩ := mem_iff_getElem?.mp mem
    rw [getElem?_set_eq_some] at present
    rcases present with ⟨-, -, rfl⟩ | ⟨different, present⟩
    · exact (ok.sweeps sweep (mem_of_getElem? part)).acts acts
    · apply (ok.sweeps other (mem_of_getElem? present)).of_call
      intro c own _ date _ same
      cases own
      have symbol : other.symbol = sweep.symbol :=
        (congrArg Prod.fst same).trans acts.symbol_eq
      exact different (index_eq_of_key ok.symbols present part symbol)

section
variable (exclusive : Exclusive s)
include exclusive

theorem Exclusive.all_ended (status : s.job.status = .failed ∨ s.job.status = .cancelled)
    (begun : ∀ task ∈ s.tasks, task.main ≠ .created) {i : Nat} (own : s.tasks[i]? = some task) :
    task.main = .ended := by
  have idle : s.job.status ≠ .running := by
    rcases status with failed | cancelled
    · simp [failed]
    · simp [cancelled]
  have ok := exclusive.each i task own
  cases main : task.main with
  | created => exact absurd main (begun task (mem_of_getElem? own))
  | gathering => exact absurd (ok.busy (.inl main)) idle
  | crashed => exact absurd (ok.busy (.inr main)) idle
  | ended => rfl

theorem Exclusive.resume (ended : ∀ (i : Nat) task, s.tasks[i]? = some task → task.main = .ended)
    (tasks : s'.tasks = s.tasks ++ [({} : Task)]) (open' : s'.closed = false) : Exclusive s' := by
  constructor
  · intro i task own
    rw [tasks, getElem?_concat_eq_some] at own
    rcases own with old | ⟨-, rfl⟩
    · exact (exclusive.each i task old).of_ended (ended i task old)
    · exact ⟨by simp, by simp, by simp, fun _ => open', by simp, by simp⟩
  · intro i i' task task' own own' alive alive'
    rw [tasks, getElem?_concat_eq_some] at own own'
    have first : i = s.tasks.length := by
      rcases own with old | ⟨last, -⟩
      · exact absurd (ended i task old) alive
      · exact last
    have second : i' = s.tasks.length := by
      rcases own' with old | ⟨last, -⟩
      · exact absurd (ended i' task' old) alive'
      · exact last
    exact first.trans second.symm

theorem Exclusive.step (begun : ResumesBegun s e) (stepped : s.step maxConcurrent e = some s') :
    Exclusive s' := by
  cases steps_of_step stepped with
  | @begins i task own fresh =>
    have live : task.main ≠ .ended := by simp [fresh]
    have ok := exclusive.each _ _ own
    exact exclusive.set own live rfl (taskOk_begins rfl (ok.open' live))
  | sweeps own part acted =>
    have acts := acts_act acted
    have ok := exclusive.each _ _ own
    exact exclusive.set own (ok.live_of_acts part acts) rfl (taskOk_moved ok part acts)
  | @gatherRaises i task own gathering =>
    have live : task.main ≠ .ended := by simp [gathering]
    have ok := exclusive.each _ _ own
    apply exclusive.set own live rfl
    exact ⟨by simp, by simp, fun _ => ok.busy (.inl gathering), fun _ => ok.open' live,
      ok.symbols, ok.sweeps⟩
  | @concludes i task own gathering finished =>
    have live : task.main ≠ .ended := by simp [gathering]
    have ok := exclusive.each _ _ own
    apply exclusive.set own live rfl
    refine ⟨by simp, fun _ => finished, by simp, by simp, ok.symbols, ?_⟩
    intro sweep mem
    have last := finished sweep mem
    exact ⟨by simp [line, last], by simp [ahead, line, last]⟩
  | resume accepted =>
    exact exclusive.resume (fun _ _ => exclusive.all_ended accepted (begun rfl)) rfl rfl
  | cancel =>
    refine ⟨?_, exclusive.one⟩
    intro i task own
    have ok := exclusive.each i task own
    refine ⟨ok.created, ok.ended, ok.busy, ok.open', ok.symbols, ?_⟩
    intro sweep mem
    exact ⟨(ok.sweeps sweep mem).distinct, (ok.sweeps sweep mem).ahead⟩
  | restart => exact ⟨by simp, by simp⟩

theorem Exclusive.startsAllowed (e : Event) : StartsAllowed s e := by
  intro key starts
  cases e with
  | sweeps i j outcome =>
    simp only [callOf, Option.bind_eq_some_iff] at starts
    obtain ⟨task, own, sweep, part, ⟨position, call⟩, acted, called⟩ := starts
    have ok := exclusive.each i task own
    have acts := acts_act acted
    refine ⟨?_, ok.open' (ok.live_of_acts part acts)⟩
    cases called
    cases acts with
    | starts here new =>
      have unreached := (ok.sweeps sweep (mem_of_getElem? part)).ahead
      simp only [ahead, line, here, forall_mem_cons] at unreached
      exact unreached.1.resolve_left new
  | _ => cases starts

theorem Exclusive.runsOnce : RunsOnce s := by
  intro i i' task task' key own own' runs runs'
  have live : ∀ {i : Nat} {task}, s.tasks[i]? = some task → Runs task key →
      task.main ≠ .ended := by
    rintro i task own ⟨sweep, mem, -, rest, stage, here⟩ ended
    have finished := (exclusive.each i task own).ended ended sweep mem
    rw [here] at finished
    cases finished
  exact exclusive.one i i' task task' own own' (live own runs) (live own' runs')

end

theorem exclusive_submitted (job : Job) : Exclusive (.submitted job) := by
  constructor
  · intro i task own
    obtain ⟨-, rfl⟩ : i = 0 ∧ task = {} := by
      simpa [Backtest.submitted, getElem?_singleton, eq_comm] using own
    exact ⟨by simp, by simp, by simp, fun _ => rfl, by simp, by simp⟩
  · intro i i' task task' own own' _ _
    have first : i = 0 := by
      by_contra late
      simp [Backtest.submitted, late] at own
    have second : i' = 0 := by
      by_contra late
      simp [Backtest.submitted, late] at own'
    exact first.trans second.symm

theorem exclusive_of_resumes_begun {grid : Grid} {market : Option Market} {holdingDays : Nat}
    {events : List Event}
    (begun : Meets (Backtest.step maxConcurrent) ResumesBegun
      (.submitted (createBacktest grid market holdingDays)) events) :
    Meets (Backtest.step maxConcurrent) StartsAllowed
        (.submitted (createBacktest grid market holdingDays)) events ∧
      Always (Backtest.step maxConcurrent) RunsOnce
        (.submitted (createBacktest grid market holdingDays)) events := by
  have keeps : ∀ (s : Backtest) e s', Exclusive s → ResumesBegun s e →
      s.step maxConcurrent e = some s' → Exclusive s' := fun _ _ _ exclusive => exclusive.step
  have start := exclusive_submitted (createBacktest grid market holdingDays)
  constructor
  · exact meets_of_invariant keeps (fun _ e exclusive _ => exclusive.startsAllowed e) start begun
  · exact always_of_invariant keeps (fun _ exclusive => exclusive.runsOnce) start begun

theorem one_resume_exclusive :
    (run (Backtest.step 1) (.submitted oneCell)
        (failedRun 0 ++ .resume :: upToResearch 1 ++ [.cancel] ++ proceeds 1 5)).isSome ∧
      Meets (Backtest.step 1) StartsAllowed (.submitted oneCell)
        (failedRun 0 ++ .resume :: upToResearch 1 ++ [.cancel] ++ proceeds 1 5) ∧
      Always (Backtest.step 1) RunsOnce (.submitted oneCell)
        (failedRun 0 ++ .resume :: upToResearch 1 ++ [.cancel] ++ proceeds 1 5) := by
  refine ⟨by decide, ?_⟩
  exact @exclusive_of_resumes_begun 1 _ (some .us) 5 _ (by decide)

theorem completed_cell_started_again :
    ∃ s, run (Backtest.step 1) (.submitted oneCell)
        (failedRun 0 ++ [.resume, .resume, .begins 1, .begins 2] ++ proceeds 1 16 ++ proceeds 2 2) =
          some s ∧
      callOf s (.sweeps 2 0 (.returns {})) = some (.markCellRunning ("INFY", 20000)) ∧
      statusOf s.job ("INFY", 20000) = some .completed ∧
      (s.step 1 (.sweeps 2 0 (.returns {}))).isSome :=
  ⟨_, rfl, rfl, rfl, rfl⟩

end AlgoSystem.Proof.AiBacktest.Exclusion
