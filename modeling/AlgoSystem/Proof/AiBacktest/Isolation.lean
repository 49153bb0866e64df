import AlgoSystem.General.Lists
import AlgoSystem.Proof.AiBacktest.Steps

namespace AlgoSystem.Proof.AiBacktest.Isolation
open General AlgoSystem.AiBacktest List

variable {maxConcurrent : Nat} {job : Job} {s s' : Backtest} {e : Event} {task : Task}
  {sweep : Sweep} {position : Position} {call : Option Call} {alreadyCompleted : List Key}
variable {key : Key} {i j : Nat}

def runStep (maxConcurrent : Nat) (s : Backtest) (e : Event) : Option Backtest :=
  if e = .resume ∨ e = .restart then none else s.step maxConcurrent e

def guarded : Position → Bool
  | .settling => true
  | .inCell _ _ stage => match stage with
    | .buildingContext _ | .researching _ | .persisting _ _ => true
    | _ => false
  | _ => false

/-- Only a call that `_run_one_cell` or `_settle_symbol` guards raises. -/
def Caught (s : Backtest) : Event → Prop
  | .sweeps i j (.raises _) =>
    ∀ task ∈ s.tasks[i]?, ∀ sweep ∈ task.sweeps[j]?, guarded sweep.position = true
  | _ => True

instance (s : Backtest) : (e : Event) → Decidable (Caught s e)
  | .sweeps _ _ (.raises _) => inferInstanceAs (Decidable (∀ _ ∈ _, ∀ _ ∈ _, _))
  | .sweeps _ _ (.returns _) | .begins _ | .gatherRaises _ | .concludes _ | .resume | .cancel
  | .restart => .isTrue trivial

def Over (sweep : Sweep) : Prop := sweep.position = .finished ∨ sweep.position = .raised
  deriving Decidable

def Done (s : Backtest) : Prop :=
  ∀ task ∈ s.tasks, (task.main = .ended ∨ task.main = .crashed) ∧ ∀ sweep ∈ task.sweeps, Over sweep
  deriving Decidable

structure Isolated (job : Job) (s : Backtest) : Prop where
  status : s.job.status = .completed ∨ s.job.status = .failed ∨ s.job.status = .cancelled
  idle : ∀ key, statusOf s.job key ≠ some .running
  run : s.job.cancelRequested = true ∨ ∀ key ∈ job.cells.entries.map Prod.fst,
    statusOf job key ≠ some .completed → key ∈ s.started

def Holds (sweep : Sweep) (key : Key) : Prop :=
  sweep.symbol = key.1 ∧
    (sweep.position = .raised ∨ ∃ rest stage, sweep.position = .inCell key.2 rest stage)

def Owes (sweep : Sweep) (key : Key) : Prop :=
  sweep.symbol = key.1 ∧ (sweep.position = .raised ∨ key.2 ∈ ahead sweep)

section
variable (acts : Acts job alreadyCompleted sweep position call)
include acts

theorem not_raised : sweep.position ≠ .raised := by
  cases acts with
  | raises _ first => exact first
  | _ => simp [*]

theorem holds_acts (running : statusOf (call.elim job job.perform) key = some .running) :
    Holds { sweep with position } key ∨
      statusOf job key = some .running ∧ ¬ Holds sweep key := by
  cases acts with
  | @advances date rest stage stage' here =>
    by_cases holds : Holds sweep key
    · obtain ⟨symbol, raised | ⟨rest, stage, mem⟩⟩ := holds
      · rw [here] at raised
        cases raised
      · rw [here] at mem
        cases mem
        exact .inl ⟨symbol, .inr ⟨_, _, rfl⟩⟩
    · exact .inr ⟨running, holds⟩
  | raises =>
    by_cases holds : Holds sweep key
    · exact .inl ⟨holds.1, .inl rfl⟩
    · exact .inr ⟨running, holds⟩
  | @starts date rest here =>
    rw [Option.elim_some, statusOf_perform] at running
    split_ifs at running with same
    · subst same
      exact .inl ⟨rfl, .inr ⟨_, _, rfl⟩⟩
    · exact .inr ⟨running, by simp [Holds, here]⟩
  | completes _ _ _ here | fails _ here =>
    rw [Option.elim_some, statusOf_perform] at running
    split_ifs at running with same
    · simp [newStatus] at running
    · refine .inr ⟨running, ?_⟩
      rintro ⟨symbol, raised | ⟨rest, stage, mem⟩⟩
      · simp [here] at raised
      · rw [here] at mem
        cases mem
        exact same (Prod.ext symbol.symm rfl)
  | evaluates _ here =>
    rw [Option.elim_some, statusOf_perform] at running
    refine .inr ⟨?_, by simp [Holds, here]⟩
    split_ifs at running
    · simpa [newStatus] using running
    · exact running
  | _ => exact .inr ⟨running, by simp [Holds, *]⟩

theorem owes_acts (owes : Owes sweep key) :
    Owes { sweep with position } key ∨ call = some (.markCellRunning key) ∨
      job.cancelRequested = true ∨ key ∈ alreadyCompleted := by
  obtain ⟨symbol, date⟩ := key
  obtain ⟨own, raised | mem⟩ := owes
  · exact absurd raised (not_raised acts)
  simp only at own mem
  subst own
  cases acts with
  | skips here already =>
    simp only [ahead, line, here, mem_cons] at mem
    rcases mem with rfl | later
    · exact .inr (.inr (.inr already))
    · exact .inl ⟨rfl, .inr later⟩
  | starts here =>
    simp only [ahead, line, here, mem_cons] at mem
    rcases mem with rfl | later
    · exact .inr (.inl rfl)
    · exact .inl ⟨rfl, .inr later⟩
  | stops _ cancelled => exact .inr (.inr (.inl cancelled))
  | raises => exact .inl ⟨rfl, .inl rfl⟩
  | enters here | acquires here | advances here | completes _ _ _ here | fails _ here =>
    exact .inl ⟨rfl, .inr (by simpa [ahead, line, here] using mem)⟩
  | _ => simp_all [ahead, line]

end

structure Alone (job : Job) (s : Backtest) (task : Task) : Prop where
  tasks : s.tasks = [task]
  keys : s.job.cells.entries.map Prod.fst = job.cells.entries.map Prod.fst
  created : task.main = .created → task.sweeps = [] ∧ statusOf s.job = statusOf job
  busy : task.main = .gathering ∨ task.main = .crashed → s.job.status = .running
  ended : task.main = .ended → (∀ sweep ∈ task.sweeps, sweep.position = .finished) ∧
    (s.job.status = .completed ∨ s.job.status = .failed ∨ s.job.status = .cancelled)
  crashed : task.main = .crashed → ∃ sweep ∈ task.sweeps, sweep.position = .raised
  already : ∀ key ∈ task.alreadyCompleted, statusOf job key = some .completed
  running : ∀ key, statusOf s.job key = some .running → ∃ sweep ∈ task.sweeps, Holds sweep key
  owed : task.main ≠ .created → ∀ key ∈ job.cells.entries.map Prod.fst,
    statusOf job key ≠ some .completed → key ∈ s.started ∨ s.job.cancelRequested = true ∨
      ∃ sweep ∈ task.sweeps, Owes sweep key

theorem alone_submitted (idle : ∀ key, statusOf job key ≠ some .running) :
    Alone job (.submitted job) {} where
  tasks := rfl
  keys := rfl
  created := fun _ => ⟨rfl, rfl⟩
  busy := by simp
  ended := by simp
  crashed := by simp
  already := by simp
  running := fun key running => absurd running (idle key)
  owed := by simp

theorem Alone.unique {task' : Task} (alone : Alone job s task) (own : s.tasks[i]? = some task') :
    i = 0 ∧ task' = task := by
  rw [alone.tasks] at own
  cases i with
  | zero =>
    cases own
    exact ⟨rfl, rfl⟩
  | succ i => cases own

theorem status_conclude (job : Job) : job.conclude.status = .completed ∨
    job.conclude.status = .failed ∨ job.conclude.status = .cancelled := by
  unfold Job.conclude
  split_ifs <;> simp [Job.markBacktestCancelled, Job.markBacktestFailed, Job.markBacktestCompleted]

theorem cells_conclude (job : Job) : job.conclude.cells = job.cells := by
  unfold Job.conclude
  split_ifs <;> rfl

theorem cancelRequested_conclude (job : Job) :
    job.conclude.cancelRequested = job.cancelRequested := by
  unfold Job.conclude
  split_ifs <;> rfl

theorem statusOf_of_cells {job job' : Job} (cells : job'.cells = job.cells) :
    statusOf job' = statusOf job := by
  funext key
  rw [statusOf, statusOf, cells]

theorem Alone.begins (alone : Alone job s task) (fresh : task.main = .created) :
    Alone job
      { s with
        job := s.job.markBacktestRunning
        tasks := s.tasks.set 0 ⟨.gathering, s.job.completedKeys, s.job.sweeps⟩ }
      ⟨.gathering, s.job.completedKeys, s.job.sweeps⟩ where
  tasks := by simp [alone.tasks]
  keys := alone.keys
  created := by simp
  busy := fun _ => rfl
  ended := by simp
  crashed := by simp
  already := by
    intro key mem
    rw [← (alone.created fresh).2]
    exact mem_completedKeys.mp mem
  running := by
    intro key running
    obtain ⟨sweep, mem, -⟩ := alone.running key running
    simp [(alone.created fresh).1] at mem
  owed := by
    intro _ key mem _
    rw [← alone.keys] at mem
    obtain ⟨sweep, member, symbol, date⟩ := exists_sweep mem
    obtain ⟨-, entering, -⟩ := mem_sweeps_iff.mp member
    refine .inr (.inr ⟨sweep, member, symbol, .inr ?_⟩)
    simpa [ahead, line, entering] using date

theorem mem_started_moved (starts : key ∈ s.started ∨ call = some (.markCellRunning key)) :
    key ∈ (s.moved i j task sweep position call).started := by
  unfold Backtest.moved
  rcases starts with old | rfl
  · split
    · exact mem_append_left _ old
    · exact old
  · simp

section
variable (alone : Alone job s task)
include alone

theorem Alone.moved (part : task.sweeps[j]? = some sweep)
    (acts : Acts s.job task.alreadyCompleted sweep position call) :
    Alone job (s.moved 0 j task sweep position call)
      { task with sweeps := task.sweeps.set j { sweep with position } } := by
  have started : task.main ≠ .created := by
    intro created
    simp [(alone.created created).1] at part
  have live : task.main ≠ .ended := by
    intro ended
    exact acts.unfinished ((alone.ended ended).1 sweep (mem_of_getElem? part))
  have row : SameRow s.job (s.moved 0 j task sweep position call).job := by
    cases call with
    | none => exact ⟨rfl, rfl, rfl, rfl, rfl⟩
    | some call => exact sameRow_perform s.job call
  obtain ⟨bound, -⟩ := List.getElem?_eq_some_iff.mp part
  have new : { sweep with position } ∈ task.sweeps.set j { sweep with position } :=
    mem_set bound _
  -- Another sweep stays where it is.
  have kept : ∀ {other}, other ∈ task.sweeps → other ≠ sweep →
      other ∈ task.sweeps.set j { sweep with position } := by
    intro other mem different
    obtain ⟨k, present⟩ := mem_iff_getElem?.mp mem
    refine mem_of_getElem? (i := k) (getElem?_set_eq_some.mpr (.inr ⟨?_, present⟩))
    rintro rfl
    rw [part, Option.some.injEq] at present
    exact different present.symm
  refine ⟨by simp [Backtest.moved, alone.tasks], row.keys.trans alone.keys, ?_, ?_, ?_, ?_,
    alone.already, ?_, ?_⟩
  · intro created
    exact absurd created started
  · intro busy
    exact row.status.trans (alone.busy busy)
  · intro ended
    exact absurd ended live
  · intro crashed
    obtain ⟨other, mem, raised⟩ := alone.crashed crashed
    refine ⟨other, kept mem ?_, raised⟩
    rintro rfl
    exact not_raised acts raised
  · intro key running
    rcases holds_acts acts running with holds | ⟨before, free⟩
    · exact ⟨_, new, holds⟩
    · obtain ⟨other, mem, holds⟩ := alone.running key before
      refine ⟨other, kept mem ?_, holds⟩
      rintro rfl
      exact free holds
  · intro _ key mem unfinished
    rcases alone.owed started key mem unfinished with old | cancelled | ⟨other, member, owes⟩
    · exact .inl (mem_started_moved (.inl old))
    · exact .inr (.inl (row.cancelRequested.trans cancelled))
    · by_cases same : other = sweep
      · subst same
        rcases owes_acts acts owes with later | starts | cancelled | already
        · exact .inr (.inr ⟨_, new, later⟩)
        · exact .inl (mem_started_moved (.inr starts))
        · exact .inr (.inl (row.cancelRequested.trans cancelled))
        · exact absurd (alone.already key already) unfinished
      · exact .inr (.inr ⟨other, kept member same, owes⟩)

theorem Alone.gatherRaises (gathering : task.main = .gathering)
    (raised : ∃ sweep ∈ task.sweeps, sweep.position = .raised) :
    Alone job { s with tasks := s.tasks.set 0 { task with main := .crashed } }
      { task with main := .crashed } where
  tasks := by simp [alone.tasks]
  keys := alone.keys
  created := by simp
  busy := fun _ => alone.busy (.inl gathering)
  ended := by simp
  crashed := fun _ => raised
  already := alone.already
  running := alone.running
  owed := fun _ => alone.owed (by simp [gathering])

theorem Alone.concludes (gathering : task.main = .gathering)
    (finished : ∀ sweep ∈ task.sweeps, sweep.position = .finished) (closed : Bool) :
    Alone job
      { s with job := s.job.conclude, tasks := s.tasks.set 0 { task with main := .ended }, closed }
      { task with main := .ended } where
  tasks := by simp [alone.tasks]
  keys := by
    rw [cells_conclude]
    exact alone.keys
  created := by simp
  busy := by simp
  ended := fun _ => ⟨finished, status_conclude s.job⟩
  crashed := by simp
  already := alone.already
  running := by
    rw [statusOf_of_cells (cells_conclude s.job)]
    exact alone.running
  owed := by
    intro _ key mem unfinished
    rw [cancelRequested_conclude]
    exact alone.owed (by simp [gathering]) key mem unfinished

theorem Alone.step (stepped : runStep maxConcurrent s e = some s') :
    ∃ task', Alone job s' task' := by
  unfold runStep at stepped
  split_ifs at stepped with outside
  cases steps_of_step stepped with
  | begins own fresh =>
    obtain ⟨rfl, rfl⟩ := alone.unique own
    exact ⟨_, alone.begins fresh⟩
  | sweeps own part acted =>
    obtain ⟨rfl, rfl⟩ := alone.unique own
    exact ⟨_, alone.moved part (acts_act acted)⟩
  | gatherRaises own gathering raised =>
    obtain ⟨rfl, rfl⟩ := alone.unique own
    exact ⟨_, alone.gatherRaises gathering raised⟩
  | concludes own gathering finished =>
    obtain ⟨rfl, rfl⟩ := alone.unique own
    exact ⟨_, alone.concludes gathering finished _⟩
  | resume | restart => simp at outside
  | cancel =>
    refine ⟨task, { alone with owed := ?_ }⟩
    exact fun _ _ _ _ => .inr (.inl rfl)

end

def NoneRaised (s : Backtest) : Prop :=
  ∀ task ∈ s.tasks, ∀ sweep ∈ task.sweeps, sweep.position ≠ .raised

theorem noneRaised_iff (alone : Alone job s task) :
    NoneRaised s ↔ ∀ sweep ∈ task.sweeps, sweep.position ≠ .raised := by
  simp [NoneRaised, alone.tasks]

theorem noneRaised_set (part : task.sweeps[j]? = some sweep) (alive : sweep.position ≠ .raised) :
    (∀ other ∈ task.sweeps.set j { sweep with position }, other.position ≠ .raised) ↔
      (∀ other ∈ task.sweeps, other.position ≠ .raised) ∧ position ≠ .raised := by
  obtain ⟨bound, -⟩ := List.getElem?_eq_some_iff.mp part
  constructor
  · intro all
    refine ⟨?_, all _ (mem_set bound _)⟩
    intro other mem raised
    obtain ⟨k, present⟩ := mem_iff_getElem?.mp mem
    by_cases same : k = j
    · subst same
      rw [part, Option.some.injEq] at present
      exact alive (present ▸ raised)
    · refine all other (mem_of_getElem? (i := k) ?_) raised
      exact getElem?_set_eq_some.mpr (.inr ⟨same, present⟩)
  · rintro ⟨all, new⟩ other mem
    rcases mem_or_eq_of_mem_set mem with old | rfl
    · exact all other old
    · exact new

theorem caught_iff {outcome : Outcome} (own : s.tasks[i]? = some task)
    (part : task.sweeps[j]? = some sweep)
    (acted : sweep.act s.job task.alreadyCompleted outcome = some (position, call)) :
    position ≠ .raised ↔ Caught s (.sweeps i j outcome) := by
  cases outcome with
  | returns answer =>
    refine iff_of_true ?_ trivial
    rintro rfl
    simp only [Sweep.act, Sweep.afterReturn] at acted
    grind
  | raises error =>
    obtain ⟨_, raised, ⟨⟩⟩ := Option.map_eq_some_iff.mp acted
    simp only [Caught, own, part, Option.mem_some, forall_eq']
    unfold Sweep.afterRaise at raised
    split at raised
    case h_3 stage here =>
      cases stage <;> simp only [Stage.afterRaise, Option.some.injEq] at raised <;>
        simp [here, guarded, ← raised]
    case h_6 => cases raised
    all_goals
      rename_i here
      cases raised
      simp [here, guarded]

theorem noneRaised_step (alone : Alone job s task)
    (stepped : runStep maxConcurrent s e = some s') :
    NoneRaised s' ↔ NoneRaised s ∧ Caught s e := by
  unfold runStep at stepped
  split_ifs at stepped with outside
  rw [noneRaised_iff alone]
  cases steps_of_step stepped with
  | begins own fresh =>
    obtain ⟨rfl, rfl⟩ := alone.unique own
    rw [noneRaised_iff (alone.begins fresh)]
    refine iff_of_true ?_ ⟨by simp [(alone.created fresh).1], by simp [Caught]⟩
    intro sweep mem
    obtain ⟨-, entering, -⟩ := mem_sweeps_iff.mp mem
    simp [entering]
  | sweeps own part acted =>
    obtain ⟨rfl, rfl⟩ := alone.unique own
    have acts := acts_act acted
    rw [noneRaised_iff (alone.moved part acts), noneRaised_set part (not_raised acts)]
    rw [← caught_iff own part acted]
  | gatherRaises own gathering raised =>
    obtain ⟨rfl, rfl⟩ := alone.unique own
    rw [noneRaised_iff (alone.gatherRaises gathering raised)]
    simp [Caught]
  | concludes own gathering finished =>
    obtain ⟨rfl, rfl⟩ := alone.unique own
    rw [noneRaised_iff (alone.concludes gathering finished _)]
    simp [Caught]
  | resume | restart => simp at outside
  | cancel => simp [NoneRaised, alone.tasks, Caught]

theorem isolated_iff_noneRaised (alone : Alone job s task) (done : Done s) :
    Isolated job s ↔ NoneRaised s := by
  rw [noneRaised_iff alone]
  obtain ⟨over', -⟩ := done task (by simp [alone.tasks])
  constructor
  · rintro ⟨status, -, -⟩ sweep mem raised
    have ended : task.main = .ended := by
      refine over'.resolve_right fun crashed => ?_
      rw [alone.busy (.inr crashed)] at status
      simp at status
    rw [(alone.ended ended).1 sweep mem] at raised
    cases raised
  · intro none
    have ended : task.main = .ended := by
      refine over'.resolve_right fun crashed => ?_
      obtain ⟨sweep, mem, raised⟩ := alone.crashed crashed
      exact none sweep mem raised
    obtain ⟨finished, status⟩ := alone.ended ended
    refine ⟨status, ?_, ?_⟩
    · intro key running
      obtain ⟨sweep, mem, -, holds⟩ := alone.running key running
      simp [finished sweep mem] at holds
    · by_cases cancelled : s.job.cancelRequested = true
      · exact .inl cancelled
      · right
        intro key mem unfinished
        rcases alone.owed (by simp [ended]) key mem unfinished with
          started | requested | ⟨sweep, member, -, owes⟩
        · exact started
        · exact absurd requested cancelled
        · simp [finished sweep member, ahead, line] at owes

def Position.weight (dates : List Int) : Position → Nat
  | .entering => 13 * dates.length + 5
  | .waiting => 13 * dates.length + 4
  | .looping rest => 12 * rest.length + dates.length + 3
  | .inCell _ rest stage => Stage.rank stage + 12 * rest.length + dates.length + 3
  | .settling => dates.length + 2
  | .evaluating rest => rest.length + 1
  | .finished | .raised => 0

def weight (sweep : Sweep) : Nat := Position.weight sweep.dates sweep.position

def workload (job : Job) (task : Task) : Nat :=
  match task.main with
  | .created => (job.sweeps.map weight).sum + 2
  | .gathering => (task.sweeps.map weight).sum + 1
  | _ => (task.sweeps.map weight).sum

def remaining (s : Backtest) : Nat := (s.tasks.map (workload s.job)).sum

theorem Alone.remaining_eq (alone : Alone job s task) : remaining s = workload s.job task := by
  simp [remaining, alone.tasks]

theorem weight_acts (acts : Acts job alreadyCompleted sweep position call) :
    weight { sweep with position } < weight sweep := by
  cases acts with
  | raises unfinished first =>
    cases here : sweep.position with
    | finished => exact absurd here unfinished
    | raised => exact absurd here first
    | _ => simp [weight, Position.weight, here]
  | @advances date rest stage stage' here later =>
    simp only [weight, Position.weight, here]
    omega
  | @starts date rest here =>
    simp only [weight, Position.weight, here, length_cons, Stage.rank]
    omega
  | @completes date rest stage _ _ _ here | @fails date rest stage _ here =>
    have := rank_pos stage
    simp only [weight, Position.weight, here]
    omega
  | _ => simp [weight, Position.weight, *] <;> omega

theorem remaining_step (alone : Alone job s task) (stepped : runStep maxConcurrent s e = some s') :
    remaining s' + (decide (e ≠ .cancel)).toNat ≤ remaining s := by
  unfold runStep at stepped
  split_ifs at stepped with outside
  rw [alone.remaining_eq]
  cases steps_of_step stepped with
  | begins own fresh =>
    obtain ⟨rfl, rfl⟩ := alone.unique own
    rw [(alone.begins fresh).remaining_eq]
    simp [workload, fresh, Job.sweeps]
  | @sweeps i j outcome task' sweep position call own part acted =>
    obtain ⟨rfl, rfl⟩ := alone.unique own
    have acts := acts_act acted
    have lighter := weight_acts acts
    have changed := sum_map_set (f := weight) (b := { sweep with position }) part
    rw [(alone.moved part acts).remaining_eq]
    cases main : task'.main with
    | created => simp [(alone.created main).1] at part
    | _ =>
      simp only [workload, main, ne_eq, reduceCtorEq, not_false_eq_true, decide_true,
        Bool.toNat_true]
      omega
  | gatherRaises own gathering raised =>
    obtain ⟨rfl, rfl⟩ := alone.unique own
    rw [(alone.gatherRaises gathering raised).remaining_eq]
    simp [workload, gathering]
  | concludes own gathering finished =>
    obtain ⟨rfl, rfl⟩ := alone.unique own
    rw [(alone.concludes gathering finished _).remaining_eq]
    simp [workload, gathering]
  | resume | restart => simp at outside
  | cancel => simp [remaining, alone.tasks, workload, Job.sweeps]

theorem exists_afterReturn (unfinished : ¬ Over sweep) (job : Job) (alreadyCompleted : List Key) :
    ∃ result, sweep.afterReturn job alreadyCompleted {} = some result := by
  rw [← Option.isSome_iff_exists]
  unfold Sweep.afterReturn
  cases here : sweep.position with
  | looping rest =>
    cases rest with
    | nil => rfl
    | cons date rest =>
      simp only
      split_ifs <;> rfl
  | inCell date rest stage =>
    simp only
    split <;> rfl
  | evaluating rest => cases rest <;> rfl
  | finished => exact absurd (.inl here) unfinished
  | raised => exact absurd (.inr here) unfinished
  | _ => rfl

theorem isSome_sweeps (alone : Alone job s task) (part : task.sweeps[j]? = some sweep)
    (unfinished : ¬ Over sweep) (free : sweep.position = .waiting → s.active < maxConcurrent) :
    (runStep maxConcurrent s (.sweeps 0 j (.returns {}))).isSome := by
  have own : s.tasks[0]? = some task := by simp [alone.tasks]
  have enabled : ¬ (sweep.position = .waiting ∧ maxConcurrent ≤ s.active) := by
    rintro ⟨waiting, full⟩
    exact absurd (free waiting) (Nat.not_lt.mpr full)
  obtain ⟨result, acted⟩ := exists_afterReturn unfinished s.job task.alreadyCompleted
  simp [runStep, Backtest.step, own, part, Backtest.sweepActs, enabled, Sweep.act, acted]

theorem exists_step_of_over (alone : Alone job s task) (unfinished : ¬ Done s)
    (all : ∀ sweep ∈ task.sweeps, Over sweep) :
    ∃ e, e ≠ .cancel ∧ (runStep maxConcurrent s e).isSome := by
  have own : s.tasks[0]? = some task := by simp [alone.tasks]
  have running : task.main ≠ .ended ∧ task.main ≠ .crashed := by
    rw [← not_or]
    intro over'
    apply unfinished
    intro other mem
    rw [alone.tasks, mem_singleton] at mem
    exact mem ▸ ⟨over', all⟩
  cases main : task.main with
  | created =>
    refine ⟨.begins 0, by simp, ?_⟩
    simp [runStep, Backtest.step, own, Backtest.begins, main]
  | gathering =>
    by_cases raised : ∃ sweep ∈ task.sweeps, sweep.position = .raised
    · refine ⟨.gatherRaises 0, by simp, ?_⟩
      simp [runStep, Backtest.step, own, Backtest.gatherRaises, main, raised]
    · have finished : ∀ sweep ∈ task.sweeps, sweep.position = .finished := by
        intro sweep mem
        exact (all sweep mem).resolve_right fun other => raised ⟨sweep, mem, other⟩
      refine ⟨.concludes 0, by simp, ?_⟩
      simp only [runStep, Backtest.step, own, Backtest.concludes, Option.bind_some]
      rw [if_neg (by simp), if_pos ⟨main, finished⟩]
      rfl
  | ended => exact absurd main running.1
  | crashed => exact absurd main running.2

theorem exists_step (alone : Alone job s task) (positive : 0 < maxConcurrent)
    (unfinished : ¬ Done s) :
    ∃ e, e ≠ .cancel ∧ (runStep maxConcurrent s e).isSome := by
  by_cases all : ∀ sweep ∈ task.sweeps, Over sweep
  · exact exists_step_of_over alone unfinished all
  · have chosen : ∃ sweep ∈ task.sweeps, ¬ Over sweep ∧
        (sweep.position = .waiting → s.active < maxConcurrent) := by
      by_cases moving : ∃ sweep ∈ task.sweeps, ¬ Over sweep ∧ sweep.position ≠ .waiting
      · obtain ⟨sweep, mem, going, awake⟩ := moving
        exact ⟨sweep, mem, going, fun waiting => absurd waiting awake⟩
      · have idle : s.active = 0 := by
          simp only [Backtest.active, alone.tasks, map_singleton, sum_singleton, countP_eq_zero]
          intro sweep mem holds
          apply moving
          refine ⟨sweep, mem, ?_, ?_⟩
          · rintro (finished | raised)
            · simp [finished, Position.holds] at holds
            · simp [raised, Position.holds] at holds
          · intro waiting
            simp [waiting, Position.holds] at holds
        simp only [not_forall] at all
        obtain ⟨sweep, mem, going⟩ := all
        exact ⟨sweep, mem, going, fun _ => by omega⟩
    obtain ⟨sweep, mem, going, free⟩ := chosen
    obtain ⟨j, part⟩ := mem_iff_getElem?.mp mem
    exact ⟨_, by simp, isSome_sweeps alone part going free⟩

theorem isolated_iff_caught {events : List Event}
    (idle : ∀ key, statusOf job key ≠ some .running) (positive : 0 < maxConcurrent)
    (path : run (runStep maxConcurrent) (.submitted job) events = some s) :
    (Done s → (Isolated job s ↔ Meets (runStep maxConcurrent) Caught (.submitted job) events)) ∧
      (¬ Done s → ∃ e, e ≠ .cancel ∧ (runStep maxConcurrent s e).isSome) ∧
      events.countP (· ≠ .cancel) ≤ remaining (.submitted job) := by
  have keeps : ∀ s e s', (∃ task, Alone job s task) → runStep maxConcurrent s e = some s' →
      ∃ task', Alone job s' task' := by
    rintro s e s' ⟨task, alone⟩
    exact alone.step
  have start : ∃ task, Alone job (.submitted job) task := ⟨{}, alone_submitted idle⟩
  obtain ⟨task, alone⟩ := run_invariant keeps path start
  refine ⟨?_, exists_step alone positive, ?_⟩
  · intro done
    have loses : ∀ s e s', (∃ task, Alone job s task) → runStep maxConcurrent s e = some s' →
        (NoneRaised s' ↔ NoneRaised s ∧ Caught s e) := by
      rintro s e s' ⟨task, alone⟩
      exact noneRaised_step alone
    have none : NoneRaised (.submitted job) := by simp [NoneRaised, Backtest.submitted]
    rw [isolated_iff_noneRaised alone done, run_property_iff keeps loses path start]
    exact and_iff_right none
  · have falls : ∀ s e s', (∃ task, Alone job s task) → runStep maxConcurrent s e = some s' →
        remaining s' + (decide (e ≠ .cancel)).toNat ≤ remaining s := by
      rintro s e s' ⟨task, alone⟩
      exact remaining_step alone
    have bound := run_countP_le keeps falls path start
    omega

theorem statusOf_create (grid : Grid) (market : Option Market) (holdingDays : Nat) (key : Key) :
    statusOf (createBacktest grid market holdingDays) key ≠ some .running := by
  rw [statusOf]
  intro running
  obtain ⟨c, found, status⟩ := Option.map_eq_some_iff.mp running
  have member := (Dict.mem_entries_iff _).mpr found
  simp only [createBacktest, mem_map, Prod.mk.injEq] at member
  obtain ⟨_, _, _, rfl⟩ := member
  cases status

theorem dates_nodup : ([20000, 20001] : List Int).Nodup := by decide

def twoDates : Job :=
  createBacktest ⟨["INFY"], [20000, 20001], List.nodup_singleton _, dates_nodup⟩ (some .us) 5

theorem failed_research_isolated :
    let events := upToResearch 0 ++ .sweeps 0 0 (.raises "rate limit") :: proceeds 0 17 ++
      [.concludes 0]
    ∃ s, run (runStep 1) (.submitted twoDates) events = some s ∧ Done s ∧ Isolated twoDates s ∧
      statusOf s.job ("INFY", 20000) = some .failed ∧
      statusOf s.job ("INFY", 20001) = some .completed := by
  intro events
  refine ⟨_, rfl, by decide, ?_, rfl, rfl⟩
  exact ((@isolated_iff_caught 1 twoDates _ events (statusOf_create _ _ _) (by decide) rfl).1
    (by decide)).mpr (by decide)

theorem failed_lookup_not_isolated :
    ∃ s, run (runStep 1) (.submitted twoDates)
        (upToResearch 0 ++ proceeds 0 3 ++
          [.sweeps 0 0 (.raises "memory log"), .gatherRaises 0]) = some s ∧
      Done s ∧ s.job.status = .running ∧
      statusOf s.job ("INFY", 20000) = some .running ∧
      statusOf s.job ("INFY", 20001) = some .pending ∧ ("INFY", 20001) ∉ s.started :=
  ⟨_, rfl, by decide, rfl, rfl, rfl, by decide⟩

end AlgoSystem.Proof.AiBacktest.Isolation
