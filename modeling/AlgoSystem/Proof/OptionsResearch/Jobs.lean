import AlgoSystem.OptionsResearch.Jobs

namespace AlgoSystem.Proof.OptionsResearch.Jobs
open General AlgoSystem.OptionsResearch List

variable {run : OptionsRun} {call : Call} {p p' : Pipeline} {outcome : Outcome} {job job' : Job}
  {action : Action}

theorem names_perform (run : OptionsRun) (call : Call) :
    (run.perform call).stages.map NodeStage.name = run.stages.map NodeStage.name := by
  cases call with
  | markRunning =>
    show (run.stages.modify 0 _).map NodeStage.name = _
    cases run.stages <;> rfl
  | markStageComplete name =>
    rw [OptionsRun.perform, OptionsRun.markStageComplete]
    split
    · rfl
    · exact names_handOn (fun _ => true)
  | markCompleted report context | markFailed message category context => rfl
  | markRemainingStagesSkipped =>
    show (run.stages.map _).map NodeStage.name = _
    rw [map_map]
    apply map_congr_left
    intro s _
    simp only [Function.comp]
    split_ifs <;> rfl

theorem tidy_skip (run : OptionsRun) : (run.perform .markRemainingStagesSkipped).Tidy := by
  intro s mem
  obtain ⟨old, -, rfl⟩ := mem_map.mp mem
  split_ifs with isOpen
  · rfl
  · exact Bool.eq_false_iff.mpr isOpen

theorem tidy_perform (tidy : run.Tidy) (later : call ≠ .markRunning) : (run.perform call).Tidy := by
  cases call with
  | markRunning => exact absurd rfl later
  | markStageComplete name =>
    rw [OptionsRun.perform, OptionsRun.markStageComplete]
    split
    next => exact tidy
    next i found =>
      obtain ⟨s, mem, -, isOpen⟩ := openIndex_eq_some found
      rw [tidy s (mem_of_getElem? mem)] at isOpen
      cases isOpen
  | markCompleted report context | markFailed message category context => exact tidy
  | markRemainingStagesSkipped => exact tidy_skip run

theorem status_markStageComplete (run : OptionsRun) (name : String) :
    (run.perform (.markStageComplete name)).status = run.status := by
  rw [OptionsRun.perform, OptionsRun.markStageComplete]
  split <;> rfl

theorem tidy_iff_closedBelow (names : run.stages.map NodeStage.name = stageNames) :
    run.Tidy ↔ ClosedBelow 9 run.stages := by
  have length : run.stages.length = 9 := by
    rw [← length_map NodeStage.name, names]
    rfl
  rw [← length, closedBelow_length, OptionsRun.Tidy]

theorem closedBelow_markStageComplete (names : run.stages.map NodeStage.name = stageNames)
    {stage : Fin 9} (closed : ClosedBelow stage run.stages) :
    ClosedBelow (stage + 1) (run.perform (.markStageComplete (stageName stage))).stages := by
  have named : stageNames[stage.val]? = some (stageName stage) :=
    getElem?_eq_getElem stage.isLt
  rw [OptionsRun.perform, OptionsRun.markStageComplete]
  split
  next missing =>
    intro k s below found
    by_cases earlier : k < stage
    · exact closed k s earlier found
    · have here : k = stage := by omega
      subst here
      apply openIndex_eq_none missing (mem_of_getElem? found)
      rw [← names, getElem?_map, found] at named
      exact Option.some.inj named
  next i found =>
    -- the names are distinct, so that the stage which is found is the one that is marked
    obtain ⟨s, mem, own, -⟩ := openIndex_eq_some found
    have same : i = stage := by
      have distinct : stageNames.Nodup := by decide
      have position : stageNames[i]? = some (stageName stage) := by
        rw [← names, getElem?_map, mem, Option.map_some, own]
      exact (getElem?_inj (List.getElem?_eq_some_iff.mp position).1 distinct).mp
        (position.trans named.symm)
    rw [same]
    exact closedBelow_handOn (fun _ => true) closed

def passed : Pipeline → Nat
  | .markingStage _ stage | .callingAgent _ stage => stage
  | .generatingCandidates _ => 1
  | .buildingReport _ | .completing _ _ | .ended => 9
  | _ => 0

inductive Works : Pipeline → Option Call → Pipeline → Prop
  | quiet {p p' : Pipeline} (less : passed p' ≤ passed p) : Works p none p'
  | mark {p' : Pipeline} {context : ResearchContext} {stage : Fin 9}
      (less : passed p' ≤ stage + 1) :
      Works (.markingStage context stage) (some (.markStageComplete (stageName stage))) p'
  | skip {p p' : Pipeline} : Works p (some .markRemainingStagesSkipped) p'
  | complete {context : ResearchContext} {report : String} :
      Works (.completing context report) (some (.markCompleted report context)) .ended
  | fail {message : String} {category : Option String} {context : Option ResearchContext} :
      Works (.failing message category context) (some (.markFailed message category context))
        .skippingRemaining

theorem passed_afterStage (context : ResearchContext) (stage : Fin 9) :
    passed (Pipeline.afterStage context stage) ≤ stage + 1 := by
  unfold Pipeline.afterStage Pipeline.beginStage
  split_ifs <;> simp only [passed] <;> omega

theorem works_of_next {call : Option Call} (next : p.next outcome = some (call, p')) :
    p.stopped = false ∧ Works p call p' := by
  unfold Pipeline.next at next
  split at next <;> cases next <;> refine ⟨rfl, ?_⟩
  case h_5 context stage => exact .mark (passed_afterStage context stage)
  case h_6 context report =>
    apply Works.quiet
    split_ifs <;> simp [passed]
  all_goals first | exact .skip | exact .complete | exact .fail | exact .quiet (by simp [passed])

inductive Acts (job : Job) : Action → Job → Prop
  | start (queued : job.coroutine = .queued) :
      Acts job .start
        { run := job.run.perform .markRunning, coroutine := .waiting, pipeline := .enqueued }
  | work {outcome : Outcome} {call : Option Call} {p : Pipeline}
      (next : job.pipeline.next outcome = some (call, p)) :
      Acts job (.work outcome)
        { job with run := call.elim job.run job.run.perform, pipeline := p }
  | timeOut (waiting : job.coroutine = .waiting) :
      Acts job .timeOut
        { job with
          coroutine := .failing "Research timed out" (some "LLM_TIMEOUT")
          pipeline := if job.pipeline = .enqueued then .absent else job.pipeline }
  | deliver (waiting : job.coroutine = .waiting) (ended : job.pipeline = .ended) :
      Acts job .deliver { job with coroutine := .done }
  | crash {message : String} {category : Option String} (waiting : job.coroutine = .waiting) :
      Acts job .deliver { job with coroutine := .failing message category }
  | fail {message : String} {category : Option String}
      (failing : job.coroutine = .failing message category) :
      Acts job .handle
        { job with
          run := job.run.perform (.markFailed message category none)
          coroutine := .skipping }
  | skip (skipping : job.coroutine = .skipping) :
      Acts job .handle
        { job with run := job.run.perform .markRemainingStagesSkipped, coroutine := .done }

theorem acts_of_act (acted : job.act action = some job') : Acts job action job' := by
  cases action with
  | start =>
    simp only [Job.act, Option.ite_none_right_eq_some, Option.some.injEq] at acted
    obtain ⟨queued, rfl⟩ := acted
    exact .start queued
  | work outcome =>
    simp only [Job.act, Option.map_eq_some_iff, Prod.exists] at acted
    obtain ⟨call, p, next, rfl⟩ := acted
    exact .work next
  | timeOut =>
    simp only [Job.act, Option.ite_none_right_eq_some, Option.some.injEq] at acted
    obtain ⟨waiting, rfl⟩ := acted
    exact .timeOut waiting
  | deliver =>
    simp only [Job.act, Option.ite_none_right_eq_some] at acted
    obtain ⟨waiting, acted⟩ := acted
    split at acted <;> cases acted
    · exact .deliver waiting ‹_›
    · unfold PipelineError.handled
      split_ifs <;> exact .crash waiting
  | handle =>
    simp only [Job.act] at acted
    split at acted <;> cases acted
    · exact .fail ‹_›
    · exact .skip ‹_›

structure Sound (job : Job) : Prop where
  names : job.run.stages.map NodeStage.name = stageNames
  queued : job.run.status = .queued ↔ job.coroutine = .queued
  untouched : job.coroutine = .queued → job.pipeline = .absent ∧ ¬ job.run.Tidy
  completed : job.run.status = .completed → job.pipeline = .ended ∨ job.pipeline = .absent
  passed : ClosedBelow (passed job.pipeline) job.run.stages
  settled : job.coroutine = .done ∨ job.coroutine = .gone → job.run.Tidy
  recovered : job.coroutine = .gone → job.pipeline = .absent ∧ job.run.terminal = true

def timely (job : Job) : Action → Bool
  | .work _ => match job.pipeline with
      | .completing _ _ => job.run.status ≠ .failed
      | _ => true
  | .handle => match job.coroutine with
      | .failing _ _ => job.run.status ≠ .completed
      | _ => true
  | _ => true

theorem sound_new : Sound {} where
  names := by decide
  queued := by decide
  untouched := by decide
  completed := by decide
  passed := by simp [ClosedBelow, Jobs.passed]
  settled := by decide
  recovered := by decide

theorem sound_of_begun {coroutine : Coroutine}
    (names : run.stages.map NodeStage.name = stageNames) (status : run.status ≠ .queued)
    (begun : coroutine ≠ .queued) (alive : coroutine ≠ .gone)
    (completed : run.status = .completed → p = .ended ∨ p = .absent)
    (closed : ClosedBelow (passed p) run.stages) (settled : coroutine = .done → run.Tidy) :
    Sound ⟨run, coroutine, p⟩ where
  names := names
  queued := iff_of_false status begun
  untouched := fun queued => absurd queued begun
  completed := completed
  passed := closed
  settled := fun over' => settled (over'.resolve_right alive)
  recovered := fun gone => absurd gone alive

theorem closedBelow_zero (stages : List NodeStage) : ClosedBelow 0 stages := by
  intro k s below
  cases below

theorem tidy_of_passed (sound : Sound job) (all : passed job.pipeline = 9) : job.run.Tidy := by
  rw [tidy_iff_closedBelow sound.names, ← all]
  exact sound.passed

theorem Sound.running (sound : Sound job) (running : job.pipeline.stopped = false) :
    job.coroutine ≠ .queued ∧ job.coroutine ≠ .gone ∧ job.run.status ≠ .completed := by
  have absent : job.pipeline ≠ .absent := by
    intro absent
    rw [absent] at running
    cases running
  have ended : job.pipeline ≠ .ended := by
    intro ended
    rw [ended] at running
    cases running
  refine ⟨fun queued => absent (sound.untouched queued).1,
    fun gone => absent (sound.recovered gone).1, ?_⟩
  intro completed
  exact (sound.completed completed).elim ended absent

theorem sound_work {call : Option Call} (sound : Sound job)
    (next : job.pipeline.next outcome = some (call, p)) (inTime : timely job (.work outcome) = true) :
    Sound { job with run := call.elim job.run job.run.perform, pipeline := p } ∧
      (job.run.terminal = true → (call.elim job.run job.run.perform).status = job.run.status) := by
  obtain ⟨running, works⟩ := works_of_next next
  obtain ⟨begun, alive, unfinished⟩ := sound.running running
  have status : job.run.status ≠ .queued := fun queued => begun (sound.queued.mp queued)
  have done : job.coroutine = .done → job.run.Tidy := fun ended => sound.settled (.inl ended)
  have closed := sound.passed
  have tidy := tidy_of_passed sound
  rw [timely] at inTime
  generalize job.pipeline = current at works closed tidy inTime
  cases works with
  | quiet less =>
    exact ⟨sound_of_begun sound.names status begun alive (fun h => absurd h unfinished)
      (closed.mono less) done, fun _ => rfl⟩
  | @mark _ context stage less =>
    have names := (names_perform job.run (.markStageComplete (stageName stage))).trans sound.names
    have same := status_markStageComplete job.run (stageName stage)
    have further := closedBelow_markStageComplete sound.names closed
    have kept : job.coroutine = .done →
        (job.run.perform (.markStageComplete (stageName stage))).Tidy :=
      fun ended => tidy_perform (done ended) (by simp)
    exact ⟨sound_of_begun names (fun h => status (same.symm.trans h)) begun alive
      (fun h => absurd (same.symm.trans h) unfinished) (further.mono less) kept, fun _ => same⟩
  | skip =>
    have names := (names_perform job.run .markRemainingStagesSkipped).trans sound.names
    have skipped := tidy_skip job.run
    exact ⟨sound_of_begun names status begun alive (fun h => absurd h unfinished)
      (closedBelow_of_forall skipped _) (fun _ => skipped), fun _ => rfl⟩
  | complete =>
    refine ⟨sound_of_begun sound.names (by simp [OptionsRun.perform, OptionsRun.markCompleted])
      begun alive (fun _ => .inl rfl) (closedBelow_of_forall (tidy rfl) _) (fun _ => tidy rfl), ?_⟩
    intro terminal
    have notFailed : job.run.status ≠ .failed := by simpa using inTime
    simp [OptionsRun.terminal, unfinished, notFailed] at terminal
  | fail =>
    refine ⟨sound_of_begun sound.names (by simp [OptionsRun.perform, OptionsRun.markFailed])
      begun alive (by simp [OptionsRun.perform, OptionsRun.markFailed]) (closedBelow_zero _) done,
      ?_⟩
    intro terminal
    have failed : job.run.status = .failed := by
      simpa [OptionsRun.terminal, unfinished] using terminal
    exact failed.symm

theorem sound_act (sound : Sound job) (inTime : timely job action = true)
    (acted : job.act action = some job') :
    Sound job' ∧ (job.run.terminal = true → job'.run.status = job.run.status) := by
  cases acts_of_act acted with
  | start queued =>
    have status := sound.queued.mpr queued
    have names := (names_perform job.run .markRunning).trans sound.names
    have running : (job.run.perform .markRunning).status = .running := rfl
    refine ⟨sound_of_begun names (by simp [running]) (by simp) (by simp) (by simp [running])
      (closedBelow_zero _) (by simp), ?_⟩
    simp [OptionsRun.terminal, status]
  | work next => exact sound_work sound next inTime
  | timeOut waiting =>
    have begun : job.run.status ≠ .queued := by simp [sound.queued, waiting]
    refine ⟨sound_of_begun sound.names begun (by simp) (by simp) ?_ ?_ (by simp), fun _ => rfl⟩
    · intro completed
      rcases sound.completed completed with ended | absent
      · simp [ended]
      · simp [absent]
    · split_ifs
      · exact closedBelow_zero _
      · exact sound.passed
  | deliver waiting ended =>
    have begun : job.run.status ≠ .queued := by simp [sound.queued, waiting]
    have tidy := tidy_of_passed sound (by rw [ended]; rfl)
    exact ⟨sound_of_begun sound.names begun (by simp) (by simp) sound.completed sound.passed
      (fun _ => tidy), fun _ => rfl⟩
  | crash waiting =>
    have begun : job.run.status ≠ .queued := by simp [sound.queued, waiting]
    exact ⟨sound_of_begun sound.names begun (by simp) (by simp) sound.completed sound.passed
      (by simp), fun _ => rfl⟩
  | fail failing =>
    have unfinished : job.run.status ≠ .completed := by simpa [timely, failing] using inTime
    refine ⟨sound_of_begun sound.names (by simp [OptionsRun.perform, OptionsRun.markFailed])
      (by simp) (by simp) (by simp [OptionsRun.perform, OptionsRun.markFailed]) sound.passed
      (by simp), ?_⟩
    intro terminal
    have failed : job.run.status = .failed := by
      simpa [OptionsRun.terminal, unfinished] using terminal
    exact failed.symm
  | skip skipping =>
    have begun : job.run.status ≠ .queued := by simp [sound.queued, skipping]
    have names := (names_perform job.run .markRemainingStagesSkipped).trans sound.names
    have skipped := tidy_skip job.run
    exact ⟨sound_of_begun names begun (by simp) (by simp) sound.completed
      (closedBelow_of_forall skipped _) (fun _ => skipped), fun _ => rfl⟩

theorem late_act (late : ¬ timely job action = true) (acted : job.act action = some job') :
    job.run.terminal = true ∧ job'.run.status ≠ job.run.status := by
  cases acts_of_act acted with
  | work next =>
    simp only [timely] at late
    split at late
    next completing =>
      rw [completing] at next
      cases next
      have failed : job.run.status = .failed := by simpa using late
      simp [OptionsRun.terminal, failed, OptionsRun.perform, OptionsRun.markCompleted]
    next => exact absurd rfl late
  | fail failing =>
    have completed : job.run.status = .completed := by simpa [timely, failing] using late
    simp [OptionsRun.terminal, completed, OptionsRun.perform, OptionsRun.markFailed]
  | skip skipping => simp [timely, skipping] at late
  | _ => exact absurd rfl late

theorem stages_recover (run : OptionsRun) : run.recover.stages = run.stages := by
  unfold OptionsRun.recover
  split_ifs <;> rfl

theorem status_recover (run : OptionsRun) :
    run.recover.status = if run.status = .running then .failed else run.status := by
  unfold OptionsRun.recover
  split_ifs <;> rfl

theorem terminal_iff (run : OptionsRun) :
    run.terminal = true ↔ run.status ≠ .queued ∧ run.status ≠ .running := by
  unfold OptionsRun.terminal
  cases run.status <;> decide

theorem sound_restart (sound : Sound job) (tidy : job.run.Tidy) :
    Sound job.restart ∧ (job.run.terminal = true → job.restart.run.status = job.run.status) := by
  have begun : job.run.status ≠ .queued := fun queued =>
    (sound.untouched (sound.queued.mp queued)).2 tidy
  have terminal : job.run.recover.terminal = true := by
    rw [terminal_iff, status_recover]
    split_ifs with running
    · decide
    · exact ⟨begun, running⟩
  constructor
  · constructor
    case names => exact (congrArg _ (stages_recover job.run)).trans sound.names
    case queued => exact iff_of_false ((terminal_iff _).mp terminal).1 (by simp [Job.restart])
    case untouched => simp [Job.restart]
    case completed => exact fun _ => .inr rfl
    case passed => exact closedBelow_zero _
    case settled =>
      intro _ s mem
      rw [Job.restart, stages_recover] at mem
      exact tidy s mem
    case recovered => exact fun _ => ⟨rfl, terminal⟩
  · intro before
    have stopped := ((terminal_iff job.run).mp before).2
    exact (status_recover job.run).trans (if_neg stopped)

/-- A later state of the service, seen from an earlier one: a terminal status is the last one, a
run at rest has no open stage, and a recovered run is at rest. -/
structure Settled (earlier later : List Job) : Prop where
  kept : ∀ (i : Nat) job, earlier[i]? = some job → job.run.terminal = true →
    ∃ job', later[i]? = some job' ∧ job'.run.status = job.run.status
  closed : ∀ job ∈ later, job.quiescent = true → job.run.terminal = true → job.run.Tidy
  recovered : ∀ job ∈ later, job.coroutine = .gone →
    job.run.status ≠ .queued ∧ job.run.status ≠ .running

def Timely (jobs : List Job) : Event → Prop
  | .submit => True
  | .act i action => ∀ job ∈ jobs[i]?, timely job action = true
  | .restart => ∀ job ∈ jobs, job.run.Tidy

instance Timely.decidable (jobs : List Job) : ∀ event, Decidable (Timely jobs event)
  | .submit => .isTrue trivial
  | .act i action => inferInstanceAs (Decidable (∀ job ∈ jobs[i]?, timely job action = true))
  | .restart => inferInstanceAs (Decidable (∀ job ∈ jobs, job.run.Tidy))

variable {jobs jobs' jobs'' : List Job} {event : Event} {maxConcurrent : Nat}

theorem settled_of_sound (sound : ∀ job ∈ jobs', Sound job)
    (kept : ∀ (i : Nat) job, jobs[i]? = some job → job.run.terminal = true →
      ∃ job', jobs'[i]? = some job' ∧ job'.run.status = job.run.status) : Settled jobs jobs' where
  kept := kept
  closed := by
    intro job mem quiescent _
    simp only [Job.quiescent, Bool.and_eq_true, Bool.or_eq_true, decide_eq_true_eq] at quiescent
    exact (sound job mem).settled quiescent.1
  recovered := by
    intro job mem gone
    exact (terminal_iff job.run).mp ((sound job mem).recovered gone).2

theorem Settled.trans (first : Settled jobs jobs') (second : Settled jobs' jobs'') :
    Settled jobs jobs'' where
  kept := by
    intro i job found terminal
    obtain ⟨job', found', same⟩ := first.kept i job found terminal
    obtain ⟨job'', found'', same'⟩ := second.kept i job' found' (by
      rw [OptionsRun.terminal, same]
      exact terminal)
    exact ⟨job'', found'', same'.trans same⟩
  closed := second.closed
  recovered := second.recovered

theorem step_act {i : Nat} (stepped : step maxConcurrent jobs (.act i action) = some jobs') :
    ∃ job job', jobs[i]? = some job ∧ job.act action = some job' ∧ jobs' = jobs.set i job' := by
  simp only [step, Option.bind_eq_bind, Option.bind_eq_some_iff] at stepped
  obtain ⟨job, found, acted⟩ := stepped
  split_ifs at acted
  obtain ⟨job', result, rfl⟩ := Option.map_eq_some_iff.mp acted
  exact ⟨job, job', found, result, rfl⟩

theorem step_keeps (sound : ∀ job ∈ jobs, Sound job) (inTime : Timely jobs event)
    (stepped : step maxConcurrent jobs event = some jobs') :
    (∀ job ∈ jobs', Sound job) ∧ Settled jobs jobs' := by
  cases event with
  | submit =>
    cases stepped
    have sound' : ∀ job ∈ jobs ++ [({} : Job)], Sound job := by
      intro job mem
      rcases mem_append.mp mem with old | new
      · exact sound job old
      · rw [mem_singleton.mp new]
        exact sound_new
    refine ⟨sound', settled_of_sound sound' ?_⟩
    intro i job found _
    have bound := (List.getElem?_eq_some_iff.mp found).1
    exact ⟨job, by rw [getElem?_append_left bound, found], rfl⟩
  | act i action =>
    obtain ⟨job, job', found, acted, rfl⟩ := step_act stepped
    obtain ⟨next, same⟩ := sound_act (sound job (mem_of_getElem? found)) (inTime job found)
      acted
    have sound' : ∀ job ∈ jobs.set i job', Sound job := by
      intro other mem
      rcases mem_or_eq_of_mem_set mem with old | rfl
      · exact sound other old
      · exact next
    refine ⟨sound', settled_of_sound sound' ?_⟩
    intro k other foundOther terminal
    by_cases here : i = k
    · subst here
      rw [found] at foundOther
      cases foundOther
      have bound := (List.getElem?_eq_some_iff.mp found).1
      exact ⟨job', getElem?_set_self bound, same terminal⟩
    · exact ⟨other, by rw [getElem?_set_ne here, foundOther], rfl⟩
  | restart =>
    cases stepped
    have each : ∀ job ∈ jobs, _ := fun job mem =>
      sound_restart (sound job mem) (inTime job mem)
    have sound' : ∀ job ∈ jobs.map Job.restart, Sound job := by
      intro job mem
      obtain ⟨old, oldInside, rfl⟩ := mem_map.mp mem
      exact (each old oldInside).1
    refine ⟨sound', settled_of_sound sound' ?_⟩
    intro i job found terminal
    exact ⟨job.restart, by rw [getElem?_map, found]; rfl,
      (each job (mem_of_getElem? found)).2 terminal⟩

theorem step_loses (late : ¬ Timely jobs event)
    (stepped : step maxConcurrent jobs event = some jobs') : ¬ Settled jobs jobs' := by
  intro settled
  cases event with
  | submit => exact late trivial
  | act i action =>
    obtain ⟨job, job', found, acted, rfl⟩ := step_act stepped
    have lateJob : ¬ timely job action = true := by
      intro inTime
      apply late
      intro other foundOther
      rw [found] at foundOther
      cases foundOther
      exact inTime
    obtain ⟨terminal, changed⟩ := late_act lateJob acted
    obtain ⟨now, foundNow, same⟩ := settled.kept i job found terminal
    rw [getElem?_set_self (List.getElem?_eq_some_iff.mp found).1] at foundNow
    cases foundNow
    exact changed same
  | restart =>
    cases stepped
    simp only [Timely, not_forall] at late
    obtain ⟨job, mem, untidy⟩ := late
    have here : job.restart ∈ jobs.map Job.restart := mem_map_of_mem mem
    have terminal := (terminal_iff job.restart.run).mpr (settled.recovered _ here rfl)
    have tidy := settled.closed _ here rfl terminal
    apply untidy
    intro s stage
    rw [← stages_recover job.run] at stage
    exact tidy s stage

theorem settled_iff_timely {events : List Event}
    (path : General.run (step maxConcurrent) [] events = some jobs) :
    Between (step maxConcurrent) Settled [] events ↔ Meets (step maxConcurrent) Timely [] events := by
  refine between_iff_meets (P := fun jobs => ∀ job ∈ jobs, Sound job) ?_ ?_ ?_ ?_ path (by simp)
  · intro jobs sound
    exact settled_of_sound sound fun i job found _ => ⟨job, found, rfl⟩
  · exact fun _ _ _ first second => first.trans second
  · exact fun _ _ _ sound inTime stepped => step_keeps sound inTime stepped
  · exact fun _ _ _ _ late stepped => step_loses late stepped

def shortcut : List Event :=
  [.snapshot ⟨"snapshot", .insufficient⟩, .returned "", .returned "report", .returned "",
    .returned ""].map fun outcome => .act 0 (.work outcome)

theorem delivered_run_settled :
    Between (step 1) Settled []
      ([.submit, .act 0 .start, .act 0 (.work (.returned ""))] ++ shortcut ++
        [.act 0 .deliver, .restart]) :=
  (settled_iff_timely rfl).mpr (by decide)

/-- A run that was given up is COMPLETED by its pipeline; a restart leaves a run QUEUED whose job
has not begun, and the stage RUNNING of one whose job has. -/
theorem runs_not_settled :
    (∃ given given', General.run (step 1) [] [.submit, .act 0 .start, .act 0 (.work (.returned "")),
        .act 0 .timeOut, .act 0 .handle, .act 0 .handle] = some given ∧
      General.run (step 1) given shortcut = some given' ∧
      given.map (·.run.status) = [.failed] ∧ given'.map (·.run.status) = [.completed]) ∧
    (∃ jobs, General.run (step 1) [] [.submit, .restart] = some jobs ∧
      jobs.map (·.run.status) = [.queued]) ∧
    ∃ jobs, General.run (step 1) [] [.submit, .act 0 .start, .restart] = some jobs ∧
      jobs.map (·.run.status) = [.failed] ∧
      jobs.map (·.run.stages.head?) = [some ⟨"Snapshot Validation", .running⟩] :=
  ⟨⟨_, _, rfl, rfl, by decide, by decide⟩, ⟨_, rfl, by decide⟩, _, rfl, by decide, by decide⟩

end AlgoSystem.Proof.OptionsResearch.Jobs
