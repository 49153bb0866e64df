import AlgoSystem.AiBacktest.Service

namespace AlgoSystem.Proof.AiBacktest
open General AlgoSystem.AiBacktest List

variable {update : Cell → Cell} {counters : Job → Job} {india : Bool} {answer : Answer}
  {stage' : Stage} {error : String} {outcome : Outcome}

def keyOf : Call → Key
  | .markCellRunning key => key
  | .markCellCompleted key .. => key
  | .markCellFailed key _ => key
  | .markCellEvaluated key _ => key

def newStatus : Call → Option CellStatus
  | .markCellRunning _ => some .running
  | .markCellCompleted .. => some .completed
  | .markCellFailed .. => some .failed
  | .markCellEvaluated .. => none

def statusOf (job : Job) (key : Key) : Option CellStatus := (job.cells.get? key).map Cell.status

structure Performed (job : Job) (call : Call) (c : Cell) (update : Cell → Cell) (job' : Job) :
    Prop where
  cells : job'.cells = job.cells.modify (keyOf call) update
  updated : (update c).status = (newStatus call).getD c.status
  completedRuns : job'.completedRuns =
    job.completedRuns + (decide (newStatus call = some .completed)).toNat
  failedRuns : job'.failedRuns = job.failedRuns + (decide (newStatus call = some .failed)).toNat

variable {job : Job} {key : Key} {c : Cell} {call : Call}

theorem perform_of_none (absent : job.cells.get? (keyOf call) = none) :
    job.perform call = job := by
  cases call <;> simp only [keyOf] at absent <;>
    simp [Job.perform, Job.markCellRunning, Job.markCellCompleted, Job.markCellFailed,
      Job.markCellEvaluated, Job.writeCell, absent]

theorem performed_writeCell (own : keyOf call = key) (found : job.cells.get? key = some c)
    (cells : ∀ job, (counters job).cells = job.cells)
    (updated : (update c).status = (newStatus call).getD c.status)
    (completedRuns : ∀ job, (counters job).completedRuns =
      job.completedRuns + (decide (newStatus call = some .completed)).toNat)
    (failedRuns : ∀ job, (counters job).failedRuns =
      job.failedRuns + (decide (newStatus call = some .failed)).toNat) :
    Performed job call c update (job.writeCell key update counters) := by
  rw [Job.writeCell, found]
  exact ⟨by rw [cells, own], updated, completedRuns _, failedRuns _⟩

theorem perform_of_some (found : job.cells.get? (keyOf call) = some c) :
    ∃ update, Performed job call c update (job.perform call) := by
  cases call <;>
    simp only [Job.perform, Job.markCellRunning, Job.markCellCompleted, Job.markCellFailed,
      Job.markCellEvaluated] <;>
    exact ⟨_, performed_writeCell rfl found (fun _ => rfl) rfl (fun _ => rfl) fun _ => rfl⟩

theorem statusOf_perform (job : Job) (call : Call) (key : Key) :
    statusOf (job.perform call) key =
      if key = keyOf call then (statusOf job key).map (newStatus call).getD
      else statusOf job key := by
  cases found : job.cells.get? (keyOf call) with
  | none =>
    rw [perform_of_none found]
    split_ifs with same
    · simp [statusOf, same, found]
    · rfl
  | some c =>
    obtain ⟨update, performed⟩ := perform_of_some found
    rw [statusOf, performed.cells, Dict.get?_modify]
    split_ifs with same
    · simp [statusOf, same, found, performed.updated]
    · rfl

structure SameRow (job job' : Job) : Prop where
  market : job'.market = job.market
  status : job'.status = job.status
  totalRuns : job'.totalRuns = job.totalRuns
  cancelRequested : job'.cancelRequested = job.cancelRequested
  keys : job'.cells.entries.map Prod.fst = job.cells.entries.map Prod.fst

theorem sameRow_writeCell (keeps : ∀ job, SameRow job (counters job)) :
    SameRow job (job.writeCell key update counters) := by
  unfold Job.writeCell
  split
  · exact ⟨rfl, rfl, rfl, rfl, rfl⟩
  · have kept := keeps { job with cells := job.cells.modify key update }
    exact ⟨kept.market, kept.status, kept.totalRuns, kept.cancelRequested,
      kept.keys.trans (job.cells.keys_modify key update)⟩

theorem sameRow_perform (job : Job) (call : Call) : SameRow job (job.perform call) := by
  cases call <;>
    simp only [Job.perform, Job.markCellRunning, Job.markCellCompleted, Job.markCellFailed,
      Job.markCellEvaluated] <;>
    exact sameRow_writeCell fun _ => ⟨rfl, rfl, rfl, rfl, rfl⟩

def Stage.rank : Stage → Nat
  | .buildingRequest => 11
  | .creatingRun => 10
  | .markingRunning _ => 9
  | .resolvingInstrument _ => 8
  | .buildingContext _ => 7
  | .researching _ => 6
  | .buildingReport .. => 5
  | .persisting .. => 4
  | .lookingUp .. => 3
  | .completing .. => 1
  | .markingFailed _ => 2
  | .failing _ => 1

theorem rank_pos (stage : Stage) : 0 < Stage.rank stage := by
  cases stage <;> simp [Stage.rank]

variable {stage : Stage}

theorem rank_afterReturn (next : stage.afterReturn india key answer = .inl stage') :
    Stage.rank stage' < Stage.rank stage := by
  cases stage with
  | resolvingInstrument researchId =>
    cases next
    cases india <;> simp [Stage.rank]
  | completing | failing => cases next
  | _ =>
    cases next
    simp [Stage.rank]

theorem rank_afterRaise (next : stage.afterRaise error = some stage') :
    Stage.rank stage' < Stage.rank stage := by
  cases stage <;> cases next <;> simp [Stage.rank]

theorem afterReturn_call (next : stage.afterReturn india key answer = .inr call) :
    (∃ researchId rawDecision normalizedDecision,
      call = .markCellCompleted key researchId rawDecision normalizedDecision) ∨
      ∃ error, call = .markCellFailed key error := by
  cases stage with
  | completing researchId decision rating =>
    cases next
    exact .inl ⟨_, _, _, rfl⟩
  | failing error =>
    cases next
    exact .inr ⟨_, rfl⟩
  | _ => cases next

section Acts
variable (job : Job) (alreadyCompleted : List Key) (sweep : Sweep)

inductive Acts : Position → Option Call → Prop where
  | enters (here : sweep.position = .entering) : Acts .waiting none
  | acquires (here : sweep.position = .waiting) : Acts (.looping sweep.dates) none
  | endsLoop (here : sweep.position = .looping []) : Acts .settling none
  | stops {date : Int} {rest : List Int} (here : sweep.position = .looping (date :: rest))
      (cancelled : job.cancelRequested = true) : Acts .finished none
  | skips {date : Int} {rest : List Int} (here : sweep.position = .looping (date :: rest))
      (already : (sweep.symbol, date) ∈ alreadyCompleted) : Acts (.looping rest) none
  | starts {date : Int} {rest : List Int} (here : sweep.position = .looping (date :: rest))
      (new : (sweep.symbol, date) ∉ alreadyCompleted) :
      Acts (.inCell date rest .buildingRequest) (some (.markCellRunning (sweep.symbol, date)))
  | advances {date : Int} {rest : List Int} {stage stage' : Stage}
      (here : sweep.position = .inCell date rest stage)
      (later : Stage.rank stage' < Stage.rank stage) : Acts (.inCell date rest stage') none
  | completes {date : Int} {rest : List Int} {stage : Stage} (researchId : String)
      (rawDecision normalizedDecision : Option String)
      (here : sweep.position = .inCell date rest stage) :
      Acts (.looping rest)
        (some (.markCellCompleted (sweep.symbol, date) researchId rawDecision normalizedDecision))
  | fails {date : Int} {rest : List Int} {stage : Stage} (error : String)
      (here : sweep.position = .inCell date rest stage) :
      Acts (.looping rest) (some (.markCellFailed (sweep.symbol, date) error))
  | settles (here : sweep.position = .settling) : Acts (.evaluating sweep.dates) none
  | looksUp {date : Int} {rest : List Int} (here : sweep.position = .evaluating (date :: rest)) :
      Acts (.evaluating rest) none
  | evaluates {date : Int} {rest : List Int} (evaluation : Evaluation)
      (here : sweep.position = .evaluating (date :: rest)) :
      Acts (.evaluating rest) (some (.markCellEvaluated (sweep.symbol, date) evaluation))
  | ends (here : sweep.position = .evaluating []) : Acts .finished none
  | raises (unfinished : sweep.position ≠ .finished) (first : sweep.position ≠ .raised) :
      Acts .raised none

end Acts

variable {job : Job} {alreadyCompleted : List Key} {sweep : Sweep} {position : Position}
  {call : Option Call}

theorem acts_afterReturn
    (acted : sweep.afterReturn job alreadyCompleted answer = some (position, call)) :
    Acts job alreadyCompleted sweep position call := by
  unfold Sweep.afterReturn at acted
  split at acted
  next here =>
    cases acted
    exact .enters here
  next here =>
    cases acted
    exact .acquires here
  next here =>
    cases acted
    exact .endsLoop here
  next date rest here =>
    split_ifs at acted with cancelled already
    · cases acted
      exact .stops here cancelled
    · cases acted
      exact .skips here already
    · cases acted
      exact .starts here already
  next date rest stage here =>
    split at acted
    next stage' next' =>
      cases acted
      exact .advances here (rank_afterReturn next')
    next final next' =>
      cases acted
      obtain ⟨researchId, raw, normalized, rfl⟩ | ⟨error, rfl⟩ := afterReturn_call next'
      · exact .completes researchId raw normalized here
      · exact .fails error here
  next here =>
    cases acted
    exact .settles here
  next here =>
    cases acted
    exact .ends here
  next date rest here =>
    cases resolved : answer.evaluation with
    | none =>
      rw [resolved] at acted
      cases acted
      exact .looksUp here
    | some evaluation =>
      rw [resolved] at acted
      cases acted
      exact .evaluates evaluation here
  next => cases acted
  next => cases acted

theorem acts_afterRaise (raised : sweep.afterRaise error = some position) :
    Acts job alreadyCompleted sweep position none := by
  unfold Sweep.afterRaise at raised
  split at raised
  next here =>
    cases raised
    exact .raises (by simp [here]) (by simp [here])
  next here =>
    cases raised
    exact .raises (by simp [here]) (by simp [here])
  next date rest stage here =>
    split at raised
    next stage' handled =>
      cases raised
      exact .advances here (rank_afterRaise handled)
    next =>
      cases raised
      exact .raises (by simp [here]) (by simp [here])
  next here =>
    cases raised
    exact .settles here
  next here =>
    cases raised
    exact .raises (by simp [here]) (by simp [here])
  next => cases raised

theorem acts_act (acted : sweep.act job alreadyCompleted outcome = some (position, call)) :
    Acts job alreadyCompleted sweep position call := by
  cases outcome with
  | returns answer => exact acts_afterReturn acted
  | raises error =>
    obtain ⟨position, raised, same⟩ := Option.map_eq_some_iff.mp acted
    cases same
    exact acts_afterRaise raised

def line (sweep : Sweep) : List Int :=
  match sweep.position with
  | .entering | .waiting => sweep.dates
  | .looping rest => rest
  | .inCell date rest _ => date :: rest
  | _ => []

def ahead (sweep : Sweep) : List Int :=
  match sweep.position with
  | .inCell _ rest _ => rest
  | _ => line sweep

theorem line_acts (acts : Acts job alreadyCompleted sweep position call) :
    (line { sweep with position }).Sublist (line sweep) ∧
      ahead { sweep with position } ⊆ ahead sweep := by
  cases acts with
  | enters here | acquires here | skips here | starts here | advances here
  | completes _ _ _ here | fails _ here => simp [line, ahead, here]
  | _ => simp [line, ahead]

theorem Acts.unfinished (acts : Acts job alreadyCompleted sweep position call) :
    sweep.position ≠ .finished := by
  cases acts with
  | raises unfinished => exact unfinished
  | _ => simp [*]

theorem Acts.symbol_eq {c : Call} (acts : Acts job alreadyCompleted sweep position (some c)) :
    (keyOf c).1 = sweep.symbol := by
  cases acts <;> rfl

theorem mem_completedKeys {key : Key} :
    key ∈ job.completedKeys ↔ statusOf job key = some .completed := by
  simp only [Job.completedKeys, statusOf, mem_map, mem_filter, decide_eq_true_eq,
    Option.map_eq_some_iff]
  constructor
  · rintro ⟨⟨key, c⟩, ⟨member, completed⟩, rfl⟩
    exact ⟨c, job.cells.mem_entries_iff.mp member, completed⟩
  · rintro ⟨c, found, completed⟩
    exact ⟨(key, c), ⟨job.cells.mem_entries_iff.mpr found, completed⟩, rfl⟩

theorem mem_sweeps_iff :
    sweep ∈ job.sweeps ↔ sweep.symbol ∈ (job.cells.entries.map Prod.fst).map Prod.fst ∧
      sweep.position = .entering ∧ sweep.dates = ((job.cells.entries.map Prod.fst).filterMap
        fun key => if key.1 = sweep.symbol then some key.2 else none).insertionSort (· ≤ ·) := by
  rw [Job.sweeps, mem_map]
  constructor
  · rintro ⟨⟨symbol, dates⟩, member, rfl⟩
    obtain ⟨present, rfl⟩ := Dict.mem_group_iff.mp member
    exact ⟨present, rfl, rfl⟩
  · rintro ⟨present, entering, dates⟩
    refine ⟨(sweep.symbol, _), Dict.mem_group_iff.mpr ⟨present, rfl⟩, ?_⟩
    simp only [← dates, ← entering]

theorem symbols_nodup (job : Job) : (job.sweeps.map Sweep.symbol).Nodup := by
  rw [Job.sweeps, map_map]
  exact (Dict.group (job.cells.entries.map Prod.fst)).nodup

theorem dates_nodup (mem : sweep ∈ job.sweeps) : sweep.dates.Nodup := by
  obtain ⟨-, -, dates⟩ := mem_sweeps_iff.mp mem
  rw [dates, (perm_insertionSort _ _).nodup_iff]
  refine job.cells.nodup.filterMap ?_
  intro key key' date first second
  simp only [Option.mem_def, Option.ite_none_right_eq_some, Option.some.injEq] at first second
  exact Prod.ext (first.1.trans second.1.symm) (first.2.trans second.2.symm)

theorem exists_sweep {key : Key} (mem : key ∈ job.cells.entries.map Prod.fst) :
    ∃ sweep ∈ job.sweeps, sweep.symbol = key.1 ∧ key.2 ∈ sweep.dates := by
  have member := Dict.mem_group_iff.mpr ⟨mem_map_of_mem mem, rfl⟩
  refine ⟨_, mem_map_of_mem member, rfl, ?_⟩
  rw [(perm_insertionSort _ _).mem_iff]
  exact mem_filterMap.mpr ⟨key, mem, if_pos rfl⟩

variable {maxConcurrent : Nat} {s s' : Backtest} {e : Event}

inductive Steps (s : Backtest) : Event → Backtest → Prop where
  | begins {i : Nat} {task : Task} (own : s.tasks[i]? = some task) (fresh : task.main = .created) :
      Steps s (.begins i) { s with
        job := s.job.markBacktestRunning
        tasks := s.tasks.set i ⟨.gathering, s.job.completedKeys, s.job.sweeps⟩ }
  | sweeps {i j : Nat} {outcome : Outcome} {task : Task} {sweep : Sweep} {position : Position}
      {call : Option Call} (own : s.tasks[i]? = some task) (part : task.sweeps[j]? = some sweep)
      (acted : sweep.act s.job task.alreadyCompleted outcome = some (position, call)) :
      Steps s (.sweeps i j outcome) (s.moved i j task sweep position call)
  | gatherRaises {i : Nat} {task : Task} (own : s.tasks[i]? = some task)
      (gathering : task.main = .gathering)
      (raised : ∃ sweep ∈ task.sweeps, sweep.position = .raised) :
      Steps s (.gatherRaises i) { s with tasks := s.tasks.set i { task with main := .crashed } }
  | concludes {i : Nat} {task : Task} (own : s.tasks[i]? = some task)
      (gathering : task.main = .gathering)
      (finished : ∀ sweep ∈ task.sweeps, sweep.position = .finished) :
      Steps s (.concludes i) { s with
        job := s.job.conclude
        tasks := s.tasks.set i { task with main := .ended }
        closed := s.closed || s.job.conclude.status ≠ .failed }
  | resume (open' : s.job.status = .failed ∨ s.job.status = .cancelled) :
      Steps s .resume
        { s with job := s.job.clearCancelFlag, tasks := s.tasks ++ [{}], closed := false }
  | cancel (live : s.job.status = .queued ∨ s.job.status = .running) :
      Steps s .cancel { s with job := { s.job with cancelRequested := true } }
  | restart : Steps s .restart
      { s with job := s.job.recoverInterruptedBacktests, tasks := [] }

def callOf (s : Backtest) : Event → Option Call
  | .sweeps i j outcome => s.tasks[i]?.bind fun task => task.sweeps[j]?.bind fun sweep =>
    (sweep.act s.job task.alreadyCompleted outcome).bind Prod.snd
  | _ => none

theorem steps_of_step (stepped : s.step maxConcurrent e = some s') : Steps s e s' := by
  cases e with
  | begins i =>
    obtain ⟨task, own, began⟩ := Option.bind_eq_some_iff.mp stepped
    unfold Backtest.begins at began
    split_ifs at began with fresh
    cases began
    exact .begins own fresh
  | sweeps i j outcome =>
    obtain ⟨task, own, rest⟩ := Option.bind_eq_some_iff.mp stepped
    obtain ⟨sweep, part, moved⟩ := Option.bind_eq_some_iff.mp rest
    unfold Backtest.sweepActs at moved
    split_ifs at moved
    obtain ⟨⟨position, call⟩, acted, rfl⟩ := Option.map_eq_some_iff.mp moved
    exact .sweeps own part acted
  | gatherRaises i =>
    obtain ⟨task, own, rest⟩ := Option.bind_eq_some_iff.mp stepped
    unfold Backtest.gatherRaises at rest
    split_ifs at rest with both
    cases rest
    exact .gatherRaises own both.1 both.2
  | concludes i =>
    obtain ⟨task, own, rest⟩ := Option.bind_eq_some_iff.mp stepped
    unfold Backtest.concludes at rest
    split_ifs at rest with both
    cases rest
    exact .concludes own both.1 both.2
  | resume =>
    simp only [Backtest.step, Backtest.resume] at stepped
    split_ifs at stepped with accepted
    cases stepped
    exact .resume accepted
  | cancel =>
    simp only [Backtest.step, Job.requestCancel] at stepped
    split_ifs at stepped with live
    · cases stepped
      exact .cancel live
    · cases stepped
  | restart =>
    cases stepped
    exact .restart

theorem oneDate_nodup : ([20000] : List Int).Nodup := nodup_singleton _

def oneCell : Job :=
  createBacktest ⟨["INFY"], [20000], List.nodup_singleton _, oneDate_nodup⟩ (some .us) 5

def proceeds (i n : Nat) : List Event := List.replicate n (.sweeps i 0 (.returns {}))

def upToResearch (i : Nat) : List Event := .begins i :: proceeds i 7

def failedRun (i : Nat) : List Event :=
  upToResearch i ++ .sweeps i 0 (.raises "rate limit") :: proceeds i 6 ++ [.concludes i]

end AlgoSystem.Proof.AiBacktest
