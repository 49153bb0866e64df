import AlgoSystem.General.Lists
import AlgoSystem.Proof.Control.Verdicts
import Mathlib.Data.List.Induction

namespace AlgoSystem.Proof.Control
open AlgoSystem.Control General List

section

variable (algo : Algo) (ends : Nat → (command : AgentCommand) → Finished command)

def outcome (rows : List CommandRow) (id : Nat) : Option Status :=
  match rows[id]? with
  | some row => if row.jobId.isSome then finalStatus (ends id row.command) else none
  | none => none

def finishedPoll : Event → Option Nat
  | .poll id .finished => some id
  | _ => none

def finishedPolls (events : List Event) : List Nat := events.filterMap finishedPoll

def pollOrder (rows : List CommandRow) (polls : List Nat) : List Nat :=
  (polls.filter fun id => (outcome ends rows id).isSome).eraseDups

def latest (rows : List CommandRow) : Option Nat :=
  ((List.range rows.length).filter fun id => (outcome ends rows id).isSome).getLast?

/-- The last command to be polled for the first time has the outcome of the latest one. -/
def LatestPolledLast (rows : List CommandRow) (events : List Event) : Prop :=
  ∀ id last, latest ends rows = some id →
    (pollOrder ends rows (finishedPolls events)).getLast? = some last →
      outcome ends rows last = outcome ends rows id

end

section

variable {algo : Algo} {ends : Nat → (command : AgentCommand) → Finished command}
  {rows : List CommandRow} {row after : CommandRow} {id : Nat} {polls : List Nat}
  {events : List Event}

theorem outcome_append (more : List CommandRow) (mem : id < rows.length) :
    outcome ends (rows ++ more) id = outcome ends rows id := by
  simp [outcome, getElem?_append_left mem]

theorem outcome_set (found : rows[id]? = some row) (command : after.command = row.command)
    (jobId : after.jobId = row.jobId) : outcome ends (rows.set id after) = outcome ends rows := by
  funext j
  by_cases same : j = id
  · subst same
    have mem : j < rows.length := (List.getElem?_eq_some_iff.mp found).1
    obtain ⟨_, _, _, _, _⟩ := after
    cases command
    cases jobId
    simp only [outcome, getElem?_set_self mem, found]
  · simp [outcome, getElem?_set_ne (Ne.symm same)]

theorem outcome_eq (found : rows[id]? = some row) (sent : row.jobId.isSome = true) :
    outcome ends rows id = finalStatus (ends id row.command) := by
  simp [outcome, found, sent]

theorem pollOrder_append {more : List CommandRow} (mem : ∀ id ∈ polls, id < rows.length) :
    pollOrder ends (rows ++ more) polls = pollOrder ends rows polls := by
  unfold pollOrder
  congr 1
  apply filter_congr
  intro id member
  rw [outcome_append more (mem id member)]

theorem mem_of_getLast?_pollOrder (last : (pollOrder ends rows polls).getLast? = some id) :
    id ∈ polls ∧ (outcome ends rows id).isSome = true := by
  have member := mem_of_getLast? last
  rw [pollOrder, mem_eraseDups, mem_filter] at member
  exact member

theorem eraseDups_snoc (ids : List Nat) (id : Nat) :
    (ids ++ [id]).eraseDups = if id ∈ ids then ids.eraseDups else ids.eraseDups ++ [id] := by
  rw [eraseDups_append]
  split <;> simp_all [List.removeAll, eraseDups_cons]

theorem finishedPolls_snoc (event : Event) :
    finishedPolls (events ++ [event]) = finishedPolls events ++ (finishedPoll event).toList := by
  cases h : finishedPoll event <;> simp [finishedPolls, h]

theorem pollOrder_snoc :
    pollOrder ends rows (polls ++ [id]) =
      if (outcome ends rows id).isSome ∧ id ∉ polls then pollOrder ends rows polls ++ [id]
      else pollOrder ends rows polls := by
  unfold pollOrder
  by_cases carries : (outcome ends rows id).isSome = true
  · simp [carries, eraseDups_snoc, filter_append]
  · simp [carries, filter_append]

theorem getCommand_row (row : CommandRow) (status : Status) (result : Option Object) :
    (getCommand row status result).1.command = row.command ∧
      (getCommand row status result).1.jobId = row.jobId := by
  unfold getCommand CommandRow.settle
  repeat' split
  all_goals exact ⟨rfl, rfl⟩

theorem getCommand_unfinished (algo : Algo)
    (ends : Nat → (command : AgentCommand) → Finished command) (id : Nat) (row : CommandRow)
    (status : Status) {reply : Reply} (unfinished : reply ≠ .finished) :
    (getCommand row status (answer algo ends id row reply)).1.status = row.status ∧
      (getCommand row status (answer algo ends id row reply)).2 = status := by
  unfold getCommand
  split
  case isFalse => exact ⟨rfl, rfl⟩
  case isTrue =>
    cases reply with
    | unreachable | raised exc => exact ⟨rfl, rfl⟩
    | unfinished ssmStatus running =>
      have waiting : (actionGetCommandStatus (row.jobId.getD "")
          (.ok { status := ssmStatus, stdout := .unparsable "", stderr := "" })).status? =
          some .inProgress := by
        simp only [actionGetCommandStatus, running]
        rfl
      simp [answer, waiting]
    | finished => exact absurd rfl unfinished

end

section

variable (ends : Nat → (command : AgentCommand) → Finished command)

structure Polled (start : Status) (events : List Event) (s : Center) : Prop where
  mem : ∀ id ∈ finishedPolls events, id < s.rows.length
  pending : ∀ id row, s.rows[id]? = some row → row.jobId.isSome = true →
    (row.status.isPending = true ↔
      ¬ ((outcome ends s.rows id).isSome = true ∧ id ∈ finishedPolls events))
  algoStatus : s.algoStatus =
    ((pollOrder ends s.rows (finishedPolls events)).getLast?.bind (outcome ends s.rows)).getD start

variable {ends} {algo : Algo} {start : Status} {events : List Event} {s t : Center}

theorem Polled.initial : Polled ends start [] { algoStatus := start } where
  mem := by simp [finishedPolls]
  pending := by simp
  algoStatus := by simp [pollOrder, finishedPolls]

theorem isPending_of_sent {command : AgentCommand} {sent : Except String (Except String String)}
    (accepted : (runAlgoAction command
      (sent.map (actionAlgoCommand algo.instanceId algo.name command))).1.jobId.isSome = true) :
    (runAlgoAction command
      (sent.map (actionAlgoCommand algo.instanceId algo.name command))).1.status.isPending = true := by
  rcases sent with exc | exc | commandId
  · simp [Except.map, runAlgoAction] at accepted
  · cases accepted
  · cases command <;> rfl

theorem Polled.issue (inv : Polled ends start events s) (command : AgentCommand)
    (sent : Except String (Except String String)) :
    Polled ends start (events ++ [.issue command sent])
      { s with rows := s.rows ++ [(runAlgoAction command
          (sent.map (actionAlgoCommand algo.instanceId algo.name command))).1] } := by
  have polls : finishedPolls (events ++ [.issue command sent]) = finishedPolls events := by
    simp [finishedPolls_snoc, finishedPoll]
  refine ⟨?_, ?_, ?_⟩
  · intro id member
    rw [polls] at member
    have := inv.mem id member
    simp only [length_append, length_singleton]
    omega
  · intro id row found accepted
    rw [polls]
    obtain old | ⟨rfl, rfl⟩ := getElem?_concat_eq_some.mp found
    · rw [outcome_append _ (List.getElem?_eq_some_iff.mp old).1]
      exact inv.pending id row old accepted
    · have fresh : s.rows.length ∉ finishedPolls events :=
        fun member => Nat.lt_irrefl _ (inv.mem _ member)
      simp [isPending_of_sent accepted, fresh]
  · rw [polls, pollOrder_append inv.mem]
    refine inv.algoStatus.trans ?_
    congr 1
    apply Option.bind_congr
    intro id last
    exact (outcome_append _ (inv.mem id (mem_of_getLast?_pollOrder last).1)).symm

variable {id : Nat} {row : CommandRow}

theorem Polled.set (inv : Polled ends start events s) {after : CommandRow}
    (found : s.rows[id]? = some row) (command : after.command = row.command)
    (jobId : after.jobId = row.jobId) {later : List Event} {status : Status}
    (polls : ∀ j, j ≠ id → (j ∈ finishedPolls later ↔ j ∈ finishedPolls events))
    (pending : row.jobId.isSome = true → (after.status.isPending = true ↔
      ¬ ((outcome ends s.rows id).isSome = true ∧ id ∈ finishedPolls later)))
    (algoStatus : status = ((pollOrder ends s.rows (finishedPolls later)).getLast?.bind
      (outcome ends s.rows)).getD start) :
    Polled ends start later { rows := s.rows.set id after, algoStatus := status } := by
  have mem : id < s.rows.length := (List.getElem?_eq_some_iff.mp found).1
  refine ⟨?_, ?_, ?_⟩
  · intro j member
    rw [length_set]
    by_cases same : j = id
    · exact same ▸ mem
    · exact inv.mem j ((polls j same).mp member)
  · intro j row' found' accepted
    rw [outcome_set found command jobId]
    by_cases same : j = id
    · subst same
      rw [getElem?_set_self mem] at found'
      cases found'
      exact pending (jobId ▸ accepted)
    · rw [getElem?_set_ne (Ne.symm same)] at found'
      rw [polls j same]
      exact inv.pending j row' found' accepted
  · simpa only [pollOrder, outcome_set found command jobId] using algoStatus

theorem Polled.poll_unfinished (inv : Polled ends start events s) (found : s.rows[id]? = some row)
    {reply : Reply} (unfinished : reply ≠ .finished) :
    Polled ends start (events ++ [.poll id reply])
      { rows := s.rows.set id (getCommand row s.algoStatus (answer algo ends id row reply)).1
        algoStatus := (getCommand row s.algoStatus (answer algo ends id row reply)).2 } := by
  obtain ⟨status, algoStatus⟩ := getCommand_unfinished algo ends id row s.algoStatus unfinished
  have polls : finishedPolls (events ++ [.poll id reply]) = finishedPolls events := by
    cases reply <;> simp_all [finishedPolls_snoc, finishedPoll]
  apply inv.set found (getCommand_row ..).1 (getCommand_row ..).2
  · intro j _
    rw [polls]
  · intro accepted
    rw [status, polls]
    exact inv.pending id row found accepted
  · rw [algoStatus, polls]
    exact inv.algoStatus

theorem finishedPolls_finished (events : List Event) (id : Nat) :
    finishedPolls (events ++ [.poll id .finished]) = finishedPolls events ++ [id] := by
  simp [finishedPolls_snoc, finishedPoll]

section
variable (inv : Polled ends start events s) (found : s.rows[id]? = some row)
include inv found

theorem Polled.poll_pending (polled : row.polled = true) :
    Polled ends start (events ++ [.poll id .finished])
      { rows := s.rows.set id (getCommand row s.algoStatus (answer algo ends id row .finished)).1
        algoStatus := (getCommand row s.algoStatus (answer algo ends id row .finished)).2 } := by
  have polls := finishedPolls_finished events id
  obtain ⟨waiting, sent⟩ : row.status.isPending = true ∧ row.jobId.isSome = true := by
    simpa [CommandRow.polled] using polled
  have fresh := (inv.pending id row found sent).mp waiting
  have carried : outcome ends s.rows id = finalStatus (ends id row.command) :=
    outcome_eq found sent
  have settled := settle_status row algo.name (row.jobId.getD "") (ends id row.command)
  simp only [answer, getCommand_finished polled]
  rw [← carried] at settled ⊢
  refine inv.set found ?_ ?_ ?_ ?_ ?_
  · rfl
  · rfl
  · intro j other
    simp [polls, other]
  · intro _
    rw [settled, polls]
    cases final : outcome ends s.rows id with
    | none => simp [waiting]
    | some status =>
      have ended := finalStatus_cases (carried.symm.trans final)
      rcases ended with rfl | rfl | rfl | rfl <;> simp [Status.isPending]
  · rw [polls, pollOrder_snoc]
    cases final : outcome ends s.rows id with
    | none => simpa using inv.algoStatus
    | some status =>
      have first : id ∉ finishedPolls events := fun member => fresh ⟨by simp [final], member⟩
      simp [first, final]

theorem Polled.poll_settled (polled : ¬ row.polled = true) :
    Polled ends start (events ++ [.poll id .finished])
      { rows := s.rows.set id row, algoStatus := s.algoStatus } := by
  have polls := finishedPolls_finished events id
  have known := inv.pending id row found
  have counted : (outcome ends s.rows id).isSome = true → id ∈ finishedPolls events := by
    intro carries
    have sent : row.jobId.isSome = true := by
      by_contra unsent
      simp [outcome, found, unsent] at carries
    have settled : ¬ row.status.isPending = true := by
      intro waiting
      exact polled (by simp [CommandRow.polled, waiting, sent])
    exact (not_not.mp (mt (known sent).mpr settled)).2
  apply inv.set found rfl rfl
  · intro j other
    simp [polls, other]
  · intro sent
    have last : id ∈ finishedPolls events ++ [id] := by simp
    rw [known sent, polls]
    exact not_congr (and_congr_right fun carries => iff_of_true (counted carries) last)
  · have again : ¬ ((outcome ends s.rows id).isSome = true ∧ id ∉ finishedPolls events) := by
      rintro ⟨carries, fresh⟩
      exact fresh (counted carries)
    rw [polls, pollOrder_snoc, if_neg again]
    exact inv.algoStatus

end

theorem Polled.step (inv : Polled ends start events s) {event : Event}
    (stepped : Center.step algo ends s event = some t) :
    Polled ends start (events ++ [event]) t := by
  cases event with
  | issue command sent =>
    cases stepped
    exact inv.issue command sent
  | poll id reply =>
    obtain ⟨row, found, rfl⟩ := Option.map_eq_some_iff.mp stepped
    by_cases finished : reply = .finished
    · subst finished
      by_cases polled : row.polled = true
      · exact inv.poll_pending found polled
      · have same : getCommand row s.algoStatus (answer algo ends id row .finished) =
            (row, s.algoStatus) := by simp [getCommand, polled]
        rw [same]
        exact inv.poll_settled found polled
    · exact inv.poll_unfinished found finished

theorem polled_of_run (path : run (Center.step algo ends) { algoStatus := start } events = some s) :
    Polled ends start events s := by
  induction events using List.reverseRecOn generalizing s with
  | nil =>
    cases path
    exact Polled.initial
  | append_singleton events event ih =>
    obtain ⟨u, before, stepped⟩ := run_snoc_eq_some.mp path
    exact (ih before).step stepped

theorem mem_of_latest {rows : List CommandRow} (last : latest ends rows = some id) :
    (outcome ends rows id).isSome = true :=
  (mem_filter.mp (mem_of_getLast? last)).2

end

theorem algoStatus_eq_latest_iff (algo : Algo)
    (ends : Nat → (command : AgentCommand) → Finished command) (start : Status)
    (events : List Event) (s : Center)
    (path : run (Center.step algo ends) { algoStatus := start } events = some s)
    (completed : ∀ id, (outcome ends s.rows id).isSome = true → id ∈ finishedPolls events) :
    (∀ id, latest ends s.rows = some id → outcome ends s.rows id = some s.algoStatus) ↔
      LatestPolledLast ends s.rows events := by
  have inv := polled_of_run path
  -- once the latest command is polled, some command was polled last and its outcome is shown
  have shown : ∀ id, latest ends s.rows = some id →
      ∃ last, (pollOrder ends s.rows (finishedPolls events)).getLast? = some last ∧
        outcome ends s.rows last = some s.algoStatus := by
    intro id isLatest
    have carries := mem_of_latest isLatest
    have member : id ∈ pollOrder ends s.rows (finishedPolls events) := by
      simp [pollOrder, completed id carries, carries]
    obtain ⟨last, hlast⟩ := Option.isSome_iff_exists.mp
      (getLast?_isSome.mpr (ne_nil_of_mem member))
    refine ⟨last, hlast, ?_⟩
    obtain ⟨status, hstatus⟩ := Option.isSome_iff_exists.mp (mem_of_getLast?_pollOrder hlast).2
    rw [inv.algoStatus, hlast, hstatus]
    simp [hstatus]
  constructor
  · intro agrees id last isLatest hlast
    obtain ⟨last', hlast', status⟩ := shown id isLatest
    cases hlast.symm.trans hlast'
    rw [status, agrees id isLatest]
  · intro polledLast id isLatest
    obtain ⟨last, hlast, status⟩ := shown id isLatest
    rw [← polledLast id last isLatest hlast, status]

theorem terminal_success : SsmStatus.success.terminal = true := rfl

def obeyed (_ : Nat) : (command : AgentCommand) → Finished command
  | .startAlgo => startedRun
  | .stopAlgo =>
    { ssmStatus := .success, terminal := terminal_success, output := .ok (.stopped false) }
  | .restartAlgo => { ssmStatus := .success, terminal := terminal_success
                      output := .ok (.ok (.stopped false, .started 4243 "2026-03-02T05:00:00")) }
  | .update => updatedRun

def straddle : Algo := ⟨"doubleStraddle", "i-0a1b"⟩

def startThenStop (polls : List Nat) : List Event :=
  [.issue .startAlgo (.ok (.ok "job-1")), .issue .stopAlgo (.ok (.ok "job-2"))] ++
    polls.map fun id => .poll id .finished

theorem algoStatus_polledInOrder :
    ∃ s, run (Center.step straddle obeyed) { algoStatus := .stopped }
        (startThenStop [0, 0, 1, 0]) = some s ∧
      LatestPolledLast obeyed s.rows (startThenStop [0, 0, 1, 0]) ∧
      latest obeyed s.rows = some 1 ∧ outcome obeyed s.rows 1 = some s.algoStatus := by
  refine ⟨_, rfl, ?inOrder, by decide,
    (algoStatus_eq_latest_iff straddle obeyed .stopped (startThenStop [0, 0, 1, 0]) _ rfl
      ?completed).mpr ?inOrder 1 (by decide)⟩
  case inOrder =>
    intro id last isLatest hlast
    cases isLatest
    cases hlast
    rfl
  case completed =>
    intro id carries
    match id with
    | 0 => decide
    | 1 => decide

theorem algoStatus_polledOutOfOrder :
    ∃ s, run (Center.step straddle obeyed) { algoStatus := .stopped }
        (startThenStop [1, 0]) = some s ∧
      latest obeyed s.rows = some 1 ∧ outcome obeyed s.rows 1 = some .stopped ∧
      s.algoStatus = .running :=
  ⟨_, rfl, by decide, by decide, by decide⟩

end AlgoSystem.Proof.Control
