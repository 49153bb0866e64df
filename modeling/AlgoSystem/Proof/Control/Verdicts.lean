import AlgoSystem.Control.Commands

namespace AlgoSystem.Proof.Control
open AlgoSystem.Control

variable {status : Status}

def printedStatus : (command : AgentCommand) → Outcome command → Option Status
  | .startAlgo, .ok start => some start.status
  | .stopAlgo, _ => some .stopped
  | .restartAlgo, .ok (_, start) => some start.status
  | .update, _ => none
  | .startAlgo, .error _ => none
  | .restartAlgo, .error _ => none

/-- The agent did what the command asks: the algo runs after START and RESTART, is down after STOP,
and its code is pulled and present after UPDATE. -/
def CarriedOut : (command : AgentCommand) → Outcome command → Prop
  | .startAlgo, .ok start => start.status = .running
  | .stopAlgo, _ => True
  | .restartAlgo, .ok (_, start) => start.status = .running
  | .update, .ok (.pulled _ _ _) => True
  | _, _ => False

section

variable {command : AgentCommand}

def finalStatus (f : Finished command) : Option Status :=
  match f.output with
  | .ok outcome => printedStatus command outcome
  | .error _ => some .unknown

structure Settled (f : Finished command) (row : CommandRow) : Prop where
  terminal : row.status.isPending = false
  truthful : row.response.success = true →
    f.ssmStatus = .success ∧ ∃ outcome, f.output = .ok outcome ∧ CarriedOut command outcome

/-- The agent printed a status, and SSM reports success unless that status is ERROR. Output that
is not the agent's JSON needs no condition. -/
def Conclusive (f : Finished command) : Prop :=
  ∀ outcome, f.output = .ok outcome →
    printedStatus command outcome = some .error ∨
      ((printedStatus command outcome).isSome ∧ f.ssmStatus = .success)

theorem get?_status_start (algo : String) (start : StartOutcome) :
    Object.get? (start.print algo) .status = some (.status start.status) := by
  cases start <;> rfl

theorem get?_status_update (algo : String) (update : UpdateOutcome) :
    Object.get? (update.print algo) .status = none := by
  cases update with
  | refusedRunning | gitFailed stderr | pulledWithoutMain previous new notFound => rfl
  | pulled previous new warning => cases warning <;> rfl

theorem get?_status_print (algo : String) (outcome : Outcome command) :
    Object.get? (outcome.print algo command) .status =
      (printedStatus command outcome).map .status := by
  match command, outcome with
  | .startAlgo, .ok start => exact get?_status_start algo start
  | .startAlgo, .error notFound => rfl
  | .stopAlgo, .wasNotRunning => rfl
  | .stopAlgo, .stopped forced => rfl
  | .restartAlgo, .ok (stop, start) => rfl
  | .restartAlgo, .error notFound => rfl
  | .update, .ok update => exact get?_status_update algo update
  | .update, .error notFound => rfl

theorem status?_answer (algo jobId : String) (f : Finished command) :
    (actionGetCommandStatus jobId (.ok (f.invocation algo))).status? = finalStatus f := by
  have terminal : (f.invocation algo).status.terminal = true := f.terminal
  rw [actionGetCommandStatus, if_pos terminal]
  cases printed : f.output with
  | error text =>
    simp only [Finished.invocation, printed, finalStatus]
    rfl
  | ok outcome =>
    have agent := get?_status_print algo outcome
    simp only [Object.get?] at agent
    simp only [Finished.invocation, printed, finalStatus, Object.status?, Object.get?,
      List.lookup_append, agent]
    cases printedStatus command outcome <;> rfl

theorem printedStatus_cases {outcome : Outcome command}
    (printed : printedStatus command outcome = some status) :
    status = .running ∨ status = .stopped ∨ status = .error := by
  match command, outcome with
  | .startAlgo, .ok start => cases printed; cases start <;> simp [StartOutcome.status]
  | .stopAlgo, _ => cases printed; simp
  | .restartAlgo, .ok (stop, start) => cases printed; cases start <;> simp [StartOutcome.status]

theorem finalStatus_cases {f : Finished command} (final : finalStatus f = some status) :
    status = .running ∨ status = .stopped ∨ status = .error ∨ status = .unknown := by
  unfold finalStatus at final
  split at final
  case h_1 outcome _ =>
    have := printedStatus_cases final
    tauto
  case h_2 =>
    cases final
    simp

theorem getCommand_finished {row : CommandRow} (polled : row.polled = true) (algo jobId : String)
    (algoStatus : Status) (f : Finished command) :
    getCommand row algoStatus (some (actionGetCommandStatus jobId (.ok (f.invocation algo)))) =
      (row.settle (actionGetCommandStatus jobId (.ok (f.invocation algo))),
        (finalStatus f).getD algoStatus) := by
  have ended : finalStatus f ≠ some .inProgress := by
    intro running
    simpa using finalStatus_cases running
  simp [getCommand, polled, status?_answer, ended]

theorem settle_status (row : CommandRow) (algo jobId : String) (f : Finished command) :
    (row.settle (actionGetCommandStatus jobId (.ok (f.invocation algo)))).status =
      (finalStatus f).getD row.status := by
  simp [CommandRow.settle, status?_answer]

theorem carriedOut_of_printedStatus {outcome : Outcome command}
    (printed : printedStatus command outcome = some status) (fine : status ≠ .error) :
    CarriedOut command outcome := by
  match command, outcome with
  | .startAlgo, .ok start =>
    cases printed
    cases start <;> simp_all [CarriedOut, StartOutcome.status]
  | .stopAlgo, _ => trivial
  | .restartAlgo, .ok (stop, start) =>
    cases printed
    cases start <;> simp_all [CarriedOut, StartOutcome.status]

variable {row : CommandRow} {f : Finished command} {after : CommandRow}

theorem settled_of_conclusive (status : after.status = (finalStatus f).getD row.status)
    (conclusive : Conclusive f) : Settled f after := by
  cases printed : f.output with
  | error text =>
    have unknown : after.status = .unknown := by simp [status, finalStatus, printed]
    refine ⟨by simp [unknown, Status.isPending], ?_⟩
    simp [CommandRow.response, unknown, Status.isFailure]
  | ok outcome =>
    obtain failed | ⟨known, success⟩ := conclusive outcome printed
    · have error : after.status = .error := by simp [status, finalStatus, printed, failed]
      refine ⟨by simp [error, Status.isPending], ?_⟩
      simp [CommandRow.response, error, Status.isFailure]
    · obtain ⟨final, shown⟩ := Option.isSome_iff_exists.mp known
      have taken : after.status = final := by simp [status, finalStatus, printed, shown]
      constructor
      · rcases printedStatus_cases shown with rfl | rfl | rfl <;>
          simp [taken, Status.isPending]
      · intro succeeded
        refine ⟨success, outcome, printed, carriedOut_of_printedStatus shown ?_⟩
        rintro rfl
        simp [CommandRow.response, taken, Status.isFailure] at succeeded

theorem conclusive_of_settled (pending : row.status.isPending = true)
    (status : after.status = (finalStatus f).getD row.status) (settled : Settled f after) :
    Conclusive f := by
  intro outcome printed
  have final : finalStatus f = printedStatus command outcome := by simp [finalStatus, printed]
  cases shown : printedStatus command outcome with
  | none =>
    -- the row keeps the status it had, which is pending
    have kept : after.status = row.status := by simp [status, final, shown]
    have terminal := settled.terminal
    rw [kept, pending] at terminal
    cases terminal
  | some s =>
    have taken : after.status = s := by simp [status, final, shown]
    by_cases error : s = .error
    · exact .inl (by rw [error])
    · refine .inr ⟨rfl, (settled.truthful ?_).1⟩
      rcases printedStatus_cases shown with rfl | rfl | rfl <;>
        simp_all [CommandRow.response, Status.isFailure]

end

theorem settled_iff_conclusive (algo : String) (row : CommandRow) (polled : row.polled = true)
    (algoStatus : Status) (f : Finished row.command) :
    Settled f (getCommand row algoStatus
      (some (actionGetCommandStatus (row.jobId.getD "") (.ok (f.invocation algo))))).1 ↔
      Conclusive f := by
  have pending : row.status.isPending = true := by
    simp only [CommandRow.polled, Bool.and_eq_true] at polled
    exact polled.1
  rw [getCommand_finished polled]
  have status := settle_status row algo (row.jobId.getD "") f
  exact ⟨conclusive_of_settled pending status, settled_of_conclusive status⟩

def acceptedRow (command : AgentCommand) (jobId : String) : CommandRow :=
  (runAlgoAction command (.ok (actionAlgoCommand "i-0a1b" "doubleStraddle" command (.ok jobId)))).1

def startedRun : Finished .startAlgo where
  ssmStatus := .success
  terminal := rfl
  output := .ok (.ok (.started 4242 "2026-03-02T03:40:00+00:00"))

theorem settled_startedRun :
    (acceptedRow .startAlgo "job-1").polled = true ∧ Conclusive startedRun ∧
      Settled startedRun (getCommand (acceptedRow .startAlgo "job-1") .stopped
        (some (actionGetCommandStatus "job-1"
          (.ok (startedRun.invocation "doubleStraddle"))))).1 := by
  have conclusive : Conclusive startedRun := by
    intro outcome printed
    cases printed
    exact .inr ⟨rfl, rfl⟩
  exact ⟨rfl, conclusive,
    (settled_iff_conclusive "doubleStraddle" (acceptedRow .startAlgo "job-1") rfl .stopped
      startedRun).mpr conclusive⟩

def updatedRun : Finished .update where
  ssmStatus := .success
  terminal := rfl
  output := .ok (.ok (.pulled "3f2a9c1" "8d07e55" none))

theorem updatedRun_not_settled :
    ¬ Settled updatedRun (getCommand (acceptedRow .update "job-2") .stopped
      (some (actionGetCommandStatus "job-2" (.ok (updatedRun.invocation "doubleStraddle"))))).1 := by
  intro settled
  exact absurd settled.terminal (by decide)

end AlgoSystem.Proof.Control
