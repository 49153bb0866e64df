import AlgoSystem.Control.Results
import AlgoSystem.General.Runs

/-!
`_run_algo_action` and `get_command` of `trading/api/routes.py` for one algo. A row is read, updated
and committed in one request; `finished` gives the terminal SSM invocation of each command, which no
poll can change.
-/

namespace AlgoSystem.Control
open General

structure CommandRow where
  command : AgentCommand
  jobId : Option String := none
  status : Status := .pending
  result : Option Object := none
  error : Option String := none

structure CommandResponse where
  success : Bool
  jobId : Option String := none
  status : Status
  message : Option String := none

def AgentCommand.pendingStatus : AgentCommand → Status
  | .startAlgo => .starting
  | .stopAlgo => .stopping
  | .restartAlgo => .restarting
  | .update => .updating

def actionAlgoCommand (instanceId algo : String) (command : AgentCommand) :
    Except String String → Object
  | .error exc =>
    [(.success, .bool false), (.error, .text ("send_command failed: " ++ exc)),
      (.serverId, .text instanceId), (.algoId, .text algo)]
  | .ok commandId =>
    [(.success, .bool true), (.jobId, .text commandId), (.serverId, .text instanceId),
      (.algoId, .text algo), (.status, .status command.pendingStatus)]

/-- The row that `_run_algo_action` commits last, and its response. `error` is a
`LambdaInvokeError`. -/
def runAlgoAction (command : AgentCommand) : Except String Object → CommandRow × CommandResponse
  | .error exc =>
    ({ command, status := .failed, error := some exc },
      { success := false, status := .failed, message := some exc })
  | .ok result =>
    ({ command
       jobId := result.text? .jobId
       status := result.status?.getD .failed
       result := some result
       error := if result.success then none else result.text? .error },
      { success := result.success
        jobId := result.text? .jobId
        status := result.status?.getD .unknown
        message := (result.text? .error).or (result.text? .message) })

def Status.isPending (s : Status) : Bool :=
  s ∈ [.pending, .starting, .stopping, .restarting, .updating]

def Status.isFailure (s : Status) : Bool :=
  s ∈ [.failed, .error, .unknown]

def CommandRow.polled (row : CommandRow) : Bool := row.status.isPending && row.jobId.isSome

def CommandRow.settle (row : CommandRow) (result : Object) : CommandRow :=
  { row with
    status := result.status?.getD row.status
    result := some result
    error := if result.success then row.error
      else (result.text? .error).or (result.text? .message) }

/-- `get_command` on a row and the status of its algo. `answer` is what the Lambda returns to
`get_command_status`, or `none` when it cannot be reached and the request ends with a 502. -/
def getCommand (row : CommandRow) (algoStatus : Status) (answer : Option Object) :
    CommandRow × Status :=
  if row.polled then
    match answer with
    | none => (row, algoStatus)
    | some result =>
      if result.status? = some .inProgress then (row, algoStatus)
      else (row.settle result, result.status?.getD algoStatus)
  else (row, algoStatus)

def CommandRow.response (row : CommandRow) : CommandResponse where
  success := !row.status.isFailure
  jobId := row.jobId
  status := row.status
  message := row.error

/-- The end of a command's SSM invocation: the agent's outcome, or a standard output that is not
its JSON. -/
structure Finished (command : AgentCommand) where
  ssmStatus : SsmStatus
  terminal : ssmStatus.terminal = true
  output : Except String (Outcome command)
  stderr : String := ""

def Finished.invocation (algo : String) {command : AgentCommand} (f : Finished command) :
    Invocation where
  status := f.ssmStatus
  stdout := match f.output with
    | .ok outcome => .object (outcome.print algo command)
    | .error text => .unparsable text
  stderr := f.stderr

/-- What a poll meets: no Lambda, an SSM call that raises, an invocation that is still running, or
its end. -/
inductive Reply where
  | unreachable
  | raised (exc : String)
  | unfinished (status : SsmStatus) (running : status.terminal = false)
  | finished
  deriving DecidableEq

inductive Event where
  | issue (command : AgentCommand) (sent : Except String (Except String String))
  | poll (id : Nat) (reply : Reply)

structure Algo where
  name : String
  instanceId : String

structure Center where
  rows : List CommandRow := []
  algoStatus : Status

section

variable (algo : Algo) (ends : Nat → (command : AgentCommand) → Finished command)

def answer (id : Nat) (row : CommandRow) : Reply → Option Object
  | .unreachable => none
  | .raised exc => some (actionGetCommandStatus (row.jobId.getD "") (.error exc))
  | .unfinished status _ => some (actionGetCommandStatus (row.jobId.getD "")
      (.ok { status, stdout := .unparsable "", stderr := "" }))
  | .finished => some (actionGetCommandStatus (row.jobId.getD "")
      (.ok ((ends id row.command).invocation algo.name)))

def Center.step (s : Center) : Event → Option Center
  | .issue command sent =>
    let result := sent.map (actionAlgoCommand algo.instanceId algo.name command)
    some { s with rows := s.rows ++ [(runAlgoAction command result).1] }
  | .poll id reply =>
    s.rows[id]?.map fun row =>
      let polled := getCommand row s.algoStatus (answer algo ends id row reply)
      { rows := s.rows.set id polled.1, algoStatus := polled.2 }

end

end AlgoSystem.Control
