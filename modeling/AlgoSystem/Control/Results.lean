import Mathlib.Data.List.Basic

/-!
The JSON objects that `trading_agent.py` prints for the four algo commands, and what
`_action_get_command_status` of `orchestrator.py` builds from them. An object is a list of entries
in which the first of a key counts: `{**base, **update}` is `update ++ base`.
-/

namespace AlgoSystem.Control

inductive Status where
  | pending
  | starting
  | stopping
  | restarting
  | updating
  | inProgress
  | running
  | stopped
  | error
  | failed
  | unknown
  deriving DecidableEq

inductive SsmStatus where
  | pending
  | inProgress
  | delayed
  | cancelling
  | success
  | failed
  | cancelled
  | timedOut
  deriving DecidableEq

def SsmStatus.terminal : SsmStatus → Bool
  | .success | .failed | .cancelled | .timedOut => true
  | .pending | .inProgress | .delayed | .cancelling => false

inductive Key where
  | success
  | jobId
  | ssmStatus
  | status
  | error
  | message
  | algo
  | pid
  | startedAt
  | logTail
  | graceful
  | forced
  | stop
  | start
  | updated
  | previousVersion
  | newVersion
  | warning
  | stdout
  | stderr
  | serverId
  | algoId
  deriving DecidableEq

inductive Value where
  | null
  | bool (b : Bool)
  | num (n : Nat)
  | text (s : String)
  | status (s : Status)
  | ssmStatus (s : SsmStatus)
  | lines (ls : List String)
  | object (entries : List (Key × Value))

abbrev Object := List (Key × Value)

def Value.ofOption (make : α → Value) : Option α → Value
  | none => .null
  | some a => make a

namespace Object

def get? (o : Object) (k : Key) : Option Value := List.lookup k o

def status? (o : Object) : Option Status :=
  match o.get? .status with
  | some (.status s) => some s
  | _ => none

def success (o : Object) : Bool :=
  match o.get? .success with
  | some (.bool b) => b
  | _ => false

/-- The text under a key; an empty text counts as none, as it does for `or`. -/
def text? (o : Object) (k : Key) : Option String :=
  match o.get? k with
  | some (.text s) => if s = "" then none else some s
  | _ => none

end Object

inductive AgentCommand where
  | startAlgo
  | stopAlgo
  | restartAlgo
  | update

inductive StartOutcome where
  | alreadyRunning (pid : Nat) (startedAt : Option String)
  | exitedImmediately (logTail : List String)
  | started (pid : Nat) (startedAt : String)

def StartOutcome.status : StartOutcome → Status
  | .alreadyRunning _ _ => .running
  | .exitedImmediately _ => .error
  | .started _ _ => .running

def StartOutcome.print (algo : String) : StartOutcome → Object
  | .alreadyRunning pid startedAt =>
    [(.algo, .text algo), (.status, .status .running), (.pid, .num pid),
      (.startedAt, .ofOption .text startedAt),
      (.message, .text "already running — did not start a duplicate process")]
  | .exitedImmediately logTail =>
    [(.algo, .text algo), (.status, .status .error), (.pid, .null),
      (.message, .text "process exited immediately after launch"), (.logTail, .lines logTail)]
  | .started pid startedAt =>
    [(.algo, .text algo), (.status, .status .running), (.pid, .num pid),
      (.startedAt, .text startedAt)]

inductive StopOutcome where
  | wasNotRunning
  | stopped (forced : Bool)

def StopOutcome.print (algo : String) : StopOutcome → Object
  | .wasNotRunning =>
    [(.algo, .text algo), (.status, .status .stopped), (.pid, .null),
      (.message, .text "was not running")]
  | .stopped forced =>
    [(.algo, .text algo), (.status, .status .stopped), (.pid, .null),
      (.graceful, .bool !forced), (.forced, .bool forced),
      (.message, .text (if forced then "force-killed after grace timeout"
        else "stopped gracefully"))]

inductive UpdateOutcome where
  | refusedRunning
  | gitFailed (stderr : String)
  | pulledWithoutMain (previousVersion newVersion : String) (notFound : String)
  | pulled (previousVersion newVersion : String) (warning : Option String)

def UpdateOutcome.print (algo : String) : UpdateOutcome → Object
  | .refusedRunning =>
    [(.algo, .text algo), (.updated, .bool false),
      (.message, .text "refusing to update while RUNNING — stop the algo first")]
  | .gitFailed stderr =>
    [(.algo, .text algo), (.updated, .bool false),
      (.message, .text ("git update failed: " ++ stderr))]
  | .pulledWithoutMain previousVersion newVersion notFound =>
    [(.algo, .text algo), (.updated, .bool false),
      (.previousVersion, .text previousVersion), (.newVersion, .text newVersion),
      (.message, .text ("pulled " ++ String.ofList (newVersion.toList.take 7) ++ " but " ++
        notFound))]
  | .pulled previousVersion newVersion warning =>
    [(.algo, .text algo), (.updated, .bool (previousVersion ≠ newVersion)),
      (.previousVersion, .text previousVersion), (.newVersion, .text newVersion)] ++
      warning.toList.map fun w => (.warning, .text w)

/-- What a command can end with. Every command but STOP can raise `AlgoNotFoundError`. -/
def Outcome : AgentCommand → Type
  | .startAlgo => Except String StartOutcome
  | .stopAlgo => StopOutcome
  | .restartAlgo => Except String (StopOutcome × StartOutcome)
  | .update => Except String UpdateOutcome

def Outcome.print (algo : String) : (command : AgentCommand) → Outcome command → Object
  | .startAlgo, .ok start => start.print algo
  | .stopAlgo, stop => StopOutcome.print algo stop
  | .restartAlgo, .ok (stop, start) =>
    [(.algo, .text algo), (.stop, .object (stop.print algo)),
      (.start, .object (start.print algo)), (.status, .status start.status)]
  | .update, .ok update => update.print algo
  | .startAlgo, .error notFound => [(.error, .text notFound)]
  | .restartAlgo, .error notFound => [(.error, .text notFound)]
  | .update, .error notFound => [(.error, .text notFound)]

inductive Stdout where
  | object (printed : Object)
  | unparsable (text : String)

structure Invocation where
  status : SsmStatus
  stdout : Stdout
  stderr : String

def actionGetCommandStatus (jobId : String) : Except String Invocation → Object
  | .error exc =>
    [(.success, .bool false), (.error, .text ("get_command_invocation failed: " ++ exc)),
      (.jobId, .text jobId)]
  | .ok result =>
    if result.status.terminal then
      match result.stdout with
      | .object agentResult =>
        agentResult ++ [(.success, .bool (result.status = .success)), (.jobId, .text jobId),
          (.ssmStatus, .ssmStatus result.status)]
      | .unparsable stdout =>
        [(.success, .bool false), (.jobId, .text jobId),
          (.ssmStatus, .ssmStatus result.status), (.status, .status .unknown),
          (.stdout, .text stdout), (.stderr, .text result.stderr)]
    else
      [(.success, .bool true), (.jobId, .text jobId), (.ssmStatus, .ssmStatus result.status),
        (.status, .status .inProgress)]

end AlgoSystem.Control
