import AlgoSystem.Control.Results
import AlgoSystem.General.Interaction
import AlgoSystem.General.Dict
import Mathlib.Data.String.Basic

/-!
`stop_ec2`, `restart_ec2`, `stop_all_ec2` and `start_all_ec2` of `orchestrator.py`. A call of an AWS
client or of the clock is answered with a value or with an error that it raises. The lines of a
standard output are stripped, so that a blank line is the empty text.
-/

namespace AlgoSystem.Lambda
open General Control

inductive Json where
  | null
  | bool (b : Bool)
  | num (n : Int)
  | str (s : String)
  | arr (elems : List Json)
  | obj (fields : List (String × Json))

inductive InstanceState where
  | pending
  | running
  | shuttingDown
  | terminated
  | stopping
  | stopped
  deriving DecidableEq

def InstanceState.name : InstanceState → String
  | .pending => "pending"
  | .running => "running"
  | .shuttingDown => "shutting-down"
  | .terminated => "terminated"
  | .stopping => "stopping"
  | .stopped => "stopped"

def InstanceState.upper : InstanceState → String
  | .pending => "PENDING"
  | .running => "RUNNING"
  | .shuttingDown => "SHUTTING-DOWN"
  | .terminated => "TERMINATED"
  | .stopping => "STOPPING"
  | .stopped => "STOPPED"

inductive AwsError where
  | clientError (code text : String)
  | botoCoreError (text : String)

structure Invocation where
  status : SsmStatus
  lines : List String

inductive Call where
  | describeInstances (instanceId : String)
  | startInstances (instanceId : String)
  | stopInstances (instanceId : String)
  | rebootInstances (instanceId : String)
  | sendCommand (instanceId document command : String)
  | getCommandInvocation (commandId instanceId : String)
  | beforeDeadline

def Answer : Call → Type
  | .describeInstances _ => Option InstanceState
  | .startInstances _ | .stopInstances _ | .rebootInstances _ => Unit
  | .sendCommand _ _ _ => String
  | .getCommandInvocation _ _ => Invocation
  | .beforeDeadline => Bool

def Reply : Call → Type
  | .beforeDeadline => Bool
  | c => Except AwsError (Answer c)

inductive Exc where
  | aws (e : AwsError)
  | lookup

abbrev Aws := Prog Call Reply Exc
abbrev Trace := Prog.Trace Call Reply

def Exc.isAws : Exc → Bool
  | .aws _ => true
  | .lookup => false

def Exc.isDescribe : Exc → Bool
  | .aws (.clientError _ _) => true
  | .aws (.botoCoreError _) => false
  | .lookup => true

def Exc.text : Exc → String
  | .aws (.clientError _ text) => text
  | .aws (.botoCoreError text) => text
  | .lookup => "list index out of range"

def orRaise {α : Type} : Except AwsError α → Aws α
  | .ok a => .ret a
  | .error e => .raise (.aws e)

structure Result where
  success : Bool
  error : Option String := none
  serverId : String
  status : Option String := none
  safeStop : Option String := none
  running : Option (List String) := none
  serverName : Option String := none

def error (message serverId : String) : Result :=
  { success := false, error := some message, serverId }

def instanceState (instanceId : String) : Aws InstanceState := do
  match ← Prog.call (.describeInstances instanceId) orRaise with
  | some state => pure state
  | none => Prog.raise .lookup

def sendSsmCommand (instanceId command osName : String) : Aws String :=
  let document := if osName = "windows" then "AWS-RunPowerShellScript" else "AWS-RunShellScript"
  Prog.call (.sendCommand instanceId document command) orRaise

/-- `_get_command_result`: an invocation that is not registered yet is pending. -/
def getCommandResult (commandId instanceId : String) : Aws Invocation :=
  Prog.call (.getCommandInvocation commandId instanceId) fun
    | .ok result => .ret result
    | .error (.clientError "InvocationDoesNotExist" _) => .ret { status := .pending, lines := [] }
    | .error e => .raise (.aws e)

def processCheck (osName : String) : String :=
  if osName = "windows" then
    "Get-CimInstance Win32_Process | Where-Object \x7b $_.CommandLine -match " ++
      "\"trading_agent\\.py|algos\\\\[^\\\\]+\\\\main\\.py\" \x7d | " ++
      "ForEach-Object \x7b $_.CommandLine \x7d"
  else
    "pgrep -af 'trading/agent/trading_agent\\.py|trading/algos/[^/]+/main\\.py' || true"

/-- The loop that waits for the check. It sleeps 2 s between two polls and its deadline is 20 s
away, so it polls at most `fuel = 10` times, and less often when the calls are slow. -/
def awaitCheck (commandId instanceId : String) : Nat → Aws (Option (List String))
  | 0 => pure none
  | fuel + 1 => Prog.call .beforeDeadline fun (early : Bool) =>
    if early then do
      let res ← getCommandResult commandId instanceId
      match res.status with
      | .success => pure (some (res.lines.filter (· ≠ "")))
      | .failed | .cancelled | .timedOut => pure none
      | .pending | .inProgress | .delayed | .cancelling => awaitCheck commandId instanceId fuel
    else pure none

def runningTradingProcesses (instanceId osName : String) : Aws (Option (List String)) := do
  match ← (sendSsmCommand instanceId (processCheck osName) osName).attempt Exc.isAws with
  | .error _ => pure none
  | .ok commandId => awaitCheck commandId instanceId 10

def forced : Option Json → Bool
  | some (.bool true) => true
  | _ => false

def safeStopBlocked (instanceId osName : String) (force : Option Json) : Aws (Option Result) :=
  if forced force then pure none
  else do
    match ← runningTradingProcesses instanceId osName with
    | none =>
      pure (some { error ("safe-stop check could not be completed (SSM unreachable / agent " ++
          "offline); not stopping the instance. Run the safe-shutdown first, or pass force:true.")
          instanceId with safeStop := some "unverified" })
    | some [] => pure none
    | some procs =>
      pure (some { error (toString procs.length ++ " trading process(es) still alive on " ++
          instanceId ++ "; safe-shutdown protocol not confirmed complete. Stop the algos " ++
          "(stop_all_algos / stop_algo) first, or pass force:true to override.") instanceId with
        safeStop := some "blocked", running := some procs })

def powerCall (call : Aws Unit) (name status instanceId : String) : Aws Result := do
  match ← call.attempt Exc.isAws with
  | .error exc => pure (error (name ++ " failed: " ++ exc.text) instanceId)
  | .ok _ => pure { success := true, serverId := instanceId, status := some status }

def startInstances (instanceId status : String) : Aws Result :=
  powerCall (.call (.startInstances instanceId) orRaise) "start_instances" status instanceId

def stopInstances (instanceId : String) : Aws Result :=
  powerCall (.call (.stopInstances instanceId) orRaise) "stop_instances" "STOPPING" instanceId

def rebootInstances (instanceId : String) : Aws Result :=
  powerCall (.call (.rebootInstances instanceId) orRaise) "reboot_instances" "REBOOTING" instanceId

def withState (instanceId : String) (action : InstanceState → Aws Result) : Aws Result := do
  match ← (instanceState instanceId).attempt Exc.isDescribe with
  | .error exc => pure (error ("could not describe instance: " ++ exc.text) instanceId)
  | .ok state => action state

def actionStartEc2 (instanceId : String) : Aws Result :=
  withState instanceId fun state =>
    if state = .running ∨ state = .pending then
      pure { success := true, serverId := instanceId, status := some state.upper }
    else startInstances instanceId "STARTING"

def actionStopEc2 (instanceId : String) (force : Option Json) (osName : String) : Aws Result :=
  withState instanceId fun state =>
    if state = .stopped ∨ state = .stopping then
      pure { success := true, serverId := instanceId, status := some state.upper }
    else if state = .running then do
      match ← safeStopBlocked instanceId osName force with
      | some blocked => pure blocked
      | none => stopInstances instanceId
    else stopInstances instanceId

def actionRestartEc2 (instanceId : String) (force : Option Json) (osName : String) : Aws Result :=
  withState instanceId fun state =>
    if state = .stopped then startInstances instanceId "STARTING"
    else if state = .running then do
      match ← safeStopBlocked instanceId osName force with
      | some blocked => pure blocked
      | none => rebootInstances instanceId
    else
      pure { error ("instance is '" ++ state.name ++ "' -- retry restart_ec2 once it settles")
        instanceId with status := some state.upper }

structure Server where
  serverId : String
  ec2InstanceId : Option String
  os : String := "linux"
  deriving DecidableEq

def serversByName (servers : List Server) : Dict String Server :=
  servers.foldl (fun d s => d.upsert s.serverId s fun _ => s) .empty

def registered (servers : List Server) : List (String × Server) :=
  (serversByName servers).entries.mergeSort fun a b => a.1 ≤ b.1

inductive Response where
  | failed (message : String)
  | one (result : Result)
  | all (success : Bool) (results : List Result) (message : Option String)

def processServer (stop : Bool) (force : Option Json) (name : String) (server : Server) :
    Aws Result :=
  match server.ec2InstanceId with
  | none | some "" => pure (error ("server '" ++ name ++ "' has no ec2_instance_id") name)
  | some instanceId =>
    let action :=
      if stop then actionStopEc2 instanceId force server.os else actionStartEc2 instanceId
    do
      let r ← action
      pure { r with serverName := some name }

def processAll (stop : Bool) (force : Option Json) : List (String × Server) → Aws (List Result)
  | [] => pure []
  | (name, server) :: rest => do
      let r ← processServer stop force name server
      let results ← processAll stop force rest
      pure (r :: results)

/-- `_action_all_ec2`, where `listed` is the answer of the API or the text of an
`AlgoListError`. -/
def actionAllEc2 (configured : Bool) (listed : Except String (List Server)) (stop : Bool)
    (force : Option Json) : Aws Response :=
  if configured then
    match listed with
    | .error exc => pure (.failed exc)
    | .ok [] => pure (.all true [] (some "no servers registered"))
    | .ok servers => do
        let results ← processAll stop force (registered servers)
        pure (.all (results.all Result.success) results none)
  else
    pure (.failed ("API_BASE_URL and CONTROL_API_KEY environment variables are required for " ++
      "*_all_ec2 actions"))

inductive Action where
  | stopEc2
  | restartEc2
  | stopAllEc2
  deriving DecidableEq

structure Event where
  action : Action
  instanceId : Option String := none
  osName : Option String := none
  force : Option Json := none

structure Env where
  instanceId : Option String := none
  serverOs : Option String := none
  configured : Bool

def orText (first second : Option String) : Option String :=
  (first.filter (· ≠ "")).or (second.filter (· ≠ ""))

def lambdaHandler (env : Env) (listed : Except String (List Server)) (event : Event) :
    Aws Response :=
  let osName := (orText event.osName env.serverOs).getD "linux"
  match event.action with
  | .stopAllEc2 => actionAllEc2 env.configured listed true event.force
  | .stopEc2 | .restartEc2 =>
    match orText event.instanceId env.instanceId with
    | none =>
      pure (.failed
        "instance_id is required (pass it explicitly, or set INSTANCE_ID as a fallback)")
    | some instanceId =>
      let action :=
        if event.action = .stopEc2 then actionStopEc2 instanceId event.force osName
        else actionRestartEc2 instanceId event.force osName
      do
        let result ← action
        pure (.one result)

end AlgoSystem.Lambda
