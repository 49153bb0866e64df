import AlgoSystem.General.Threads

/-!
`trading/agent/trading_agent.py` on POSIX for one algo: START_ALGO, STOP_ALGO, RESTART_ALGO and
STATUS are threads over the PID file, the start lock and the processes of the host. Every read,
write, liveness check, launch and signal is an action.
-/

namespace AlgoSystem.Agent
open General

inductive Life where
  | running
  | killed
  | zombie
  | gone
  deriving DecidableEq

def Life.alive : Life → Bool
  | .running | .killed => true
  | .zombie | .gone => false

inductive Phase where
  | starting
  | registered
  | leaving
  deriving DecidableEq

inductive Role where
  | algo (phase : Phase)
  | other
  deriving DecidableEq

structure Process where
  role : Role
  pid : Nat
  parent : Option Nat := none
  life : Life := .running
  deriving DecidableEq

def Process.isAlgo (p : Process) : Bool := p.role ≠ .other

def Process.aliveAlgo (p : Process) : Bool := p.isAlgo && p.life.alive

structure Host where
  procs : List Process := []
  pidFile : Option Nat := none
  lock : Option Nat := none

def Host.present (h : Host) (pid : Nat) : Bool :=
  h.procs.any fun p => p.pid = pid && p.life ≠ .gone

def isProcessRunning (h : Host) (pid : Nat) : Bool := 0 < pid && h.present pid

def Host.update (h : Host) (i : Nat) (f : Process → Process) : Host :=
  { h with procs := h.procs.modify i f }

inductive Command where
  | startAlgo
  | stopAlgo
  | restartAlgo
  | status
  deriving DecidableEq

inductive Answer where
  | alreadyRunning
  | running
  | error
  | stopped
  | reported
  deriving DecidableEq

inductive Pc where
  | entry
  -- `_start_algo_locked`
  | startRead
  | startCheck (existingPid : Option Nat)
  | launch
  | waitRead (proc : Nat)
  | waitCheck (proc : Nat) (childPid : Option Nat)
  | waitPoll (proc : Nat)
  -- `stop_algo`
  | stopRead
  | stopCheck (pid : Option Nat)
  | grace (pid : Nat)
  | recheck (pid : Nat)
  | kill (pid : Nat)
  | killWait (pid : Nat)
  | remove
  -- `status`
  | statusRead
  | statusCheck (pid : Option Nat)
  | statusRemove
  | done (answer : Answer)
  deriving DecidableEq

structure Call where
  command : Command
  pc : Pc := .entry
  since : Nat
  deriving DecidableEq

def Call.goto (call : Call) (pc : Pc) : Call := { call with pc }

/-- What an action leaves open: whether the deadline of a loop has passed, the PID of a launched
process, whether a signal was delivered. -/
inductive Choice where
  | tick (late : Bool)
  | launched (pid : Nat)
  | signalled (delivered : Bool)

def Host.free (h : Host) (pid : Nat) : Bool := 0 < pid && !h.present pid

def Host.spawn (h : Host) (p : Process) : Host := { h with procs := h.procs ++ [p] }

def Host.signal (h : Host) (pid : Nat) : Host :=
  { h with procs := h.procs.map fun p =>
      if p.pid = pid && p.life = .running then { p with life := .killed } else p }

/-- `proc.poll()` collects the exit status of a child that is a zombie. -/
def Process.reaped (p : Process) : Process :=
  if p.life = .zombie then { p with life := .gone } else p

def unlocked (h : Host) : Host := { h with lock := none }

def act (id : Nat) (h : Host) (call : Call) : Choice → Option (Host × Call)
  | .tick late =>
    match call.pc with
    | .entry =>
      match call.command with
      | .startAlgo =>
        if h.lock = none then some ({ h with lock := some id }, call.goto .startRead)
        else none
      | .restartAlgo =>
        if h.lock = none then some ({ h with lock := some id }, call.goto .stopRead)
        else none
      | .stopAlgo => some (h, call.goto .stopRead)
      | .status => some (h, call.goto .statusRead)
    | .startRead => some (h, call.goto (.startCheck h.pidFile))
    | .startCheck existingPid =>
      if existingPid.any (isProcessRunning h) then
        some (unlocked h, call.goto (.done .alreadyRunning))
      else some (h, call.goto .launch)
    | .waitRead proc =>
      if late then some (unlocked h, call.goto (.done .error))
      else some (h, call.goto (.waitCheck proc h.pidFile))
    | .waitCheck proc childPid =>
      if childPid.any (isProcessRunning h) then
        some (unlocked h, call.goto (.done .running))
      else some (h, call.goto (.waitPoll proc))
    | .waitPoll proc =>
      if h.procs[proc]?.any fun p => p.life.alive then
        some (h, call.goto (.waitRead proc))
      else some (unlocked (h.update proc Process.reaped), call.goto (.done .error))
    | .stopRead => some (h, call.goto (.stopCheck h.pidFile))
    | .stopCheck none => some (h, call.goto .remove)
    | .stopCheck (some pid) =>
      if isProcessRunning h pid then some (h, call.goto (.grace pid))
      else some (h, call.goto .remove)
    | .grace pid =>
      if isProcessRunning h pid && !late then some (h, call)
      else some (h, call.goto (.recheck pid))
    | .recheck pid =>
      if isProcessRunning h pid then some (h, call.goto (.kill pid))
      else some (h, call.goto .remove)
    | .killWait pid =>
      if isProcessRunning h pid && !late then some (h, call)
      else some (h, call.goto .remove)
    | .remove =>
      let h := { h with pidFile := none }
      if call.command = .restartAlgo then some (h, call.goto .startRead)
      else some (h, call.goto (.done .stopped))
    | .statusRead => some (h, call.goto (.statusCheck h.pidFile))
    | .statusCheck pid =>
      if pid.any fun n => !isProcessRunning h n then some (h, call.goto .statusRemove)
      else some (h, call.goto (.done .reported))
    | .statusRemove => some ({ h with pidFile := none }, call.goto (.done .reported))
    | .launch | .kill _ | .done _ => none
  | .launched pid =>
    match call.pc with
    | .launch =>
      if h.free pid then
        some (h.spawn { role := .algo .starting, pid, parent := some id },
          call.goto (.waitRead h.procs.length))
      else none
    | _ => none
  | .signalled delivered =>
    match call.pc with
    | .kill pid =>
      some (if delivered then h.signal pid else h, call.goto (.killWait pid))
    | _ => none

inductive EnvEvent where
  | spawnOther (pid : Nat)
  | writePidFile (i : Nat)
  | removePidFile (i : Nat)
  | exit (i : Nat)
  | reap (i : Nat)

def Process.setPhase (phase : Phase) (p : Process) : Process := { p with role := .algo phase }

def Process.exited (p : Process) : Process := { p with life := .zombie }

def env (h : Host) : EnvEvent → Option Host
  | .spawnOther pid => if h.free pid then some (h.spawn { role := .other, pid }) else none
  | .writePidFile i => h.procs[i]?.bind fun p =>
    if p.role = .algo .starting ∧ p.life = .running then
      some { h.update i (Process.setPhase .registered) with pidFile := some p.pid }
    else none
  | .removePidFile i => h.procs[i]?.bind fun p =>
    if p.role = .algo .registered ∧ p.life = .running then
      some { h.update i (Process.setPhase .leaving) with pidFile := none }
    else none
  | .exit i => h.procs[i]?.bind fun p =>
    if p.life.alive then some (h.update i Process.exited) else none
  | .reap i => some (h.update i Process.reaped)

def reboot (h : Host) : Host :=
  { h with procs := h.procs.map fun p => { p with life := .gone }, lock := none }

def agent : ThreadSystem Host Call Command Choice EnvEvent where
  enter h command := { command, since := h.procs.length }
  act := act
  env := env
  reset := reboot

abbrev State := ThreadSystem.State Host Call
abbrev Event := ThreadSystem.Event Command Choice EnvEvent

end AlgoSystem.Agent
