import AlgoSystem.General.Runs

/-!
`events.py`, `bus.py`, `publish._emit` and the writer of `ws.py` in `trading/api/realtime`. A step
is what the event loop does between two suspensions. A connection also has the events published
since it subscribed, and how many came before the first that its queue lost.
-/

namespace AlgoSystem.Realtime

variable {D : Type}

inductive FrameType where
  | strategyStatus
  | heartbeat
  | pnl
  | position
  | trade
  | serverHealth
  | command
  | alert
  | marketQuote
  | marketStatus
  | hello
  | ping
  | pong
  | error
  | subscribed
  deriving DecidableEq

def monitoringTypes : List FrameType :=
  [.strategyStatus, .heartbeat, .pnl, .position, .trade, .serverHealth, .command, .alert,
    .marketQuote, .marketStatus]

structure Event (D : Type) where
  type : FrameType
  seq : Nat
  ts : String
  data : D
  deriving DecidableEq

def makeEvent (seq : Nat) (type : FrameType) (ts : String) (data : D) : Option (Event D × Nat) :=
  if type ∈ monitoringTypes then some (⟨type, seq, ts, data⟩, seq + 1) else none

inductive Frame (D : Type) where
  | hello (seq pingInterval clientTimeout : Nat)
  | ping
  | pong
  | subscribed
  | error (code : String)
  | monitoring (event : Event D)

def queueMaxsize : Nat := 1000

structure Subscription (D : Type) where
  maxsize : Nat := queueMaxsize
  queue : List (Event D) := []
  dropped : Bool := false
  deriving DecidableEq

namespace Subscription
variable (sub : Subscription D)

def full : Bool := 0 < sub.maxsize && sub.maxsize ≤ sub.queue.length

def putNowait (event : Event D) : Option (Subscription D) :=
  if sub.full then none else some { sub with queue := sub.queue ++ [event] }

end Subscription

inductive Writer (D : Type) where
  | greeting (seq : Nat)
  | atLoop
  | getting
  | got (event : Event D)
  | sending
  | pinging
  | closing
  | ended
  deriving DecidableEq

def Writer.isEnded : Writer D → Bool
  | .ended => true
  | _ => false

structure Connection (D : Type) where
  sub : Subscription D
  writer : Writer D
  sent : List (Event D) := []
  published : List (Event D) := []
  lost : Option Nat := none

structure Settings where
  pingInterval : Nat
  clientTimeout : Nat

inductive WriterChoice where
  | proceed
  | timeout
  deriving DecidableEq

namespace Connection
variable (settings : Settings) (c : Connection D)

def publish (event : Event D) : Connection D :=
  match c.sub.putNowait event with
  | some sub => { c with sub, published := c.published ++ [event] }
  | none => { c with
      sub := { c.sub with dropped := true }
      published := c.published ++ [event]
      lost := c.lost.or (some c.published.length) }

def offer (event : Event D) : Connection D := if c.writer.isEnded then c else c.publish event

def act : WriterChoice → Option (Connection D × List (Frame D))
  | .proceed =>
    match c.writer with
    | .greeting seq =>
      some ({ c with writer := .atLoop },
        [.hello seq settings.pingInterval settings.clientTimeout])
    | .atLoop => some ({ c with writer := if c.sub.dropped then .closing else .getting }, [])
    | .getting =>
      match c.sub.queue with
      | [] => none
      | event :: rest =>
        some ({ c with sub := { c.sub with queue := rest }, writer := .got event }, [])
    | .got event =>
      some ({ c with writer := .sending, sent := c.sent ++ [event] }, [.monitoring event])
    | .sending => some ({ c with writer := .atLoop }, [])
    | .pinging => some ({ c with writer := .atLoop }, [])
    | .closing => none
    | .ended => none
  | .timeout =>
    -- `wait_for` gives up on `sub.get()`, which leaves the queue as it is.
    match c.writer with
    | .getting => some ({ c with writer := .pinging }, [.ping])
    | _ => none

def stop : Connection D := { c with writer := .ended }

end Connection

structure Server (D : Type) where
  seq : Nat := 1
  connections : List (Connection D) := []

inductive ServerEvent (D : Type) where
  | emit (type : FrameType) (ts : String) (data : D)
  | accept
  | writer (i : Nat) (choice : WriterChoice)
  | stop (i : Nat)
  deriving DecidableEq

namespace Server
variable (settings : Settings) (maxsize : Nat) (s : Server D)

def publish (event : Event D) : Server D :=
  { s with connections := s.connections.map fun c => c.offer event }

def emit (type : FrameType) (ts : String) (data : D) : Server D :=
  match makeEvent s.seq type ts data with
  | none => s
  | some (event, seq) => { s with seq }.publish event

def accept : Server D where
  seq := s.seq + 1
  connections := s.connections ++ [{ sub := { maxsize }, writer := .greeting s.seq }]

def step : ServerEvent D → Option (Server D)
  | .emit type ts data => some (s.emit type ts data)
  | .accept => some (s.accept maxsize)
  | .writer i choice =>
    s.connections[i]?.bind fun c => (c.act settings choice).map fun (c, _) =>
      { s with connections := s.connections.set i c }
  | .stop i =>
    s.connections[i]?.map fun c => { s with connections := s.connections.set i c.stop }

end Server

end AlgoSystem.Realtime
