import AlgoSystem.Realtime.Bus

/-!
`RealtimeClient` of `frontend/src/realtime/client.ts` with the backend it connects to. The world
also lists what the client has received and passed to `onEvent`, with the number of the backend
process that made it. It has one socket: a `start` over an open one is in `Page.step`.
-/

namespace AlgoSystem.Realtime

variable {D : Type}

inductive RealtimeStatus where
  | idle
  | connecting
  | connected
  | reconnecting
  | degraded
  | closed
  deriving DecidableEq

def degradedAfterAttempts : Nat := 4
def seenSeqLimit : Nat := 4096

inductive Effect (D : Type) where
  | onEvent (event : Event D)
  | onStatus (status : RealtimeStatus) (attempts : Nat)
  | onHello
  | sendPong
  | attemptRefresh
  | newWebSocket

structure Client where
  status : RealtimeStatus := .idle
  attempts : Nat := 0
  stopped : Bool := false
  reconnectTimer : Bool := false
  triedRefresh : Bool := false
  clientTimeoutMs : Nat := 60000
  pingIntervalMs : Nat := 20000
  seen : List Nat := []

namespace Client
variable (c : Client)

def setStatus (status : RealtimeStatus) : Client × List (Effect D) :=
  if c.status = status then (c, []) else ({ c with status }, [.onStatus status c.attempts])

def remember (seq : Nat) : Client :=
  let seen := c.seen ++ [seq]
  { c with seen := if seenSeqLimit < seen.length then seen.drop (seen.length - seenSeqLimit / 2)
      else seen }

def clearTimers : Client := { c with reconnectTimer := false }

def onMessage : Frame D → Client × List (Effect D)
  | .hello _ pingInterval clientTimeout =>
    let greeted := { c with
      attempts := 0
      triedRefresh := false
      clientTimeoutMs := (if clientTimeout = 0 then 60 else clientTimeout) * 1000
      pingIntervalMs := max 5000 ((if pingInterval = 0 then 20 else pingInterval) * 1000 - 5000) }
    let (client, effects) := greeted.setStatus .connected
    (client.clearTimers, effects ++ [.onHello])
  | .ping => (c, [.sendPong])
  | .pong => (c, [])
  | .subscribed => (c, [])
  | .error code =>
    if code = "unauthorized" then
      if c.triedRefresh then c.setStatus .degraded
      else ({ c with triedRefresh := true }, [.attemptRefresh])
    else (c, [])
  | .monitoring event =>
    if event.seq ∈ c.seen then (c, []) else (c.remember event.seq, [.onEvent event])

def scheduleReconnect : Client × List (Effect D) :=
  if c.stopped || c.reconnectTimer then (c, [])
  else
    let attempts := c.attempts + 1
    let (client, effects) := { c with attempts }.setStatus
      (if degradedAfterAttempts ≤ attempts then .degraded else .reconnecting)
    ({ client with reconnectTimer := true }, effects)

def openSocket (token : Bool) : Client × List (Effect D) :=
  if c.stopped then (c, [])
  else if token then
    let (client, effects) := c.setStatus (if c.attempts = 0 then .connecting else .reconnecting)
    (client, effects ++ [.newWebSocket])
  else
    let (client, effects) := c.setStatus .degraded
    let (client, more) := client.scheduleReconnect
    (client, effects ++ more)

def start (token : Bool) : Client × List (Effect D) := { c with stopped := false }.openSocket token

def stop : Client × List (Effect D) := { c with stopped := true }.clearTimers.setStatus .closed

def onClose : Client × List (Effect D) :=
  if c.stopped then (c.clearTimers, []) else c.clearTimers.scheduleReconnect

end Client

structure Socket (D : Type) where
  process : Nat
  connection : Option Nat
  wire : List (Frame D) := []

structure World (D : Type) where
  process : Nat := 0
  server : Server D := {}
  client : Client := {}
  socket : Option (Socket D) := none
  received : List (Nat × Event D) := []
  passed : List (Nat × Event D) := []

/-- `failed`: the constructor of the socket throws. -/
inductive Answer where
  | accepted
  | refused (code : String)
  | failed
  deriving DecidableEq

inductive WorldEvent (D : Type) where
  | backend (event : ServerEvent D)
  | restart
  | start (token : Bool) (answer : Answer)
  | reconnect (token : Bool) (answer : Answer)
  | receive
  | close
  | stop
  deriving DecidableEq

def Frame.event? : Frame D → Option (Event D)
  | .monitoring event => some event
  | _ => none

def Effect.event? : Effect D → Option (Event D)
  | .onEvent event => some event
  | _ => none

def Socket.after (settings : Settings) (server : Server D) (socket : Socket D) :
    ServerEvent D → Socket D
  | .writer j choice =>
    if socket.connection = some j then
      match server.connections[j]?.bind (·.act settings choice) with
      | some (_, frames) => { socket with wire := socket.wire ++ frames }
      | none => socket
    else socket
  | .stop j => if socket.connection = some j then { socket with connection := none } else socket
  | _ => socket

namespace World
variable (settings : Settings) (maxsize : Nat) (w : World D)

def connect (opened : Client × List (Effect D)) (answer : Answer) : World D :=
  if opened.2.any (· matches .newWebSocket) then
    match answer with
    | .accepted => { w with
        client := opened.1
        server := w.server.accept maxsize
        socket := some { process := w.process, connection := some w.server.connections.length } }
    | .refused code => { w with
        client := opened.1
        socket := some { process := w.process, connection := none, wire := [.error code] } }
    | .failed => { w with client := (opened.1.scheduleReconnect (D := D)).1 }
  else { w with client := opened.1 }

def receive (socket : Socket D) (frame : Frame D) (rest : List (Frame D)) : World D :=
  let (client, effects) := w.client.onMessage frame
  { w with
    client
    socket := some { socket with wire := rest }
    received := w.received ++ frame.event?.toList.map fun event => (socket.process, event)
    passed := w.passed ++ (effects.filterMap Effect.event?).map fun event => (socket.process, event) }

def step : WorldEvent D → Option (World D)
  | .backend event =>
    (w.server.step settings maxsize event).map fun server => { w with
      server
      socket := w.socket.map fun socket => socket.after settings w.server event }
  | .restart => some { w with
      process := w.process + 1
      server := {}
      socket := w.socket.map fun socket => { socket with connection := none } }
  | .start token answer =>
    if w.socket.isNone then some (w.connect maxsize (w.client.start token) answer) else none
  | .reconnect token answer =>
    if w.socket.isNone && w.client.reconnectTimer then
      some (w.connect maxsize ({ w.client with reconnectTimer := false }.openSocket token) answer)
    else none
  | .receive =>
    match w.socket with
    | some socket =>
      match socket.wire with
      | frame :: rest => some (w.receive socket frame rest)
      | [] => none
    | none => none
  | .close =>
    if w.socket.isSome then
      some { w with socket := none, client := (w.client.onClose (D := D)).1 }
    else none
  | .stop => some { w with socket := none, client := (w.client.stop (D := D)).1 }

end World

end AlgoSystem.Realtime
