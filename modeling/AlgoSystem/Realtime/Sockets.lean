import AlgoSystem.Realtime.Client

/-!
The same client with every socket it has made and the events of the page. An open socket delivers
messages; one that the client closes itself delivers its close event only, and none once `stop` has
detached it.
-/

namespace AlgoSystem.Realtime

variable {D : Type}

inductive Phase where
  | connecting
  | opened
  | closing
  | closed
  deriving DecidableEq

structure Page where
  client : Client := {}
  accessToken : Bool := false
  started : Bool := false
  livenessTimer : Bool := false
  ws : Option Nat := none
  sockets : List Phase := []

inductive PageEvent (D : Type) where
  | token (present : Bool)
  | start (constructed : Bool)
  | stop
  | reconnect (constructed : Bool)
  | liveness (silent : Bool)
  | opened (i : Nat)
  /-- A text that is no JSON is `none`. -/
  | message (i : Nat) (frame : Option (Frame D))
  | error (i : Nat)
  | close (i : Nat)

def Frame.isHello : Frame D → Bool
  | .hello .. => true
  | _ => false

namespace Page
variable (p : Page)

/-- `open` of a client with the fields `c`. -/
def connect (c : Client) (constructed : Bool) : Page :=
  let client := (c.openSocket (D := Unit) p.accessToken).1
  if c.stopped || !p.accessToken then { p with client }
  else if constructed then
    { p with client, ws := some p.sockets.length, sockets := p.sockets ++ [.connecting] }
  else { p with client := (client.scheduleReconnect (D := Unit)).1 }

def phase (i : Nat) : Phase := p.sockets[i]?.getD .closed

/-- What becomes of `this.ws` when the client calls its `close`. -/
def closeWs (phase : Phase) : List Phase :=
  match p.ws with
  | some i => p.sockets.set i phase
  | none => p.sockets

def onMessage (frame : Frame D) : Page :=
  { p with
    client := (p.client.onMessage frame).1
    livenessTimer := p.livenessTimer || frame.isHello }

def step : PageEvent D → Option Page
  | .token present => some { p with accessToken := present }
  | .start constructed =>
    some ({ p with started := true }.connect { p.client with stopped := false } constructed)
  | .stop => some { p with
      client := (p.client.stop (D := Unit)).1
      livenessTimer := false
      ws := none
      sockets := p.closeWs .closed }
  | .reconnect constructed =>
    if p.client.reconnectTimer then
      some (p.connect { p.client with reconnectTimer := false } constructed)
    else none
  | .liveness silent =>
    if p.livenessTimer then
      some (if silent then { p with sockets := p.closeWs .closing } else p)
    else none
  | .opened i =>
    if p.phase i = .connecting then some { p with sockets := p.sockets.set i .opened }
    else none
  | .message i frame =>
    if p.phase i = .opened then some (frame.elim p p.onMessage) else none
  | .error i => if p.phase i ≠ .closed then some p else none
  | .close i =>
    if p.phase i ≠ .closed then
      some { p with
        client := (p.client.onClose (D := Unit)).1
        livenessTimer := false
        ws := none
        sockets := p.sockets.set i .closed }
    else none

end Page

end AlgoSystem.Realtime
