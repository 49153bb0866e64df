import AlgoSystem.General.Dict

/-!
`post_heartbeat`, and what `list_algos` reads of it, in `trading/api/routes.py`. Rows are kept under
their unique names: that of a server, or of an algo and its server. The measured values (processor,
memory, profit, position) are only stored.
-/

namespace AlgoSystem.Control.Heartbeats
open General

inductive TradingMode where
  | live
  | paper

structure AlgoKey where
  algoId : String
  serverId : String
  deriving DecidableEq

structure Algo where
  status : String := "STOPPED"
  tradingMode : Option TradingMode := none
  runningLots : Option Nat := none

structure Db where
  servers : Dict String (Option Nat)
  algos : Dict AlgoKey Algo
  heartbeats : List (AlgoKey × Nat) := []

structure HeartbeatIn where
  algoId : String
  serverId : String
  status : String
  timestamp : Option Nat := none
  tradingMode : Option TradingMode := none
  runningLots : Option Nat := none

def HeartbeatIn.key (body : HeartbeatIn) : AlgoKey := ⟨body.algoId, body.serverId⟩

inductive Refusal where
  | unknownServer
  | algoNotRegistered

inductive Alert where
  | strategyRecovered
  | strategyStopped
  | strategyCrashed

def alert (previous status : String) : Option Alert :=
  if previous = status then none
  else if status = "RUNNING" then some .strategyRecovered
  else if status = "STOPPED" then some .strategyStopped
  else if status = "ERROR" then some .strategyCrashed
  else none

def Algo.update (algo : Algo) (body : HeartbeatIn) : Algo where
  status := body.status
  tradingMode := body.tradingMode.or algo.tradingMode
  runningLots := body.runningLots.or algo.runningLots

def postHeartbeat (db : Db) (body : HeartbeatIn) (now : Nat) :
    Except Refusal (Db × Option Alert) :=
  match db.servers.get? body.serverId with
  | none => .error .unknownServer
  | some _ =>
    match db.algos.get? body.key with
    | none => .error .algoNotRegistered
    | some algo =>
      let ts := body.timestamp.getD now
      .ok ({ servers := db.servers.upsert body.serverId none fun _ => some ts
             algos := db.algos.upsert body.key algo fun algo => algo.update body
             heartbeats := db.heartbeats ++ [(body.key, ts)] },
        alert algo.status body.status)

def reportedHeartbeat (db : Db) (key : AlgoKey) : Option Nat :=
  ((db.heartbeats.filter fun row => row.1 = key).map Prod.snd).max?

structure Arrival where
  body : HeartbeatIn
  now : Nat

def Arrival.stamp (arrival : Arrival) : Nat := arrival.body.timestamp.getD arrival.now

def receive (db : Db) (arrival : Arrival) : Db :=
  match postHeartbeat db arrival.body arrival.now with
  | .ok (db', _) => db'
  | .error _ => db

def receiveAll (db : Db) (arrivals : List Arrival) : Db := arrivals.foldl receive db

end AlgoSystem.Control.Heartbeats
