import Mathlib.Logic.Function.Basic
import AlgoSystem.General.Runs

/-!
`AlertService` of `alerts/telegram.py`. A section under the lock and an HTTP attempt are one step
each; delays are passing time. The log is not part of the program: newest first, what reached the
chat, and which keys were marked, cleared or found duplicate.
-/

namespace AlgoSystem.Alerts
open General

inductive AlertKind where
  | started
  | stopped
  | crashed
  | loss
  | missing
  | recovered
  deriving DecidableEq

def AlertKind.value : AlertKind → String
  | .started => "started"
  | .stopped => "stopped"
  | .crashed => "crashed"
  | .loss => "loss"
  | .missing => "missing"
  | .recovered => "recovered"

def dedupKey (kind : AlertKind) (strategy server : String) : String :=
  kind.value ++ ":" ++ strategy ++ ":" ++ server

structure Config where
  dedupSeconds : Nat := 120
  maxRetries : Nat := 3
  credentials : Bool := true

/-- `again` is a timeout, a network error or a status that is neither success nor 4xx, `raised` any
other exception; the message may or may not have reached the chat. -/
inductive Reply where
  | ok
  | refused
  | again (arrived : Bool)
  | raised (arrived : Bool)

inductive Entry where
  | delivered (key : String) (time : Nat)
  | marked (key : String) (sent time : Nat)
  | cleared (key : String)
  | suppressed (key : String) (time : Nat)

inductive Stage where
  | idle
  | starting (clears : List String) (key : String)
  | attempting (key : String) (attempt : Nat)
  | marking (key : String) (sent : Nat)
  | returned (result : Bool)

structure State where
  clock : Nat := 0
  cache : String → Option Nat := fun _ => none
  log : List Entry := []
  stage : Nat → Stage := fun _ => .idle

def alertStage (kind : AlertKind) (strategy server : String) : Stage :=
  .starting
    (if kind = .recovered then
      [dedupKey .missing strategy server, dedupKey .crashed strategy server,
        dedupKey .stopped strategy server]
    else [])
    (dedupKey kind strategy server)

namespace State

def goto (s : State) (thread : Nat) (stage : Stage) : State :=
  { s with stage := Function.update s.stage thread stage }

def isDuplicate (cfg : Config) (s : State) (key : String) : Bool :=
  match s.cache key with
  | none => false
  | some last => s.clock - last < cfg.dedupSeconds

def record (s : State) (key : String) (arrived : Bool) : State :=
  if arrived then { s with log := .delivered key s.clock :: s.log } else s

def act (cfg : Config) (s : State) (thread : Nat) (reply : Reply) : Option State :=
  match s.stage thread with
  | .idle | .returned _ => none
  | .starting (old :: clears) key =>
    some ({ s with cache := Function.update s.cache old none, log := .cleared old :: s.log }.goto
      thread (.starting clears key))
  | .starting [] key =>
    if s.isDuplicate cfg key then
      some ({ s with log := .suppressed key s.clock :: s.log }.goto thread (.returned true))
    else if cfg.credentials ∧ 0 < cfg.maxRetries then some (s.goto thread (.attempting key 1))
    else some (s.goto thread (.returned false))
  | .attempting key attempt =>
    match reply with
    | .ok => some ((s.record key true).goto thread (.marking key s.clock))
    | .refused => some (s.goto thread (.returned false))
    | .again arrived =>
      some ((s.record key arrived).goto thread
        (if attempt < cfg.maxRetries then .attempting key (attempt + 1) else .returned false))
    | .raised arrived => some ((s.record key arrived).goto thread (.returned false))
  | .marking key sent =>
    some ({ s with
      cache := Function.update s.cache key (some s.clock)
      log := .marked key sent s.clock :: s.log }.goto thread (.returned true))

end State

inductive Event where
  | call (thread : Nat) (kind : AlertKind) (strategy server : String)
  | act (thread : Nat) (reply : Reply)
  | pass (seconds : Nat)

def step (cfg : Config) (s : State) : Event → Option State
  | .call thread kind strategy server =>
    match s.stage thread with
    | .idle | .returned _ => some (s.goto thread (alertStage kind strategy server))
    | _ => none
  | .act thread reply => s.act cfg thread reply
  | .pass seconds => some { s with clock := s.clock + seconds }

end AlgoSystem.Alerts
