import AlgoSystem.General.Dict
import AlgoSystem.General.Threads

/-!
`_consume` of `trading/api/deps.py`, as a thread over `rate_limit_windows` at READ COMMITTED. The
increment is computed from the count read. `allowed` is not part of the program; it records the
calls allowed.
-/

namespace AlgoSystem.RateLimit
open General

structure Key where
  subjectHash : String
  windowStart : Nat
  deriving DecidableEq

structure Limits where
  maxRequests : Nat
  windowSeconds : Nat

def windowEpoch (limits : Limits) (now : Nat) : Nat :=
  now / 1000000 / limits.windowSeconds * limits.windowSeconds

def retryAfter (limits : Limits) (now : Nat) : Nat :=
  max (limits.windowSeconds - (now - windowEpoch limits now * 1000000) / 1000000) 1

structure Table where
  counts : Dict Key Nat := .empty
  allowed : List Key := []

def Table.save (table : Table) (key : Key) (count : Nat) : Table where
  counts := table.counts.upsert key count fun _ => count
  allowed := table.allowed ++ [key]

inductive Pc where
  | entry
  | insert
  | reread
  | update (count : Nat)
  | allowed
  | denied (retryAfter : Nat)
  | failed
  deriving DecidableEq

structure Call where
  subjectHash : String
  now : Nat

structure Consume extends Call where
  pc : Pc := .entry

def Consume.goto (call : Consume) (pc : Pc) : Consume := { call with pc }

def Consume.key (limits : Limits) (call : Consume) : Key :=
  ⟨call.subjectHash, windowEpoch limits call.now⟩

def judge (limits : Limits) (now count : Nat) : Pc :=
  if limits.maxRequests ≤ count then .denied (retryAfter limits now) else .update count

inductive Choice where
  | proceed
  | abort

/-- An INSERT waits for one of the same key that is not committed, so that it is one action with its
COMMIT, and so is the UPDATE. -/
def act (limits : Limits) (table : Table) (call : Consume) : Choice → Option (Table × Consume)
  | .proceed =>
    let key := call.key limits
    match call.pc with
    | .entry =>
      match table.counts.get? key with
      | none => some (table, call.goto .insert)
      | some count => some (table, call.goto (judge limits call.now count))
    | .insert =>
      match table.counts.get? key with
      | none => some (table.save key 1, call.goto .allowed)
      | some _ => some (table, call.goto .reread)
    | .reread =>
      match table.counts.get? key with
      | none => some (table, call.goto .failed)
      | some count => some (table, call.goto (judge limits call.now count))
    | .update count =>
      match table.counts.get? key with
      | none => some (table, call.goto .failed)
      | some _ => some (table.save key (count + 1), call.goto .allowed)
    | .allowed | .denied _ | .failed => none
  | .abort =>
    match call.pc with
    | .allowed | .denied _ | .failed => none
    | _ => some (table, call.goto .failed)

def limiter (limits : Limits) : ThreadSystem Table Consume Call Choice Empty where
  enter _ call := { call with }
  act _ := act limits
  env _ _ := none
  reset table := table

abbrev State := ThreadSystem.State Table Consume
abbrev Event := ThreadSystem.Event Call Choice Empty

end AlgoSystem.RateLimit
