import AlgoSystem.General.Threads

/-!
`LogShipper` of `trading/common/log_shipper.py`: calls of `ship` and the worker interleave between
the operations of the queue. `shipped` and `taken` are not part of the program: the items of the
calls that have ended and those passed to `_send_with_retry`.
-/

namespace AlgoSystem.Logging
open General

inductive Worker where
  | absent
  | checking
  | getting
  | sending

structure Shipper (D : Type*) where
  queue : List D := []
  stopping : Bool := false
  worker : Worker := .absent
  shipped : List D := []
  taken : List D := []

inductive Ship (D : Type*) where
  | putting (item : D)
  | dropping (item : D)
  | retrying (item : D)
  | ended

/-- The worker `dies` of an exception that `_send_with_retry` does not catch. -/
inductive Event where
  | start
  | stop
  | work (dies : Bool)

variable {D : Type*} (maxsize : Nat) (s : Shipper D)

/-- A queue of size 0 has no bound. -/
def full : Bool := 0 < maxsize && maxsize ≤ s.queue.length

def put (item : D) : Shipper D :=
  { s with queue := s.queue ++ [item], shipped := s.shipped ++ [item] }

def ship : Ship D → Option (Shipper D × Ship D)
  | .putting item => some (if full maxsize s then (s, .dropping item) else (put s item, .ended))
  | .dropping item => some ({ s with queue := s.queue.tail }, .retrying item)
  | .retrying item =>
    some (if full maxsize s then { s with shipped := s.shipped ++ [item] } else put s item, .ended)
  | .ended => none

def loop (dies : Bool) : Option (Shipper D) :=
  match s.worker, s.queue with
  | .absent, _ => none
  | .checking, queue =>
    some { s with worker := if s.stopping && queue.isEmpty then .absent else .getting }
  | .getting, [] => some { s with worker := .checking }
  | .getting, item :: queue => some { s with queue, taken := s.taken ++ [item], worker := .sending }
  | .sending, _ => some { s with worker := if dies then .absent else .checking }

def control : Event → Option (Shipper D)
  | .start => some (match s.worker with
    | .absent => { s with stopping := false, worker := .checking }
    | _ => s)
  | .stop => some { s with stopping := true }
  | .work dies => loop s dies

def logShipper : ThreadSystem (Shipper D) (Ship D) D Unit Event where
  enter _ item := .putting item
  act _ s call _ := ship maxsize s call
  env := control
  reset s := { s with queue := [], stopping := false, worker := .absent }

end AlgoSystem.Logging
