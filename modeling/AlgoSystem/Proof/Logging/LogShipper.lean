import AlgoSystem.Logging.LogShipper

namespace AlgoSystem.Proof.Logging
open AlgoSystem.Logging General List

variable {D : Type*} {maxsize : Nat} {s t : Shipper D}

/-- What was taken and what is queued, in the order of the calls and each item once. -/
structure InOrder (maxsize : Nat) (s : Shipper D) : Prop where
  once : s.taken ++ s.queue <+ s.shipped
  bounded : 0 < maxsize → s.queue.length ≤ maxsize

theorem InOrder.ship {call call' : Ship D} (order : InOrder maxsize s)
    (acted : ship maxsize s call = some (t, call')) : InOrder maxsize t := by
  obtain ⟨once, bounded⟩ := order
  have put (item : D) : s.taken ++ (s.queue ++ [item]) <+ s.shipped ++ [item] := by
    simpa using once.append_right [item]
  have discarded (item : D) := once.trans (sublist_append_left s.shipped [item])
  have dropped := ((tail_sublist s.queue).append_left s.taken).trans once
  cases call <;> grind [Logging.ship, Logging.put, full, InOrder]

theorem InOrder.control {event : Event} (order : InOrder maxsize s)
    (changed : control s event = some t) : InOrder maxsize t := by
  obtain ⟨once, bounded⟩ := order
  cases event <;> grind [Logging.control, loop, InOrder]

theorem shipped_in_order (maxsize : Nat) (events : List (ThreadSystem.Event D Unit Event)) :
    Always (logShipper maxsize).step (fun s => InOrder maxsize s.shared) { shared := {} } events := by
  intro before t _ path
  refine run_invariant (I := fun s => InOrder maxsize s.shared) ?_ path (by constructor <;> simp)
  intro s event t order stepped
  cases event with
  | enter item =>
    cases stepped
    exact order
  | act i choice =>
    obtain ⟨_, _, _, -, acted, rfl⟩ := ThreadSystem.step_act_eq_some stepped
    exact order.ship acted
  | env event =>
    obtain ⟨_, changed, rfl⟩ := Option.map_eq_some_iff.mp stepped
    exact order.control changed
  | reset =>
    cases stepped
    have kept := (sublist_append_left s.shared.taken s.shared.queue).trans order.once
    constructor <;> simp [logShipper, kept]

end AlgoSystem.Proof.Logging
