import AlgoSystem.Realtime.Client
import AlgoSystem.Proof.Realtime.Delivery
import Mathlib.Data.Prod.Lex
import Mathlib.Data.Nat.Init

namespace AlgoSystem.Proof.Realtime.Dedupe
open General AlgoSystem.Realtime Delivery List

variable {D : Type} {settings : Settings} {maxsize : Nat} {w w' : World D}
variable {server' : Server D} {n : Nat} {d d' : Nat × Event D}

abbrev Identity := Nat ×ₗ Nat

def identity (d : Nat × Event D) : Identity := toLex (d.1, d.2.seq)

def next (w : World D) : Identity := toLex (w.process, w.server.seq)

def pending (c : Connection D) : List (Event D) := inHand c.writer ++ c.sub.queue

def frameEvents (frames : List (Frame D)) : List (Event D) := frames.filterMap Frame.event?

def connectionOf (server : Server D) (socket : Socket D) : Option (Connection D) :=
  socket.connection.bind fun i => server.connections[i]?

def ahead (server : Server D) (socket : Socket D) : List (Event D) :=
  frameEvents socket.wire ++ (connectionOf server socket).elim [] pending

def flight (w : World D) : List (Nat × Event D) :=
  w.socket.elim [] fun socket => (ahead w.server socket).map fun event => (socket.process, event)

def chain (w : World D) : List Identity := (w.received ++ flight w).map identity

def Attached (w : World D) : Prop :=
  ∀ socket, w.socket = some socket → ∀ i, socket.connection = some i →
    socket.process = w.process ∧ i < w.server.connections.length

structure Ordered (w : World D) : Prop where
  increasing : (chain w).Pairwise (· < ·)
  made : ∀ x ∈ chain w, x < next w
  attached : Attached w

theorem pending_act {c c' : Connection D} {choice : WriterChoice} {frames : List (Frame D)}
    (acted : c.act settings choice = some (c', frames)) :
    pending c = frameEvents frames ++ pending c' := by
  cases choice with
  | timeout =>
    cases writer : c.writer <;> simp only [Connection.act, writer] at acted <;> cases acted
    simp [pending, frameEvents, Frame.event?, inHand, writer]
  | proceed =>
    cases writer : c.writer with
    | atLoop =>
      simp only [Connection.act, writer] at acted
      cases acted
      cases dropped : c.sub.dropped <;>
        simp [pending, frameEvents, inHand, writer]
    | getting =>
      simp only [Connection.act, writer] at acted
      cases queue : c.sub.queue with
      | nil => simp [queue] at acted
      | cons event rest =>
        simp only [queue] at acted
        cases acted
        simp [pending, frameEvents, inHand, writer, queue]
    | _ =>
      simp only [Connection.act, writer] at acted
      cases acted
      try simp [pending, frameEvents, Frame.event?, inHand, writer]

theorem pending_offer (c : Connection D) (event : Event D) :
    pending (c.offer event) = pending c ∨ pending (c.offer event) = pending c ++ [event] := by
  unfold Connection.offer Connection.publish
  split
  · exact .inl rfl
  · split
    next sub put =>
      obtain rfl := putNowait_eq_some put
      right
      simp [pending]
    next => exact .inl rfl

def Extends (server server' : Server D) (socket : Socket D) (after : List (Event D)) : Prop :=
  after.Sublist (ahead server socket) ∧ server.seq ≤ server'.seq ∨
    ∃ i event, socket.connection = some i ∧ event.seq = server.seq ∧
      after = ahead server socket ++ [event] ∧ server'.seq = server.seq + 1

variable (server : Server D)

theorem connectionOf_publish (socket : Socket D) (event : Event D) :
    connectionOf (server.publish event) socket =
      (connectionOf server socket).map fun c => c.offer event := by
  unfold connectionOf Server.publish
  cases socket.connection <;> simp

theorem connectionOf_set {server : Server D} {socket : Socket D} {j : Nat}
    (other : socket.connection ≠ some j) (c : Connection D) :
    connectionOf { server with connections := server.connections.set j c } socket =
      connectionOf server socket := by
  unfold connectionOf
  cases connection : socket.connection with
  | none => rfl
  | some i =>
    have different : j ≠ i := by
      rintro rfl
      exact other connection
    exact getElem?_set_ne different

theorem extends_emit (socket : Socket D) (type : FrameType) (ts : String) (data : D) :
    Extends server (server.emit type ts data) socket
      (ahead (server.emit type ts data) socket) := by
  unfold Server.emit makeEvent
  split_ifs
  · set event : Event D := ⟨type, server.seq, ts, data⟩
    have found := connectionOf_publish { server with seq := server.seq + 1 } socket event
    simp only [Extends, ahead, found]
    cases own : connectionOf server socket with
    | none =>
      have none' : connectionOf { server with seq := server.seq + 1 } socket = none := own
      rw [none']
      exact .inl ⟨List.Sublist.refl _, Nat.le_succ _⟩
    | some c =>
      have some' : connectionOf { server with seq := server.seq + 1 } socket = some c := own
      obtain ⟨i, connection, -⟩ := Option.bind_eq_some_iff.mp own
      rw [some']
      simp only [Option.map_some, Option.elim_some]
      rcases pending_offer c event with kept | grown
      · rw [kept]
        exact .inl ⟨List.Sublist.refl _, Nat.le_succ _⟩
      · refine .inr ⟨i, event, connection, rfl, ?_, rfl⟩
        rw [grown, List.append_assoc]
  · exact .inl ⟨List.Sublist.refl _, le_rfl⟩

theorem extends_step {server : Server D} {socket : Socket D} {e : ServerEvent D}
    (mem : ∀ i, socket.connection = some i → i < server.connections.length)
    (stepped : server.step settings maxsize e = some server') :
    Extends server server' socket (ahead server' (socket.after settings server e)) := by
  cases e with
  | emit type ts data =>
    cases stepped
    exact extends_emit server socket type ts data
  | accept =>
    cases stepped
    have same : connectionOf (server.accept maxsize) socket = connectionOf server socket := by
      unfold connectionOf Server.accept
      cases connection : socket.connection with
      | none => rfl
      | some i => exact getElem?_append_left (mem i connection)
    left
    simp only [ahead, Socket.after, same]
    exact ⟨List.Sublist.refl _, Nat.le_succ _⟩
  | writer j choice =>
    obtain ⟨c, found, moved⟩ := Option.bind_eq_some_iff.mp stepped
    obtain ⟨⟨c', frames⟩, acted, rfl⟩ := Option.map_eq_some_iff.mp moved
    have same : ahead { server with connections := server.connections.set j c' }
        (socket.after settings server (.writer j choice)) = ahead server socket := by
      simp only [Socket.after, found, Option.bind_some, acted]
      split_ifs with own
      · have bound : j < server.connections.length := mem j own
        simp only [ahead, connectionOf, own, Option.bind_some, found,
          getElem?_set_self bound, Option.elim_some]
        rw [pending_act acted]
        simp [frameEvents]
      · simp only [ahead, connectionOf_set own]
    rw [same]
    exact .inl ⟨List.Sublist.refl _, le_rfl⟩
  | stop j =>
    obtain ⟨c, found, rfl⟩ := Option.map_eq_some_iff.mp stepped
    simp only [Socket.after]
    split_ifs with own
    · left
      simp [ahead, connectionOf]
    · simp only [ahead, connectionOf_set own]
      exact .inl ⟨List.Sublist.refl _, le_rfl⟩

theorem connections_length_le {server : Server D} {e : ServerEvent D}
    (stepped : server.step settings maxsize e = some server') :
    server.connections.length ≤ server'.connections.length := by
  cases e with
  | emit type ts data =>
    cases stepped
    unfold Server.emit
    split
    · exact le_rfl
    · simp [Server.publish]
  | accept =>
    cases stepped
    simp [Server.accept]
  | writer j choice =>
    obtain ⟨c, -, moved⟩ := Option.bind_eq_some_iff.mp stepped
    obtain ⟨⟨c', frames⟩, -, rfl⟩ := Option.map_eq_some_iff.mp moved
    simp
  | stop j =>
    obtain ⟨c, -, rfl⟩ := Option.map_eq_some_iff.mp stepped
    simp

theorem after_process (socket : Socket D) (e : ServerEvent D) :
    (socket.after settings server e).process = socket.process := by
  cases e with
  | writer j choice =>
    simp only [Socket.after]
    split
    · split <;> rfl
    · rfl
  | stop j =>
    simp only [Socket.after]
    split <;> rfl
  | _ => rfl

theorem after_connection (socket : Socket D) (e : ServerEvent D) :
    ∀ i, (socket.after settings server e).connection = some i → socket.connection = some i := by
  intro i mem
  cases e with
  | writer j choice =>
    simp only [Socket.after] at mem
    split at mem
    · split at mem <;> exact mem
    · exact mem
  | stop j =>
    simp only [Socket.after] at mem
    split at mem
    · cases mem
    · exact mem
  | _ => exact mem

theorem Ordered.of_sublist (ordered : Ordered w) (part : (chain w').Sublist (chain w))
    (later : next w ≤ next w') (attached : Attached w') : Ordered w' where
  increasing := ordered.increasing.sublist part
  made := fun x mem => (ordered.made x (part.subset mem)).trans_le later
  attached := attached

theorem Ordered.of_concat (ordered : Ordered w) (grown : chain w' = chain w ++ [next w])
    (later : next w < next w') (attached : Attached w') : Ordered w' where
  increasing := by
    rw [grown, pairwise_append]
    refine ⟨ordered.increasing, pairwise_singleton _ _, ?_⟩
    intro x old y new
    rw [mem_singleton.mp new]
    exact ordered.made x old
  made := by
    rw [grown, forall_mem_append, forall_mem_singleton]
    exact ⟨fun x old => (ordered.made x old).trans later, later⟩
  attached := attached

theorem next_le_of_seq (bound : w.server.seq ≤ n) : next w ≤ toLex (w.process, n) :=
  Prod.Lex.toLex_le_toLex.mpr (.inr ⟨rfl, bound⟩)

section
variable (ordered : Ordered w)
include ordered

theorem Ordered.backend {e : ServerEvent D}
    (stepped : w.server.step settings maxsize e = some server') :
    Ordered { w with
      server := server'
      socket := w.socket.map fun socket => socket.after settings w.server e } := by
  cases at? : w.socket with
  | none =>
    have seq : w.server.seq ≤ server'.seq := by
      have grows := @extends_step D settings maxsize _ _ ⟨0, none, []⟩ e (by simp) stepped
      rcases grows with ⟨-, bound⟩ | ⟨_, _, impossible, -⟩
      · exact bound
      · cases impossible
    apply ordered.of_sublist
    · simp [chain, flight, at?]
    · exact next_le_of_seq seq
    · intro socket impossible
      cases impossible
  | some socket =>
    have attached : Attached { w with
        server := server'
        socket := some (socket.after settings w.server e) } := by
      intro socket' same i mem
      cases same
      have own := ordered.attached socket at? i (after_connection w.server socket e i mem)
      rw [after_process]
      exact ⟨own.1, own.2.trans_le (connections_length_le stepped)⟩
    have mem : ∀ i, socket.connection = some i → i < w.server.connections.length :=
      fun i own => (ordered.attached socket at? i own).2
    rcases extends_step mem stepped with ⟨part, seq⟩ | ⟨i, event, own, number, grown, seq⟩
    · apply ordered.of_sublist
      · simp only [chain, flight, at?, Option.map_some, Option.elim_some, after_process]
        exact ((List.Sublist.refl _).append (part.map _)).map _
      · exact next_le_of_seq seq
      · exact attached
    · apply ordered.of_concat
      · have process : socket.process = w.process := (ordered.attached socket at? i own).1
        simp [chain, flight, at?, after_process, grown, identity, next, number, process]
      · exact Prod.Lex.toLex_lt_toLex.mpr (.inr ⟨rfl, by simp only [seq]; omega⟩)
      · exact attached

theorem Ordered.restart :
    Ordered { w with
      process := w.process + 1
      server := {}
      socket := w.socket.map fun socket => { socket with connection := none } } := by
  apply ordered.of_sublist
  · unfold chain flight
    refine ((List.Sublist.refl _).append ?_).map _
    cases w.socket with
    | none => exact List.Sublist.refl _
    | some socket =>
      refine List.Sublist.map _ ?_
      simp [ahead, connectionOf]
  · exact Prod.Lex.toLex_le_toLex.mpr (.inl (Nat.lt_succ_self _))
  · intro socket present i own
    cases before : w.socket with
    | none => simp [before] at present
    | some old =>
      simp only [before, Option.map_some, Option.some.injEq] at present
      subst present
      cases own

theorem Ordered.disconnect (client : Client) : Ordered { w with socket := none, client } := by
  apply ordered.of_sublist
  · unfold chain flight
    exact ((List.Sublist.refl _).append (nil_sublist _)).map _
  · exact le_rfl
  · intro socket impossible
    cases impossible

theorem Ordered.connect (idle : w.socket = none) (opened : Client × List (Effect D))
    (answer : Answer) : Ordered (w.connect maxsize opened answer) := by
  have chain_eq : chain w = w.received.map identity := by simp [chain, flight, idle]
  unfold World.connect
  split
  · cases answer with
    | accepted =>
      apply ordered.of_sublist
      · rw [chain_eq]
        simp [chain, flight, ahead, connectionOf, Server.accept, pending, inHand, frameEvents]
      · exact next_le_of_seq (Nat.le_succ _)
      · intro socket present i own
        cases present
        cases own
        exact ⟨rfl, by simp [Server.accept]⟩
    | refused code =>
      apply ordered.of_sublist
      · rw [chain_eq]
        simp [chain, flight, ahead, connectionOf, frameEvents, Frame.event?]
      · exact le_rfl
      · intro socket present i own
        cases present
        cases own
    | failed => exact ⟨ordered.increasing, ordered.made, ordered.attached⟩
  · exact ⟨ordered.increasing, ordered.made, ordered.attached⟩

theorem Ordered.receive {socket : Socket D} {frame : Frame D} {rest : List (Frame D)}
    (own : w.socket = some socket) (wire : socket.wire = frame :: rest) :
    Ordered (w.receive socket frame rest) := by
  have same : chain (w.receive socket frame rest) = chain w := by
    simp only [chain, flight, World.receive, own, Option.elim_some]
    congr 1
    have front : ahead w.server socket =
        frame.event?.toList ++ ahead w.server { socket with wire := rest } := by
      cases event : frame.event? <;>
        simp [ahead, connectionOf, frameEvents, wire, event]
    rw [front]
    simp
  refine ⟨same ▸ ordered.increasing, same ▸ ordered.made, ?_⟩
  intro socket' present i mem
  cases present
  exact ordered.attached socket own i mem

end

section Client
variable (c : Client)

@[simp] theorem seen_setStatus (status : RealtimeStatus) :
    (c.setStatus (D := D) status).1.seen = c.seen := by
  unfold Client.setStatus
  split <;> rfl

@[simp] theorem seen_scheduleReconnect : (c.scheduleReconnect (D := D)).1.seen = c.seen := by
  unfold Client.scheduleReconnect
  split
  · rfl
  · exact seen_setStatus _ _

@[simp] theorem seen_openSocket (token : Bool) :
    (c.openSocket (D := D) token).1.seen = c.seen := by
  unfold Client.openSocket
  split
  · rfl
  · split
    · exact seen_setStatus c _
    · exact (seen_scheduleReconnect _).trans (seen_setStatus c _)

@[simp] theorem seen_onClose : (c.onClose (D := D)).1.seen = c.seen := by
  unfold Client.onClose
  split
  · rfl
  · exact seen_scheduleReconnect _

@[simp] theorem seen_stop : (c.stop (D := D)).1.seen = c.seen := seen_setStatus _ _

theorem mem_remember {seq : Nat} (mem : n ∈ (c.remember seq).seen) : n ∈ c.seen ∨ n = seq := by
  have kept : n ∈ c.seen ++ [seq] := by
    unfold Client.remember at mem
    dsimp only at mem
    split at mem
    · exact mem_of_mem_drop mem
    · exact mem
  simpa using kept

theorem onMessage_events (frame : Frame D) :
    (c.onMessage frame).2.filterMap Effect.event? =
      frame.event?.toList.filter fun event => event.seq ∉ c.seen := by
  cases frame with
  | monitoring event =>
    simp only [Client.onMessage, Frame.event?]
    split_ifs with known <;> simp [Effect.event?, known]
  | hello seq pingInterval clientTimeout =>
    simp only [Client.onMessage, Client.setStatus]
    split <;> rfl
  | error code =>
    simp only [Client.onMessage, Client.setStatus]
    split_ifs <;> rfl
  | _ => rfl

theorem onMessage_seen {frame : Frame D} (mem : n ∈ (c.onMessage frame).1.seen) :
    n ∈ c.seen ∨ ∃ event, frame.event? = some event ∧ event.seq ∉ c.seen ∧ n = event.seq := by
  cases frame with
  | monitoring event =>
    simp only [Client.onMessage] at mem
    split_ifs at mem with known
    · exact .inl mem
    · exact (mem_remember c mem).imp_right fun same => ⟨event, rfl, known, same⟩
  | hello seq pingInterval clientTimeout =>
    left
    simpa [Client.onMessage, Client.clearTimers] using mem
  | error code =>
    left
    simp only [Client.onMessage] at mem
    split_ifs at mem <;> simpa using mem
  | _ => exact .inl mem

end Client

structure Faithful (w : World D) : Prop extends Ordered w where
  memory : ∀ n ∈ w.client.seen, ∃ d ∈ w.passed, d.2.seq = n
  part : w.passed.Sublist w.received
  refused : ∀ d ∈ w.received, d ∉ w.passed → ∃ d' ∈ w.passed, d'.1 < d.1 ∧ d'.2.seq = d.2.seq

theorem Faithful.of_same (faithful : Faithful w) (ordered : Ordered w')
    (seen : w'.client.seen ⊆ w.client.seen) (received : w'.received = w.received)
    (passed : w'.passed = w.passed) : Faithful w' where
  toOrdered := ordered
  memory := by
    rw [passed]
    exact fun n mem => faithful.memory n (seen mem)
  part := by
    rw [received, passed]
    exact faithful.part
  refused := by
    rw [received, passed]
    exact faithful.refused

theorem Ordered.received_increasing (ordered : Ordered w) :
    (w.received.map identity).Pairwise (· < ·) := by
  refine ordered.increasing.sublist ?_
  exact (sublist_append_left _ _).map _

theorem Ordered.lt_of_concat {log : List (Nat × Event D)} (ordered : Ordered w)
    (received : w.received = log ++ [d]) (mem : d' ∈ log) : identity d' < identity d := by
  have increasing := ordered.received_increasing
  rw [received, map_append, pairwise_append] at increasing
  exact increasing.2.2 _ (mem_map_of_mem mem) _ (by simp)

theorem process_lt (before : identity d' < identity d) (same : d'.2.seq = d.2.seq) :
    d'.1 < d.1 := by
  rcases Prod.Lex.toLex_lt_toLex.mp before with process | ⟨-, number⟩
  · exact process
  · exact absurd same (Nat.ne_of_lt number)

section Receive
variable {socket : Socket D} {frame : Frame D} {rest : List (Frame D)}

theorem passed_receive :
    (w.receive socket frame rest).passed = w.passed ++
      (frame.event?.toList.filter fun event => event.seq ∉ w.client.seen).map
        fun event => (socket.process, event) := by
  rw [← onMessage_events]
  rfl

theorem receive_none (silent : frame.event? = none) :
    (w.receive socket frame rest).received = w.received ∧
      (w.receive socket frame rest).passed = w.passed := by
  constructor
  · simp [World.receive, silent]
  · simp [passed_receive, silent]

section
variable {event : Event D} (isEvent : frame.event? = some event)
include isEvent

theorem received_receive : (w.receive socket frame rest).received =
    w.received ++ [(socket.process, event)] := by
  simp [World.receive, isEvent]

theorem passed_receive_known (known : event.seq ∈ w.client.seen) :
    (w.receive socket frame rest).passed = w.passed := by
  simp [passed_receive, isEvent, known]

theorem passed_receive_new (new : event.seq ∉ w.client.seen) :
    (w.receive socket frame rest).passed = w.passed ++ [(socket.process, event)] := by
  simp [passed_receive, isEvent, new]

end

theorem Faithful.receive (faithful : Faithful w) (own : w.socket = some socket)
    (wire : socket.wire = frame :: rest) : Faithful (w.receive socket frame rest) := by
  have ordered := faithful.toOrdered.receive own wire
  cases event? : frame.event? with
  | none =>
    refine faithful.of_same ordered ?_ (receive_none event?).1 (receive_none event?).2
    intro n mem
    rcases onMessage_seen w.client mem with old | ⟨event, isEvent, -⟩
    · exact old
    · rw [event?] at isEvent
      cases isEvent
  | some event =>
    have received := @received_receive _ w socket frame rest event event?
    by_cases known : event.seq ∈ w.client.seen
    · have passed := @passed_receive_known _ w socket frame rest event event? known
      refine ⟨ordered, ?_, ?_, ?_⟩
      · intro n mem
        rw [passed]
        rcases onMessage_seen w.client mem with old | ⟨event', isEvent, unknown, -⟩
        · exact faithful.memory n old
        · rw [event?] at isEvent
          cases isEvent
          exact absurd known unknown
      · rw [passed, received]
        exact faithful.part.trans (sublist_append_left _ _)
      · rw [passed, received, forall_mem_append, forall_mem_singleton]
        refine ⟨faithful.refused, fun _ => ?_⟩
        obtain ⟨d', mem, same⟩ := faithful.memory event.seq known
        have before := ordered.lt_of_concat received (faithful.part.subset mem)
        exact ⟨d', mem, process_lt before same, same⟩
    · have passed := @passed_receive_new _ w socket frame rest event event? known
      refine ⟨ordered, ?_, ?_, ?_⟩
      · intro n mem
        rw [passed]
        rcases onMessage_seen w.client mem with old | ⟨event', isEvent, -, rfl⟩
        · obtain ⟨d, mem, same⟩ := faithful.memory n old
          exact ⟨d, mem_append_left _ mem, same⟩
        · rw [event?] at isEvent
          cases isEvent
          exact ⟨(socket.process, event), by simp, rfl⟩
      · rw [passed, received]
        exact faithful.part.append (List.Sublist.refl _)
      · rw [passed, received, forall_mem_append, forall_mem_singleton]
        refine ⟨?_, fun absent => absurd (mem_append_right _ mem_cons_self) absent⟩
        intro d mem absent
        obtain ⟨d', earlier, order⟩ :=
          faithful.refused d mem fun old => absent (mem_append_left _ old)
        exact ⟨d', mem_append_left _ earlier, order⟩

end Receive

theorem step_receive (stepped : w.step settings maxsize .receive = some w') :
    ∃ socket frame rest, w.socket = some socket ∧ socket.wire = frame :: rest ∧
      w' = w.receive socket frame rest := by
  simp only [World.step] at stepped
  split at stepped
  next socket own =>
    split at stepped
    next frame rest wire => exact ⟨socket, frame, rest, own, wire, (Option.some.inj stepped).symm⟩
    next => cases stepped
  next => cases stepped

theorem received_connect (w : World D) (maxsize : Nat) (opened : Client × List (Effect D)) (answer : Answer) :
    (w.connect maxsize opened answer).client.seen = opened.1.seen ∧
      (w.connect maxsize opened answer).received = w.received ∧
      (w.connect maxsize opened answer).passed = w.passed := by
  unfold World.connect
  split
  · cases answer with
    | failed => exact ⟨seen_scheduleReconnect _, rfl, rfl⟩
    | _ => exact ⟨rfl, rfl, rfl⟩
  · exact ⟨rfl, rfl, rfl⟩

theorem Faithful.connect (faithful : Faithful w) (idle : w.socket = none)
    {opened : Client × List (Effect D)} (same : opened.1.seen = w.client.seen) (answer : Answer) :
    Faithful (w.connect maxsize opened answer) := by
  obtain ⟨seen, received, passed⟩ := received_connect w maxsize opened answer
  apply faithful.of_same (faithful.toOrdered.connect idle opened answer)
  · rw [seen, same]
    exact List.Subset.refl _
  · exact received
  · exact passed

theorem step_other {e : WorldEvent D} (faithful : Faithful w) (other : e ≠ .receive)
    (stepped : w.step settings maxsize e = some w') :
    Faithful w' ∧ w'.received = w.received ∧ w'.passed = w.passed := by
  cases e with
  | backend event =>
    obtain ⟨server', moved, rfl⟩ := Option.map_eq_some_iff.mp stepped
    refine ⟨faithful.of_same (faithful.toOrdered.backend moved) ?_ rfl rfl, rfl, rfl⟩
    exact List.Subset.refl _
  | restart =>
    cases stepped
    refine ⟨faithful.of_same faithful.toOrdered.restart ?_ rfl rfl, rfl, rfl⟩
    exact List.Subset.refl _
  | start token answer =>
    simp only [World.step] at stepped
    split at stepped
    next idle =>
      cases stepped
      have opened := received_connect w maxsize (w.client.start token) answer
      refine ⟨faithful.connect (Option.isNone_iff_eq_none.mp idle) ?_ answer, opened.2⟩
      exact seen_openSocket _ _
    next => cases stepped
  | reconnect token answer =>
    simp only [World.step] at stepped
    split at stepped
    next idle =>
      cases stepped
      rw [Bool.and_eq_true] at idle
      have opened := received_connect w maxsize
        ({ w.client with reconnectTimer := false }.openSocket token) answer
      refine ⟨faithful.connect (Option.isNone_iff_eq_none.mp idle.1) ?_ answer, opened.2⟩
      exact seen_openSocket _ _
    next => cases stepped
  | receive => exact absurd rfl other
  | close =>
    simp only [World.step] at stepped
    split at stepped
    · cases stepped
      refine ⟨faithful.of_same (faithful.toOrdered.disconnect _) ?_ rfl rfl, rfl, rfl⟩
      simp
    · cases stepped
  | stop =>
    cases stepped
    refine ⟨faithful.of_same (faithful.toOrdered.disconnect _) ?_ rfl rfl, rfl, rfl⟩
    simp

theorem Faithful.step (faithful : Faithful w) {e : WorldEvent D}
    (stepped : w.step settings maxsize e = some w') : Faithful w' := by
  by_cases receives : e = .receive
  · subst receives
    obtain ⟨socket, frame, rest, own, wire, rfl⟩ := step_receive stepped
    exact faithful.receive own wire
  · exact (step_other faithful receives stepped).1

/-- A frame arrives whose number the client does not remember. -/
def Unremembered (w : World D) : WorldEvent D → Prop
  | .receive => ∀ socket event rest, w.socket = some socket →
      socket.wire = .monitoring event :: rest → event.seq ∉ w.client.seen
  | _ => True

def AllPassed (w : World D) : Prop := ∀ d ∈ w.received, d ∈ w.passed

theorem event?_eq_some {frame : Frame D} {event : Event D} :
    frame.event? = some event ↔ frame = .monitoring event := by
  cases frame <;> simp [Frame.event?]

theorem unremembered_receive {socket : Socket D} {frame : Frame D} {rest : List (Frame D)}
    (own : w.socket = some socket) (wire : socket.wire = frame :: rest) :
    Unremembered w .receive ↔ ∀ event, frame.event? = some event → event.seq ∉ w.client.seen := by
  simp only [Unremembered, own, Option.some.injEq, event?_eq_some]
  constructor
  · intro all event same
    exact all socket event rest rfl (by rw [wire, same])
  · rintro all _ event rest' rfl wire'
    rw [wire, List.cons.injEq] at wire'
    exact all event wire'.1

theorem allPassed_receive (faithful : Faithful w) {socket : Socket D} {frame : Frame D}
    {rest : List (Frame D)} (own : w.socket = some socket) (wire : socket.wire = frame :: rest) :
    AllPassed (w.receive socket frame rest) ↔ AllPassed w ∧ Unremembered w .receive := by
  rw [unremembered_receive own wire]
  have ordered := faithful.toOrdered.receive own wire
  cases event? : frame.event? with
  | none =>
    simp [AllPassed, receive_none event?]
  | some event =>
    have received := @received_receive _ w socket frame rest event event?
    have new : (socket.process, event) ∉ w.received := by
      intro again
      exact lt_irrefl _ (ordered.lt_of_concat received again)
    simp only [Option.some.injEq, forall_eq']
    by_cases known : event.seq ∈ w.client.seen
    · refine iff_of_false ?_ fun both => both.2 known
      intro all
      have last := all (socket.process, event) (by simp [received])
      rw [passed_receive_known event? known] at last
      exact new (faithful.part.subset last)
    · unfold AllPassed
      rw [received, passed_receive_new event? known, forall_mem_append, forall_mem_singleton]
      constructor
      · rintro ⟨all, -⟩
        refine ⟨fun d mem => ?_, known⟩
        rcases mem_append.mp (all d mem) with old | last
        · exact old
        · rw [mem_singleton.mp last] at mem
          exact absurd mem new
      · rintro ⟨all, -⟩
        exact ⟨fun d mem => mem_append_left _ (all d mem), by simp⟩

theorem allPassed_step (faithful : Faithful w) {e : WorldEvent D}
    (stepped : w.step settings maxsize e = some w') :
    AllPassed w' ↔ AllPassed w ∧ Unremembered w e := by
  by_cases receives : e = .receive
  · subst receives
    obtain ⟨socket, frame, rest, own, wire, rfl⟩ := step_receive stepped
    exact allPassed_receive faithful own wire
  · obtain ⟨-, received, passed⟩ := step_other faithful receives stepped
    have free : Unremembered w e := by
      cases e with
      | receive => exact absurd rfl receives
      | _ => trivial
    simp [AllPassed, received, passed, free]

theorem faithful_start : Faithful ({} : World D) where
  increasing := List.Pairwise.nil
  made := by simp [chain, flight]
  attached := by
    intro socket impossible
    cases impossible
  memory := by simp
  part := List.Sublist.refl _
  refused := by simp

theorem passed_once_iff {events : List (WorldEvent D)}
    (path : run (World.step settings maxsize) {} events = some w) :
    (w.received.map identity).Nodup ∧ w.passed.Sublist w.received ∧
      (∀ d ∈ w.received, d ∉ w.passed → ∃ d' ∈ w.passed, d'.1 < d.1 ∧ d'.2.seq = d.2.seq) ∧
      ((∀ d ∈ w.received, d ∈ w.passed) ↔
        Meets (World.step settings maxsize) Unremembered {} events) := by
  have keeps : ∀ (w : World D) e w', Faithful w → w.step settings maxsize e = some w' →
      Faithful w' := fun _ _ _ faithful => faithful.step
  have faithful : Faithful w := run_invariant keeps path faithful_start
  refine ⟨faithful.received_increasing.imp fun order => order.ne, faithful.part,
    faithful.refused, ?_⟩
  have all : AllPassed w ↔ AllPassed {} ∧ Meets (World.step settings maxsize) Unremembered {} events :=
    run_property_iff keeps (fun _ _ _ faithful => allPassed_step faithful) path faithful_start
  have start : AllPassed ({} : World D) := by simp [AllPassed]
  exact all.trans (and_iff_right start)

def sends (i : Nat) : List (WorldEvent Unit) :=
  [.backend (.writer i .proceed), .backend (.writer i .proceed), .receive]

/-- Connection `i` sends its greeting and an event. -/
def delivered (i : Nat) (type : FrameType) (ts : String) : List (WorldEvent Unit) :=
  sends i ++ .backend (.emit type ts ()) :: sends i

def firstEvent : List (WorldEvent Unit) := .start true .accepted :: delivered 0 .heartbeat "10:00"

/-- A reconnect, and a restart after which an event is made before the client is back. -/
def firstEvents : List (WorldEvent Unit) :=
  firstEvent ++ [.close, .reconnect true .accepted] ++ delivered 1 .trade "10:01" ++
    [.restart, .close, .backend (.emit .heartbeat "10:02" ()), .reconnect true .failed,
      .reconnect true .accepted] ++ delivered 0 .trade "10:03"

theorem first_event_passed :
    ∃ w : World Unit, run (World.step ⟨20, 60⟩ 1000) {} firstEvents = some w ∧
      w.passed = [(0, ⟨.heartbeat, 2, "10:00", ()⟩), (0, ⟨.trade, 4, "10:01", ()⟩),
        (1, ⟨.trade, 3, "10:03", ()⟩)] ∧
      Meets (World.step ⟨20, 60⟩ 1000) Unremembered {} firstEvents := by
  refine ⟨_, rfl, rfl, ?_⟩
  have once := @passed_once_iff Unit ⟨20, 60⟩ 1000 _ firstEvents rfl
  exact once.2.2.2.mp fun d received => received

theorem event_after_restart_refused :
    ∃ w : World Unit,
      run (World.step ⟨20, 60⟩ 1000) {} (firstEvent ++ [.restart, .close, .reconnect true .accepted] ++
        delivered 0 .trade "10:05") = some w ∧
      w.received = [(0, ⟨.heartbeat, 2, "10:00", ()⟩), (1, ⟨.trade, 2, "10:05", ()⟩)] ∧
      w.passed = [(0, ⟨.heartbeat, 2, "10:00", ()⟩)] :=
  ⟨_, rfl, rfl, rfl⟩

end AlgoSystem.Proof.Realtime.Dedupe
