import AlgoSystem.Realtime.Sockets

namespace AlgoSystem.Proof.Realtime.Sockets
open General AlgoSystem.Realtime List

variable {D : Type} {p q : Page}

def Attended (p : Page) : Prop :=
  p.client.reconnectTimer ∨ .connecting ∈ p.sockets ∨
    (.opened ∈ p.sockets ∨ .closing ∈ p.sockets) ∧ p.livenessTimer

def Running (p : Page) : Prop := p.started ∧ p.client.stopped = false

structure NeverStalls (p : Page) : Prop where
  attended : Running p → Attended p
  single : ∀ i j, p.phase i ≠ .closed → p.phase j ≠ .closed → i = j

def FreeFor (p : Page) (constructed : Bool) : Prop :=
  p.accessToken → constructed → ∀ phase ∈ p.sockets, phase = .closed

/-- The events that the client survives: no socket is constructed beside one that can still deliver,
and none opens without a timer that watches it. -/
def Watched (p : Page) : PageEvent D → Prop
  | .start constructed => FreeFor p constructed
  | .reconnect constructed => p.client.stopped = false → FreeFor p constructed
  | .opened _ => Running p → p.client.reconnectTimer ∨ p.livenessTimer
  | _ => True

instance (p : Page) (constructed : Bool) : Decidable (FreeFor p constructed) :=
  inferInstanceAs (Decidable (_ → _ → _))

instance (p : Page) : Decidable (Running p) := inferInstanceAs (Decidable (_ ∧ _))

instance (p : Page) : Decidable (Attended p) := inferInstanceAs (Decidable (_ ∨ _ ∨ _))

instance (p : Page) : ∀ event : PageEvent D, Decidable (Watched p event)
  | .start _ | .reconnect _ | .opened _ => by unfold Watched; infer_instance
  | .token _ | .stop | .liveness _ | .message .. | .error _ | .close _ => .isTrue trivial

structure Tracked (p : Page) : Prop where
  attended : Running p → Attended p
  current : ∀ i, p.phase i ≠ .closed → p.ws = some i

theorem Tracked.neverStalls (tracked : Tracked p) : NeverStalls p := by
  refine ⟨tracked.attended, ?_⟩
  intro i j first second
  exact Option.some.inj ((tracked.current i first).symm.trans (tracked.current j second))

section Client
variable (c : Client)

theorem setStatus_keeps (status : RealtimeStatus) :
    (c.setStatus (D := D) status).1.reconnectTimer = c.reconnectTimer ∧
      (c.setStatus (D := D) status).1.stopped = c.stopped := by
  unfold Client.setStatus
  split <;> simp

theorem scheduleReconnect_pending (running : c.stopped = false) :
    (c.scheduleReconnect (D := D)).1.reconnectTimer = true := by
  unfold Client.scheduleReconnect
  split
  · simp_all
  · rfl

theorem onMessage_keeps (frame : Frame D) : (c.onMessage frame).1.stopped = c.stopped ∧
    (frame.isHello = false → (c.onMessage frame).1.reconnectTimer = c.reconnectTimer) := by
  have status := setStatus_keeps (D := D)
  cases frame <;> simp only [Client.onMessage, Frame.isHello] <;>
    grind [Client.clearTimers, Client.remember]

theorem onClose_pending (running : (c.onClose (D := D)).1.stopped = false) :
    (c.onClose (D := D)).1.reconnectTimer = true := by
  cases stopped : c.stopped with
  | true => simp [Client.onClose, Client.clearTimers, stopped] at running
  | false =>
    rw [Client.onClose, if_neg (by simp [stopped])]
    exact scheduleReconnect_pending c.clearTimers stopped

end Client

section
variable (c : Client) (constructed : Bool) (running : c.stopped = false)
include running

theorem connect_spec : let q := p.connect c constructed
    if p.accessToken && constructed then
      q.ws = some p.sockets.length ∧ q.sockets = p.sockets ++ [.connecting]
    else q.ws = p.ws ∧ q.sockets = p.sockets ∧ q.client.reconnectTimer = true := by
  have pending := scheduleReconnect_pending (D := Unit)
  have status := setStatus_keeps (D := Unit) c
  simp only [Page.connect, Client.openSocket, running]
  cases p.accessToken <;> cases constructed <;> grind

theorem connect_tracked (current : ∀ i, p.phase i ≠ .closed → p.ws = some i)
    (free : FreeFor p constructed) : Tracked (p.connect c constructed) := by
  have result := @connect_spec p c constructed running
  generalize p.connect c constructed = q at result ⊢
  split at result
  · rename_i made
    obtain ⟨ws, sockets⟩ := result
    rw [Bool.and_eq_true] at made
    have closed := free made.1 made.2
    refine ⟨fun _ => .inr (.inl (by simp [sockets])), fun i live => ?_⟩
    simp only [Page.phase, sockets] at live
    grind [getElem_mem]
  · obtain ⟨ws, sockets, timer⟩ := result
    refine ⟨fun _ => .inl timer, fun i live => ?_⟩
    rw [Page.phase, sockets] at live
    exact ws.trans (current i live)

theorem connect_stalls (taken : ¬ FreeFor p constructed) :
    ¬ NeverStalls (p.connect c constructed) := by
  have result := @connect_spec p c constructed running
  simp only [FreeFor, Classical.not_imp] at taken
  obtain ⟨token, made, live⟩ := taken
  push Not at live
  obtain ⟨phase, mem, live⟩ := live
  obtain ⟨i, bound, found⟩ := mem_iff_getElem.mp mem
  rw [token, made] at result
  obtain ⟨-, sockets⟩ := result
  rw [made]
  intro never
  have same := never.single i p.sockets.length
    (by simp [Page.phase, sockets, getElem?_append_left bound, bound, found, live])
    (by simp [Page.phase, sockets])
  omega

end

theorem closeWs_eq_set {i : Nat} (ws : p.ws = some i) (phase : Phase) :
    p.closeWs phase = p.sockets.set i phase := by
  simp [Page.closeWs, ws]

/-- When the current socket changes its phase, no other one can deliver. -/
theorem Tracked.closeWs_only (tracked : Tracked p) {j : Nat} {phase : Phase}
    (sockets : q.sockets = p.closeWs phase) (live : q.phase j ≠ .closed) :
    p.ws = some j ∧ q.phase j = phase := by
  have current := tracked.current j
  cases ws : p.ws with
  | none =>
    simp only [Page.phase, sockets, Page.closeWs, ws] at *
    cases current live
  | some i =>
    rw [closeWs_eq_set ws] at sockets
    simp only [Page.phase, sockets] at *
    grind

theorem step_tracked {event : PageEvent D} (tracked : Tracked p) (watched : Watched p event)
    (hstep : p.step event = some q) : Tracked q := by
  cases event with
  | token present =>
    cases hstep
    exact ⟨tracked.attended, tracked.current⟩
  | start constructed =>
    cases hstep
    exact connect_tracked _ constructed rfl tracked.current watched
  | stop =>
    cases hstep
    refine ⟨fun running => ?_, fun i live => absurd (tracked.closeWs_only rfl live).2 live⟩
    exact absurd running.2 (by simp [Client.stop, Client.clearTimers, setStatus_keeps])
  | reconnect constructed =>
    obtain ⟨-, ⟨⟩⟩ := Option.ite_none_right_eq_some.mp hstep
    cases stopped : p.client.stopped with
    | false => exact connect_tracked _ constructed stopped tracked.current (watched stopped)
    | true =>
      simp only [Page.connect, stopped, Bool.true_or, if_true]
      exact ⟨fun running => absurd running.2 (by simp [Client.openSocket]), tracked.current⟩
  | liveness silent =>
    obtain ⟨armed, ⟨⟩⟩ := Option.ite_none_right_eq_some.mp hstep
    cases silent with
    | false => exact tracked
    | true =>
      refine ⟨fun running => ?_, fun j live => (tracked.closeWs_only rfl live).1⟩
      show Attended { p with sockets := p.closeWs .closing }
      rw [Page.closeWs]
      split
      · rename_i i _
        by_cases bound : i < p.sockets.length
        · exact .inr (.inr ⟨.inr (mem_set bound _), armed⟩)
        · rw [set_eq_of_length_le (Nat.le_of_not_lt bound)]
          exact tracked.attended running
      · exact tracked.attended running
  | opened i =>
    obtain ⟨connecting, ⟨⟩⟩ := Option.ite_none_right_eq_some.mp hstep
    have ws := tracked.current i (by simp [connecting])
    rw [← closeWs_eq_set ws]
    refine ⟨fun running => ?_, fun j live => (tracked.closeWs_only rfl live).1⟩
    obtain timer | armed := watched running
    · exact .inl timer
    · have bound : i < p.sockets.length := by
        by_contra out
        simp [Page.phase, out] at connecting
      exact .inr (.inr ⟨.inl (closeWs_eq_set ws _ ▸ mem_set bound _), armed⟩)
  | message i frame =>
    obtain ⟨isOpen, ⟨⟩⟩ := Option.ite_none_right_eq_some.mp hstep
    cases frame with
    | none => exact tracked
    | some frame =>
      cases greeting : frame.isHello with
      | true =>
        have mem : .opened ∈ p.sockets := by
          simp only [Page.phase] at isOpen
          grind
        refine ⟨fun _ => .inr (.inr ⟨.inl mem, ?_⟩), tracked.current⟩
        simp [Page.onMessage, greeting]
      | false =>
        have kept := onMessage_keeps p.client frame
        refine ⟨fun running => ?_, tracked.current⟩
        have before := tracked.attended ⟨running.1, kept.1.symm.trans running.2⟩
        simpa [Attended, Page.onMessage, kept.2 greeting, greeting] using before
  | error i =>
    obtain ⟨-, ⟨⟩⟩ := Option.ite_none_right_eq_some.mp hstep
    exact tracked
  | close i =>
    obtain ⟨live, ⟨⟩⟩ := Option.ite_none_right_eq_some.mp hstep
    rw [← closeWs_eq_set (tracked.current i live)]
    refine ⟨fun running => .inl (onClose_pending _ running.2), fun j live => ?_⟩
    exact absurd (tracked.closeWs_only rfl live).2 live

theorem step_stalls {event : PageEvent D} (tracked : Tracked p) (unwatched : ¬ Watched p event)
    (hstep : p.step event = some q) : ¬ NeverStalls q := by
  cases event with
  | start constructed =>
    cases hstep
    exact connect_stalls _ constructed rfl unwatched
  | reconnect constructed =>
    obtain ⟨-, ⟨⟩⟩ := Option.ite_none_right_eq_some.mp hstep
    obtain ⟨running, taken⟩ := Classical.not_imp.mp unwatched
    exact connect_stalls _ constructed running taken
  | opened i =>
    obtain ⟨connecting, ⟨⟩⟩ := Option.ite_none_right_eq_some.mp hstep
    obtain ⟨running, untimed⟩ := Classical.not_imp.mp unwatched
    have ws := tracked.current i (by simp [connecting])
    intro never
    obtain timer | mem | ⟨-, armed⟩ := never.attended running
    · exact untimed (.inl timer)
    · -- the socket that opened was the only one that could deliver
      obtain ⟨j, found⟩ := mem_iff_getElem?.mp mem
      have other : Page.phase { p with sockets := p.sockets.set i .opened } j = .connecting := by
        simp [Page.phase, found]
      cases other.symm.trans
        (tracked.closeWs_only (closeWs_eq_set ws _).symm (by simp [other])).2
    · exact untimed (.inr armed)
  | _ => exact absurd trivial unwatched

theorem never_stalls_iff {events : List (PageEvent D)} (path : run Page.step {} events = some q) :
    Always Page.step NeverStalls {} events ↔ Meets Page.step Watched {} events := by
  refine always_iff_meets (fun _ => Tracked.neverStalls) (fun _ _ _ => step_tracked)
    (fun _ _ _ => step_stalls) path ⟨fun running => ?_, fun i live => ?_⟩
  · cases running.1
  · exact absurd rfl live

/-- A peer that refuses the only connection, with the events on both sides of it. -/
theorem refused_never_stalls :
    let events : List (PageEvent Unit) :=
      [.start true, .token true, .reconnect true, .close 0, .reconnect false, .stop]
    (run Page.step {} events).isSome ∧ Always Page.step NeverStalls {} events := by
  refine ⟨rfl, (never_stalls_iff rfl).mpr (by decide)⟩

theorem silent_peer_stalls : ∃ q,
    run Page.step {} ([.token true, .start true, .opened 0] : List (PageEvent Unit)) = some q ∧
      q.sockets = [.opened] ∧ ¬ NeverStalls q :=
  ⟨_, rfl, rfl, fun never => absurd (never.attended (by decide)) (by decide)⟩

end AlgoSystem.Proof.Realtime.Sockets
