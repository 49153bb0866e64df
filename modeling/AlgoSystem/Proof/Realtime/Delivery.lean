import AlgoSystem.Realtime.Bus

namespace AlgoSystem.Proof.Realtime.Delivery
open General AlgoSystem.Realtime List

variable {D : Type} {settings : Settings} {maxsize : Nat} {c c' : Connection D} {event : Event D}
variable {sub : Subscription D} {choice : WriterChoice} {frames : List (Frame D)}

def inHand : Writer D → List (Event D)
  | .got event => [event]
  | _ => []

structure Tracks (c : Connection D) : Prop where
  whole : c.lost = none →
    c.sub.dropped = false ∧ c.sent ++ inHand c.writer ++ c.sub.queue = c.published
  cut : ∀ n, c.lost = some n → c.sub.dropped = true ∧ n ≤ c.published.length ∧
    ∃ early later, c.sub.queue = early ++ later ∧
      c.sent ++ inHand c.writer ++ early = c.published.take n ∧
      (c.writer = .getting → early ≠ [])

theorem tracks_new (seq : Nat) :
    Tracks ({ sub := { maxsize }, writer := .greeting seq } : Connection D) where
  whole := fun _ => ⟨rfl, rfl⟩
  cut := by
    intro n impossible
    cases impossible

theorem putNowait_eq_some {sub' : Subscription D} (put : sub.putNowait event = some sub') :
    sub' = { sub with queue := sub.queue ++ [event] } := by
  unfold Subscription.putNowait at put
  split at put
  · cases put
  · exact (Option.some.inj put).symm

theorem queue_ne_nil_of_full (full : sub.putNowait event = none) : sub.queue ≠ [] := by
  intro empty
  have notFull : sub.full = false := by
    simp only [Subscription.full, empty, length_nil, Bool.and_eq_false_iff, decide_eq_false_iff_not]
    omega
  simp [Subscription.putNowait, notFull] at full

section
variable (tracks : Tracks c)
include tracks

theorem Tracks.publish (event : Event D) : Tracks (c.publish event) := by
  unfold Connection.publish
  split
  next sub put =>
    obtain rfl := putNowait_eq_some put
    constructor
    · intro kept
      obtain ⟨notDropped, all⟩ := tracks.whole kept
      exact ⟨notDropped, by rw [← all]; simp⟩
    · intro n lost
      obtain ⟨dropped, bound, early, later, queue, before, takes⟩ := tracks.cut n lost
      refine ⟨dropped, by simp; omega, early, later ++ [event], ?_, ?_, takes⟩
      · simp [queue]
      · rw [before, take_append_of_le_length bound]
  next full =>
    constructor
    · intro impossible
      cases lost : c.lost <;> simp [lost] at impossible
    · intro n lost
      cases earlier : c.lost with
      | none =>
        -- The first loss: all of the queue was published before it.
        obtain ⟨-, all⟩ := tracks.whole earlier
        obtain rfl : c.published.length = n := by simpa [earlier] using lost
        refine ⟨rfl, by simp, c.sub.queue, [], by simp, ?_, ?_⟩
        · rw [take_left', all]
          rfl
        · exact fun _ => queue_ne_nil_of_full full
      | some m =>
        obtain rfl : m = n := by simpa [earlier] using lost
        obtain ⟨-, bound, early, later, queue, before, takes⟩ := tracks.cut m earlier
        refine ⟨rfl, by simp; omega, early, later, queue, ?_, takes⟩
        rw [before, take_append_of_le_length bound]

theorem Tracks.move {writer : Writer D} (same : inHand writer = inHand c.writer)
    (checked : writer = .getting → c.sub.dropped = false) : Tracks { c with writer } where
  whole := by
    intro kept
    rw [same]
    exact tracks.whole kept
  cut := by
    intro n lost
    obtain ⟨dropped, bound, early, later, queue, before, -⟩ := tracks.cut n lost
    refine ⟨dropped, bound, early, later, queue, by rw [same]; exact before, ?_⟩
    intro getting
    rw [checked getting] at dropped
    cases dropped

theorem Tracks.take {rest : List (Event D)} (getting : c.writer = .getting)
    (queue : c.sub.queue = event :: rest) :
    Tracks { c with sub := { c.sub with queue := rest }, writer := .got event } where
  whole := by
    intro kept
    obtain ⟨notDropped, all⟩ := tracks.whole kept
    rw [getting, queue] at all
    exact ⟨notDropped, by simpa [inHand] using all⟩
  cut := by
    intro n lost
    obtain ⟨dropped, bound, early, later, split, before, takes⟩ := tracks.cut n lost
    obtain ⟨first, early, rfl⟩ := exists_cons_of_ne_nil (takes getting)
    rw [queue, cons_append, List.cons.injEq] at split
    obtain ⟨rfl, rfl⟩ := split
    rw [getting] at before
    exact ⟨dropped, bound, early, later, rfl, by simpa [inHand] using before, by simp⟩

theorem Tracks.hand (got : c.writer = .got event) :
    Tracks { c with writer := .sending, sent := c.sent ++ [event] } where
  whole := by
    intro kept
    obtain ⟨notDropped, all⟩ := tracks.whole kept
    rw [got] at all
    exact ⟨notDropped, by simpa [inHand] using all⟩
  cut := by
    intro n lost
    obtain ⟨dropped, bound, early, later, queue, before, -⟩ := tracks.cut n lost
    rw [got] at before
    exact ⟨dropped, bound, early, later, queue, by simpa [inHand] using before, by simp⟩

theorem Tracks.act (acted : c.act settings choice = some (c', frames)) : Tracks c' := by
  cases choice with
  | timeout =>
    cases writer : c.writer <;> simp only [Connection.act, writer] at acted <;> cases acted
    exact tracks.move (by rw [writer]; rfl) (by simp)
  | proceed =>
    cases writer : c.writer with
    | greeting seq | sending | pinging =>
      simp only [Connection.act, writer] at acted
      cases acted
      exact tracks.move (by rw [writer]; rfl) (by simp)
    | atLoop =>
      simp only [Connection.act, writer] at acted
      cases acted
      cases dropped : c.sub.dropped
      · exact tracks.move (by rw [writer]; rfl) fun _ => dropped
      · exact tracks.move (by rw [writer]; rfl) (by simp)
    | getting =>
      simp only [Connection.act, writer] at acted
      cases queue : c.sub.queue with
      | nil => simp [queue] at acted
      | cons event rest =>
        simp only [queue] at acted
        cases acted
        exact tracks.take writer queue
    | got event =>
      simp only [Connection.act, writer] at acted
      cases acted
      exact tracks.hand writer
    | closing | ended => simp [Connection.act, writer] at acted

end

structure Delivered (c : Connection D) : Prop where
  inOrder : c.sent <+: c.published
  beforeLoss : ∀ n, c.lost = some n → c.sent <+: c.published.take n

theorem Tracks.delivered (tracks : Tracks c) : Delivered c := by
  have beforeLoss : ∀ n, c.lost = some n → c.sent <+: c.published.take n := by
    intro n lost
    obtain ⟨-, -, early, later, -, before, -⟩ := tracks.cut n lost
    rw [← before, List.append_assoc]
    exact prefix_append _ _
  refine ⟨?_, beforeLoss⟩
  cases lost : c.lost with
  | none =>
    obtain ⟨-, all⟩ := tracks.whole lost
    rw [← all, List.append_assoc]
    exact prefix_append _ _
  | some n => exact (beforeLoss n lost).trans (List.take_prefix n _)

def Sound (c : Connection D) : Prop := Tracks c ∨ c.writer = .ended ∧ Delivered c

theorem Sound.delivered (sound : Sound c) : Delivered c := by
  rcases sound with tracks | ⟨-, delivered⟩
  · exact tracks.delivered
  · exact delivered

theorem Sound.offer (sound : Sound c) : Sound (c.offer event) := by
  unfold Connection.offer
  split
  · exact sound
  next running =>
    rcases sound with tracks | ⟨ended, -⟩
    · exact .inl (tracks.publish event)
    · exact absurd (by rw [ended]; rfl) running

theorem Sound.act (sound : Sound c) (acted : c.act settings choice = some (c', frames)) :
    Sound c' := by
  rcases sound with tracks | ⟨ended, -⟩
  · exact .inl (tracks.act acted)
  · cases choice <;> simp [Connection.act, ended] at acted

theorem sound_step {s t : Server D} {e : ServerEvent D} (sound : ∀ c ∈ s.connections, Sound c)
    (stepped : s.step settings maxsize e = some t) : ∀ c ∈ t.connections, Sound c := by
  have changed : ∀ i c', Sound c' → ∀ c ∈ s.connections.set i c', Sound c := by
    intro i c' new c mem
    rcases mem_or_eq_of_mem_set mem with old | rfl
    · exact sound c old
    · exact new
  cases e with
  | emit type ts data =>
    cases stepped
    unfold Server.emit
    split
    · exact sound
    · intro c mem
      obtain ⟨before, member, rfl⟩ := mem_map.mp mem
      exact (sound before member).offer
  | accept =>
    cases stepped
    intro c mem
    rcases mem_append.mp mem with old | new
    · exact sound c old
    · rw [mem_singleton.mp new]
      exact .inl (tracks_new s.seq)
  | writer i choice =>
    obtain ⟨c, found, moved⟩ := Option.bind_eq_some_iff.mp stepped
    obtain ⟨⟨c', frames⟩, acted, rfl⟩ := Option.map_eq_some_iff.mp moved
    exact changed i c' ((sound c (mem_of_getElem? found)).act acted)
  | stop i =>
    obtain ⟨c, found, rfl⟩ := Option.map_eq_some_iff.mp stepped
    have delivered := (sound c (mem_of_getElem? found)).delivered
    exact changed i c.stop (.inr ⟨rfl, delivered.inOrder, delivered.beforeLoss⟩)

theorem sent_in_order_without_gaps {s : Server D} {events : List (ServerEvent D)}
    (path : run (Server.step settings maxsize) {} events = some s) {c : Connection D}
    (mem : c ∈ s.connections) :
    c.sent <+: c.published ∧ ∀ n, c.lost = some n → c.sent <+: c.published.take n := by
  have sound : ∀ c ∈ s.connections, Sound c :=
    run_invariant (I := fun s : Server D => ∀ c ∈ s.connections, Sound c)
      (fun _ _ _ => sound_step) path (by simp)
  have delivered := (sound c mem).delivered
  exact ⟨delivered.inOrder, delivered.beforeLoss⟩

def overflowing : List (ServerEvent Unit) :=
  [.accept, .writer 0 .proceed, .writer 0 .proceed, .emit .heartbeat "10:00" (), .emit .pnl "10:01" (),
    .writer 0 .proceed, .emit .trade "10:02" (), .writer 0 .proceed, .writer 0 .proceed,
    .writer 0 .proceed]

theorem first_sent_then_closed :
    ∃ (s : Server Unit) (c : Connection Unit),
      run (Server.step ⟨20, 60⟩ 1) {} overflowing = some s ∧ c ∈ s.connections ∧
        c.writer = .closing ∧ c.published.map Event.seq = [2, 3, 4] ∧ c.lost = some 1 ∧
        c.sent <+: c.published ∧ c.sent <+: c.published.take 1 := by
  refine ⟨_, _, rfl, mem_cons_self, rfl, rfl, rfl, ?_⟩
  have sent := @sent_in_order_without_gaps Unit ⟨20, 60⟩ 1 _ overflowing rfl _ mem_cons_self
  exact ⟨sent.1, sent.2 1 rfl⟩

end AlgoSystem.Proof.Realtime.Delivery
