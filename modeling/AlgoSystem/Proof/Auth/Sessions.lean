import AlgoSystem.Auth.Refresh

namespace AlgoSystem.Proof.Auth
open AlgoSystem.Auth General List

variable {rows : List Session} {next session newId now : Nat} {r row : Session}
variable {a b old new : Session} {f : Session → Session} {keep : Session → Bool}

@[simp] theorem mem_committed : r ∈ committed rows ↔ r ∈ rows ∧ r.txn = none := by
  simp [committed]

structure Consistent (rows : List Session) (next : Nat) : Prop where
  ids : (rows.map Session.id).Nodup
  hashes : (rows.map Session.tokenHash).Nodup
  bound : ∀ r ∈ rows, r.id < next ∧ r.login < next
  revoked : ∀ r ∈ rows, r.rotatedTo ≠ none → r.revokedAt ≠ none
  issued : ∀ k ∈ committed rows, ∀ h, k.issuedFor = some h →
    ∃ r ∈ committed rows, r.tokenHash = h ∧ r.rotatedTo ≠ none
  rotated : ∀ r ∈ rows, r.rotatedTo ≠ none →
    ∃ k ∈ committed rows, k.issuedFor = some r.tokenHash

theorem Consistent.eq_of_id (consistent : Consistent rows next) (ha : a ∈ rows) (hb : b ∈ rows)
    (same : a.id = b.id) : a = b :=
  inj_on_of_nodup_map consistent.ids ha hb same

theorem Consistent.eq_of_hash (consistent : Consistent rows next) (ha : a ∈ rows) (hb : b ∈ rows)
    (same : a.tokenHash = b.tokenHash) : a = b :=
  inj_on_of_nodup_map consistent.hashes ha hb same

structure Single (rows : List Session) : Prop where
  once : ∀ a ∈ committed rows, ∀ b ∈ committed rows, ∀ h,
    a.issuedFor = some h → b.issuedFor = some h → a.id = b.id
  leaf : ∀ a ∈ committed rows, ∀ b ∈ committed rows, a.login = b.login →
    a.rotatedTo = none → b.rotatedTo = none → a.id = b.id

structure Marks (f : Session → Session) : Prop where
  id : ∀ r, (f r).id = r.id
  tokenHash : ∀ r, (f r).tokenHash = r.tokenHash
  issuedFor : ∀ r, (f r).issuedFor = r.issuedFor
  login : ∀ r, (f r).login = r.login
  txn : ∀ r, r.txn = none → (f r).txn = none
  rotatedTo : ∀ r, r.rotatedTo ≠ none → (f r).rotatedTo ≠ none
  revokedAt : ∀ r, (r.rotatedTo ≠ none → r.revokedAt ≠ none) →
    (f r).rotatedTo ≠ none → (f r).revokedAt ≠ none

theorem Marks.mem_committed (marks : Marks f) (member : r ∈ committed rows) :
    f r ∈ committed (rows.map f) := by
  obtain ⟨mem, visible⟩ := Auth.mem_committed.mp member
  exact Auth.mem_committed.mpr ⟨mem_map_of_mem mem, marks.txn r visible⟩

theorem Consistent.map (consistent : Consistent rows next) (marks : Marks f)
    (commits : ∀ k ∈ rows, k.txn ≠ none → (f k).txn = none → ∀ h, k.issuedFor = some h →
      ∃ r ∈ committed rows, r.tokenHash = h ∧ (f r).rotatedTo ≠ none)
    (rotates : ∀ r ∈ rows, r.rotatedTo = none → (f r).rotatedTo ≠ none →
      ∃ k ∈ rows, (f k).txn = none ∧ k.issuedFor = some r.tokenHash) :
    Consistent (rows.map f) next := by
  obtain ⟨id, tokenHash, issuedFor, login, txn, rotatedTo, revokedAt⟩ := marks
  constructor
  · rw [map_map, show Session.id ∘ f = Session.id from funext id]
    exact consistent.ids
  · rw [map_map, show Session.tokenHash ∘ f = Session.tokenHash from funext tokenHash]
    exact consistent.hashes
  · have bound := consistent.bound
    grind
  · have revoked := consistent.revoked
    grind
  · have issued := consistent.issued
    simp only [mem_committed, mem_map] at *
    rintro _ ⟨⟨k, mem, rfl⟩, visible⟩ h presented
    by_cases old : k.txn = none <;> grind
  · have rotated := consistent.rotated
    simp only [mem_committed, mem_map] at *
    rintro _ ⟨r, mem, rfl⟩ marked
    by_cases old : r.rotatedTo = none <;> grind

section
variable (session now)

theorem revoke_eq (r : Session) :
    r.revoke session now = r ∨ r.revoke session now = { r with revokedAt := some now } := by
  unfold Session.revoke
  split
  · exact .inr rfl
  · exact .inl rfl

theorem marks_revoke : Marks (Session.revoke session now) := by
  constructor
  case revokedAt =>
    intro r old
    obtain same | same := revoke_eq session now r <;> rw [same]
    · exact old
    · exact fun _ => Option.some_ne_none now
  all_goals
    intro r
    obtain same | same := revoke_eq session now r <;> simp [same]

theorem revoke_txn (r : Session) : (r.revoke session now).txn = r.txn := by
  obtain same | same := revoke_eq session now r <;> rw [same]

theorem revoke_rotatedTo (r : Session) : (r.revoke session now).rotatedTo = r.rotatedTo := by
  obtain same | same := revoke_eq session now r <;> rw [same]

end

theorem Consistent.revoke (consistent : Consistent rows next) (session now : Nat) :
    Consistent (rows.map (Session.revoke session now)) next := by
  apply consistent.map (marks_revoke session now)
  · intro k _ hidden visible
    rw [revoke_txn] at visible
    exact absurd visible hidden
  · intro r _ old rotated
    rw [revoke_rotatedTo] at rotated
    exact absurd old rotated

theorem Single.revoke (single : Single rows) (session now : Nat) :
    Single (rows.map (Session.revoke session now)) := by
  obtain ⟨id, -, issuedFor, login, -, -, -⟩ := marks_revoke session now
  have txn := revoke_txn session now
  have rotatedTo := revoke_rotatedTo session now
  obtain ⟨once, leaf⟩ := single
  constructor <;> simp only [mem_committed, mem_map] at * <;> grind

theorem marks_rotate (session newId now : Nat) : Marks (Session.rotate session newId now) := by
  constructor
  all_goals
    intro r
    unfold Session.rotate
    split_ifs <;> simp

theorem rotate_txn (different : session ≠ newId) (now : Nat) (r : Session) :
    (r.rotate session newId now).txn = none ↔ r.txn = none ∨ r.id = newId := by
  unfold Session.rotate
  split_ifs with old new
  · simp [old, different]
  · simp [new]
  · simp [new]

theorem rotate_rotatedTo (session newId now : Nat) (r : Session) :
    (r.rotate session newId now).rotatedTo = none ↔ r.id ≠ session ∧ r.rotatedTo = none := by
  unfold Session.rotate
  split_ifs with old new <;> simp [old]

structure Rotation (rows : List Session) (old new : Session) : Prop where
  read : old ∈ committed rows
  inserted : new ∈ rows
  hidden : new.txn ≠ none
  presented : new.issuedFor = some old.tokenHash
  login : new.login = old.login

theorem Rotation.ne (rotation : Rotation rows old new) (consistent : Consistent rows next) :
    old.id ≠ new.id := by
  intro same
  obtain ⟨mem, visible⟩ := mem_committed.mp rotation.read
  exact rotation.hidden (consistent.eq_of_id mem rotation.inserted same ▸ visible)

theorem Consistent.rotate (consistent : Consistent rows next) (rotation : Rotation rows old new)
    (now : Nat) : Consistent (rows.map (Session.rotate old.id new.id now)) next := by
  have txn := rotate_txn (rotation.ne consistent) now
  have rotatedTo := rotate_rotatedTo old.id new.id now
  have sameOld (r : Session) := consistent.eq_of_id (a := r) (b := old)
  have sameNew (r : Session) := consistent.eq_of_id (a := r) (b := new)
  obtain ⟨read, inserted, hidden, presented, -⟩ := rotation
  apply consistent.map (marks_rotate old.id new.id now) <;> grind [mem_committed]

theorem Single.rotate (single : Single rows) (consistent : Consistent rows next)
    (rotation : Rotation rows old new) (unrotated : old.rotatedTo = none) (now : Nat) :
    Single (rows.map (Session.rotate old.id new.id now)) := by
  obtain ⟨id, -, issuedFor, login, -, -, -⟩ := marks_rotate old.id new.id now
  have txn := rotate_txn (rotation.ne consistent) now
  have rotatedTo := rotate_rotatedTo old.id new.id now
  have sameId (r : Session) := consistent.eq_of_id (a := r) (b := new)
  -- The token of `old` has not been used, because its row would be marked.
  have unused : ∀ a ∈ committed rows, ∀ h, a.issuedFor = some h → new.issuedFor ≠ some h := by
    intro a member h first second
    obtain ⟨r, issued, hash, rotated⟩ := consistent.issued a member h first
    have same : r = old := consistent.eq_of_hash (mem_committed.mp issued).1
      (mem_committed.mp rotation.read).1
      (hash.trans (Option.some.inj (second.symm.trans rotation.presented)))
    exact rotated (same ▸ unrotated)
  -- `old` was the only unrotated session of its login.
  have replaced : ∀ a ∈ committed rows, a.login = new.login → a.rotatedTo = none →
      a.id = old.id := by
    intro a member login leaf
    exact single.leaf a member old rotation.read (login.trans rotation.login) leaf unrotated
  obtain ⟨once, leaf⟩ := single
  have inserted := rotation.inserted
  constructor <;> simp only [mem_committed, mem_map] at * <;> grind

structure Fresh (rows : List Session) (next : Nat) (row : Session) : Prop where
  id : row.id = next
  hash : ∀ r ∈ rows, r.tokenHash ≠ row.tokenHash
  unrotated : row.rotatedTo = none
  origin : row.txn = none ∧ row.issuedFor = none ∧ row.login = next ∨
    row.txn ≠ none ∧ row.login < next

theorem mem_committed_concat :
    r ∈ committed (rows ++ [row]) ↔ r ∈ committed rows ∨ r = row ∧ row.txn = none := by
  simp only [mem_committed, mem_append, mem_singleton, or_and_right]
  exact or_congr_right (and_congr_right fun same => by rw [same])

theorem Consistent.concat (consistent : Consistent rows next) (fresh : Fresh rows next row) :
    Consistent (rows ++ [row]) (next + 1) := by
  obtain ⟨id, hash, unrotated, origin⟩ := fresh
  obtain ⟨ids, hashes, bound, revoked, issued, rotated⟩ := consistent
  constructor
  · apply nodup_map_concat ids
    intro r mem
    exact id ▸ Nat.ne_of_lt (bound r mem).1
  · exact nodup_map_concat hashes hash
  · grind
  · grind
  all_goals
    simp only [mem_committed_concat] at *
    grind

theorem Single.concat (single : Single rows) (consistent : Consistent rows next)
    (fresh : Fresh rows next row) : Single (rows ++ [row]) := by
  have root : row.txn = none → row.issuedFor = none ∧ row.login = next := by
    intro visible
    obtain ⟨_, origin⟩ | ⟨hidden, _⟩ := fresh.origin
    · exact origin
    · exact absurd visible hidden
  have older : ∀ a ∈ committed rows, row.txn = none → a.login ≠ row.login := by
    intro a member visible
    rw [(root visible).2]
    exact Nat.ne_of_lt (consistent.bound a (mem_committed.mp member).1).2
  obtain ⟨once, leaf⟩ := single
  constructor <;> simp only [mem_committed_concat] <;> grind

theorem committed_filter (kept : ∀ r ∈ rows, r.txn = none → keep r = true) :
    committed (rows.filter keep) = committed rows := by
  rw [committed, filter_filter]
  apply filter_congr
  intro r mem
  by_cases visible : r.txn = none
  · simp [visible, kept r mem visible]
  · simp [visible]

theorem Consistent.filter (consistent : Consistent rows next)
    (kept : ∀ r ∈ rows, r.txn = none → keep r = true) : Consistent (rows.filter keep) next where
  ids := consistent.ids.sublist (filter_sublist.map Session.id)
  hashes := consistent.hashes.sublist (filter_sublist.map Session.tokenHash)
  bound r member := consistent.bound r (mem_of_mem_filter member)
  revoked r member := consistent.revoked r (mem_of_mem_filter member)
  issued := by
    rw [committed_filter kept]
    exact consistent.issued
  rotated := by
    rw [committed_filter kept]
    exact fun r member => consistent.rotated r (mem_of_mem_filter member)

theorem Single.filter (single : Single rows) (kept : ∀ r ∈ rows, r.txn = none → keep r = true) :
    Single (rows.filter keep) := by
  constructor <;> rw [committed_filter kept]
  · exact single.once
  · exact single.leaf

end AlgoSystem.Proof.Auth
