import AlgoSystem.Proof.Auth.Requests
import AlgoSystem.Proof.Auth.Sessions

namespace AlgoSystem.Proof.Auth
open AlgoSystem.Auth General List

variable {session : Session} {own : Option Nat} {revokedAt next : Nat}

/-- Requests with one token issue one session at most, and one session of each login is active. -/
structure SingleUse (config : Config) (db : Db) : Prop where
  once : ∀ token, (committed db.sessions).countP
    (fun r => r.issuedFor = some (config.hashRefreshToken token)) ≤ 1
  active : ∀ login now, (committed db.sessions).countP
    (fun r => r.login = login && r.active now) ≤ 1

def unrotated (s : State) : Event → Bool
  | .act i (.tick _) => s.threads[i]?.all fun request =>
    match request.pc with
    | .commit session _ _ =>
      s.shared.sessions.all fun r => r.id ≠ session.id || r.rotatedTo = none
    | _ => true
  | _ => true

def Reads (presented : Option String) (rows : List Session) (session : Session) : Prop :=
  ∃ old ∈ committed rows,
    old.id = session.id ∧ old.login = session.login ∧ presented = some old.tokenHash

structure Inserts (presented : Option String) (txn : Nat) (rows : List Session)
    (session newId : Nat) (old new : Session) : Prop where
  rotation : Rotation rows old new
  session : old.id = session
  newId : new.id = newId
  own : new.txn = some txn
  presented : presented = some old.tokenHash

def Asserted (config : Config) (txn : Nat) (db : Db) (request : Request) : Prop :=
  let presented := request.refreshRaw.map config.hashRefreshToken
  match request.pc with
  | .findUser session | .issue session => Reads presented db.sessions session
  | .update session newId | .commit session newId _ =>
    ∃ old new, Inserts presented txn db.sessions session.id newId old new
  | .entry | .issued _ | .denied _ | .failed => True

/-- What a step does to the table; `P` holds of a session that is exchanged. -/
inductive Effect (own : Option Nat) (P : Session → Prop) (db db' : Db) : Prop where
  | same (rows : db'.sessions = db.sessions) (next : db'.nextId = db.nextId)
  | revoked (session now : Nat)
      (rows : db'.sessions = db.sessions.map (Session.revoke session now))
      (next : db'.nextId = db.nextId)
  | added (row : Session) (fresh : Fresh db.sessions db.nextId row)
      (rows : db'.sessions = db.sessions ++ [row]) (next : db'.nextId = db.nextId + 1)
  | dropped (txn : Nat) (acting : own = some txn)
      (rows : db'.sessions = db.sessions.filter fun r => r.txn ≠ some txn)
      (next : db'.nextId = db.nextId)
  | rotated (old new : Session) (revokedAt : Nat) (rotation : Rotation db.sessions old new)
      (acting : new.txn = own) (allowed : P old)
      (rows : db'.sessions = db.sessions.map (Session.rotate old.id new.id revokedAt))
      (next : db'.nextId = db.nextId)

variable {config : Config} {txn : Nat} {db db' : Db} {request request' : Request} {choice : Choice}
  {P : Session → Prop}

theorem Reads.insert {row : Session}
    (reads : Reads (request.refreshRaw.map config.hashRefreshToken) db.sessions session)
    (id : row.id = db.nextId) (own : row.txn = some txn) (login : row.login = session.login)
    (presented : row.issuedFor = request.refreshRaw.map config.hashRefreshToken) :
    Asserted config txn (db.insert row) (request.goto (.update session db.nextId)) := by
  obtain ⟨old, read, sameId, sameLogin, hash⟩ := reads
  have hidden : row.txn ≠ none := own ▸ Option.some_ne_none txn
  exact ⟨old, row, ⟨mem_committed_concat.mpr (.inl read),
    mem_append_right db.sessions (mem_singleton_self _), hidden,
    presented.trans hash, login.trans sameLogin.symm⟩, sameId, id, own, hash⟩

theorem effect_act (consistent : Consistent db.sessions db.nextId)
    (asserted : Asserted config txn db request)
    (allowed : ∀ clock session newId revokedAt, choice = .tick clock →
      request.pc = .commit session newId revokedAt → ∀ r ∈ db.sessions, r.id = session.id → P r)
    (acted : act config txn db request choice = some (db', request')) :
    Effect (some txn) P db db' ∧ Asserted config txn db' request' := by
  unfold Asserted at asserted
  cases acts_of_act acted with
  | denies now reason | fails refreshRaw csrf now => exact ⟨.same rfl rfl, trivial⟩
  | reads now refreshRaw session presented found =>
    obtain ⟨read, hash, -⟩ := activeSession_eq_some found
    refine ⟨.same rfl rfl, session, read, rfl, rfl, ?_⟩
    rw [Request.goto, presented, hash]
    rfl
  | goesOn now session finding =>
    simp only [finding] at asserted
    exact ⟨.same rfl rfl, asserted⟩
  | issues refreshRaw csrf now session row issuing unused new =>
    simp only [issuing] at asserted
    subst new
    refine ⟨.added _ ⟨rfl, unused, rfl, .inr ⟨Option.some_ne_none txn, ?_⟩⟩ rfl rfl,
      Reads.insert asserted rfl rfl rfl rfl⟩
    obtain ⟨old, read, -, login, -⟩ := asserted
    exact login ▸ (consistent.bound old (mem_committed.mp read).1).2
  | locks now session newId updating =>
    simp only [updating] at asserted
    exact ⟨.same rfl rfl, asserted⟩
  | commits now session newId revokedAt committing =>
    simp only [committing] at asserted
    obtain ⟨old, new, rotation, same, rfl, acting, -⟩ := asserted
    have allowed := allowed now session new.id revokedAt rfl committing old
      (mem_committed.mp rotation.read).1 same
    exact ⟨.rotated old new revokedAt rotation acting allowed (by rw [same]) rfl, trivial⟩
  | aborts => exact ⟨.dropped txn rfl rfl rfl, trivial⟩

theorem effect_env {event : EnvEvent} (changed : env config db event = some db') :
    Effect none P db db' := by
  cases event with
  | login userId refreshRaw csrf now =>
    simp only [env, Option.ite_none_right_eq_some, Option.some.injEq] at changed
    obtain ⟨⟨_, fresh⟩, rfl⟩ := changed
    exact .added _ ⟨rfl, fresh, rfl, .inl ⟨rfl, rfl, rfl⟩⟩ rfl rfl
  | revoke session now =>
    simp only [env, Option.ite_none_right_eq_some, Option.some.injEq] at changed
    obtain ⟨_, rfl⟩ := changed
    exact .revoked session now rfl rfl
  | saveUser user =>
    cases changed
    exact .same rfl rfl

structure Same (r r' : Session) : Prop where
  id : r'.id = r.id
  tokenHash : r'.tokenHash = r.tokenHash
  txn : r'.txn = r.txn
  issuedFor : r'.issuedFor = r.issuedFor
  login : r'.login = r.login

theorem Marks.same {f : Session → Session} {r : Session} (marks : Marks f)
    (txn : (f r).txn = r.txn) : Same r (f r) :=
  ⟨marks.id r, marks.tokenHash r, txn, marks.issuedFor r, marks.login r⟩

def Persists (own : Option Nat) (rows rows' : List Session) : Prop :=
  ∀ r ∈ rows, r.txn = none ∨ r.txn ≠ own → ∃ r' ∈ rows', Same r r'

def Lasts (rows rows' : List Session) : Prop :=
  ∀ r ∈ committed rows, ∃ r' ∈ committed rows', Same r r'

variable {rows rows' : List Session}

theorem Persists.lasts (persists : Persists own rows rows') : Lasts rows rows' := by
  intro r member
  obtain ⟨mem, visible⟩ := mem_committed.mp member
  obtain ⟨r', mem', same⟩ := persists r mem (.inl visible)
  exact ⟨r', mem_committed.mpr ⟨mem', same.txn.trans visible⟩, same⟩

theorem Lasts.of_eq (equal : committed rows' = committed rows) :
    Lasts rows rows' := by
  intro r member
  exact ⟨r, equal ▸ member, rfl, rfl, rfl, rfl, rfl⟩

theorem Asserted.inserts {newId : Nat} (asserted : Asserted config txn db request)
    (committing : request.pc = .commit session newId revokedAt) :
    ∃ old new, Inserts (request.refreshRaw.map config.hashRefreshToken) txn db.sessions session.id
      newId old new := by
  simpa only [Asserted, committing] using asserted

theorem Effect.consistent (effect : Effect own P db db')
    (consistent : Consistent db.sessions db.nextId) : Consistent db'.sessions db'.nextId := by
  cases effect with
  | same rows next =>
    rw [rows, next]
    exact consistent
  | revoked session now rows next =>
    rw [rows, next]
    exact consistent.revoke session now
  | added row fresh rows next =>
    rw [rows, next]
    exact consistent.concat fresh
  | dropped txn acting rows next =>
    rw [rows, next]
    exact consistent.filter fun r _ visible => by simp [visible]
  | rotated old new revokedAt rotation acting allowed rows next =>
    rw [rows, next]
    exact consistent.rotate rotation revokedAt

theorem Effect.persists (effect : Effect own P db db')
    (consistent : Consistent db.sessions db.nextId) : Persists own db.sessions db'.sessions := by
  intro r mem foreign
  cases effect with
  | same rows next => exact ⟨r, rows ▸ mem, rfl, rfl, rfl, rfl, rfl⟩
  | revoked session now rows next =>
    rw [rows]
    exact ⟨_, mem_map_of_mem mem, (marks_revoke session now).same (revoke_txn session now r)⟩
  | added row fresh rows next =>
    rw [rows]
    exact ⟨r, mem_append_left _ mem, rfl, rfl, rfl, rfl, rfl⟩
  | dropped txn acting rows next =>
    refine ⟨r, ?_, rfl, rfl, rfl, rfl, rfl⟩
    grind
  | rotated old new revokedAt rotation acting allowed rows next =>
    have other : r.id ≠ new.id := by
      intro same
      cases consistent.eq_of_id mem rotation.inserted same
      exact foreign.elim rotation.hidden fun apart => apart acting
    rw [rows]
    refine ⟨_, mem_map_of_mem mem, (marks_rotate old.id new.id revokedAt).same ?_⟩
    unfold Session.rotate
    split_ifs <;> rfl

theorem Asserted.of_persists (asserted : Asserted config txn db request)
    (persists : Persists own db.sessions db'.sessions) (foreign : own ≠ some txn) :
    Asserted config txn db' request := by
  have lasts := persists.lasts
  unfold Asserted at asserted ⊢
  cases pc : request.pc with
  | findUser session | issue session =>
    simp only [pc] at asserted ⊢
    obtain ⟨old, read, id, login, shown⟩ := asserted
    obtain ⟨old', read', same⟩ := lasts old read
    exact ⟨old', read', same.id.trans id, same.login.trans login,
      shown.trans (congrArg some same.tokenHash.symm)⟩
  | update session newId | commit session newId revokedAt =>
    simp only [pc] at asserted ⊢
    obtain ⟨old, new, ⟨read, inserted, hidden, presented, login⟩, rest⟩ := asserted
    obtain ⟨old', read', oldId, oldHash, -, -, oldLogin⟩ := lasts old read
    obtain ⟨new', inserted', newId, -, newTxn, newFor, newLogin⟩ := persists new inserted (by grind)
    refine ⟨old', new', ⟨read', inserted', ?_, ?_, ?_⟩, ?_, ?_, ?_, ?_⟩ <;> grind
  | entry | issued _ | denied _ | failed => trivial

abbrev Holds (config : Config) : State → Prop :=
  ThreadSystem.Holds (fun _ db => Consistent db.sessions db.nextId) (Asserted config)

variable {s : State}

theorem consistent_restart (consistent : Consistent db.sessions db.nextId) :
    Consistent (restart db).sessions (restart db).nextId :=
  consistent.filter fun _ _ visible => decide_eq_true visible

theorem holds_step (s : State) (event : Event) (t : State) (holds : Holds config s)
    (stepped : (server config).step s event = some t) : Holds config t := by
  refine ThreadSystem.step_holds (fun _ _ => True) ?_ ?_ ?_ ?_ s event t holds trivial stepped
  · intro _ db cookies consistent
    exact ⟨consistent, trivial⟩
  · intro s i request choice db' request' holds found _ acted
    obtain ⟨effect, asserted⟩ := effect_act (P := fun _ => True) holds.shared
      (holds.threads i request found) (by simp) acted
    refine ⟨effect.consistent holds.shared, asserted, ?_⟩
    intro j other different _ before
    refine before.of_persists (effect.persists holds.shared) ?_
    exact fun same => different (Option.some.inj same).symm
  · intro s event db' holds _ changed
    have effect := effect_env (P := fun _ => True) changed
    refine ⟨effect.consistent holds.shared, ?_⟩
    intro i request _ before
    exact before.of_persists (effect.persists holds.shared) (Option.some_ne_none i).symm
  · intro _ db
    exact consistent_restart

variable {t : State} {event : Event}

theorem unrotated_iff :
    unrotated s event = true ↔ ∀ i clock request session newId revokedAt,
      event = .act i (.tick clock) → s.threads[i]? = some request →
      request.pc = .commit session newId revokedAt →
      ∀ r ∈ s.shared.sessions, r.id = session.id → r.rotatedTo = none := by
  unfold unrotated
  grind

theorem effect_step (holds : Holds config s) (stepped : (server config).step s event = some t) :
    (∃ own, Effect own (fun r => unrotated s event = true → r.rotatedTo = none) s.shared t.shared) ∨
      t.shared = restart s.shared := by
  cases event with
  | enter cookies =>
    cases stepped
    exact .inl ⟨none, .same rfl rfl⟩
  | act i choice =>
    obtain ⟨request, db', request', found, acted, rfl⟩ := ThreadSystem.step_act_eq_some stepped
    refine .inl ⟨some i, (effect_act holds.shared (holds.threads i request found) ?_ acted).1⟩
    rintro clock session newId revokedAt rfl committing r mem same allowed
    exact unrotated_iff.mp allowed i clock request session newId revokedAt rfl found committing r
      mem same
  | env event =>
    obtain ⟨db', changed, rfl⟩ := Option.map_eq_some_iff.mp stepped
    exact .inl ⟨none, effect_env changed⟩
  | reset =>
    cases stepped
    exact .inr rfl

theorem lasts_step (holds : Holds config s) (stepped : (server config).step s event = some t) :
    Lasts s.shared.sessions t.shared.sessions := by
  obtain ⟨own, effect⟩ | restarted := effect_step holds stepped
  · exact (effect.persists holds.shared).lasts
  · rw [restarted]
    exact Lasts.of_eq (committed_filter fun _ _ visible => decide_eq_true visible)

theorem single_step (holds : Holds config s) (single : Single s.shared.sessions)
    (allowed : unrotated s event = true) (stepped : (server config).step s event = some t) :
    Single t.shared.sessions := by
  obtain ⟨own, effect⟩ | restarted := effect_step holds stepped
  · cases effect with
    | same rows next => exact rows ▸ single
    | revoked session now rows next => exact rows ▸ single.revoke session now
    | added row fresh rows next => exact rows ▸ single.concat holds.shared fresh
    | dropped txn acting rows next =>
      rw [rows]
      exact single.filter fun r _ visible => by simp [visible]
    | rotated old new revokedAt rotation acting unrotated rows next =>
      rw [rows]
      exact single.rotate holds.shared rotation (unrotated allowed) revokedAt
  · rw [restarted]
    exact single.filter fun _ _ visible => decide_eq_true visible

theorem Consistent.committed_ids (consistent : Consistent rows next) :
    ((committed rows).map Session.id).Nodup :=
  consistent.ids.sublist (filter_sublist.map Session.id)

theorem singleUse_of_single (consistent : Consistent db.sessions db.nextId)
    (single : Single db.sessions) : SingleUse config db := by
  constructor
  · intro token
    rw [countP_le_one_iff consistent.committed_ids]
    intro a ha b hb first second
    exact single.once a ha b hb _ (of_decide_eq_true first) (of_decide_eq_true second)
  · intro login now
    have leaf : ∀ r ∈ committed db.sessions, r.active now = true → r.rotatedTo = none := by
      intro r member active
      simp only [Session.active, Bool.and_eq_true, decide_eq_true_eq] at active
      by_contra rotated
      exact consistent.revoked r (mem_committed.mp member).1 rotated active.1
    rw [countP_le_one_iff consistent.committed_ids]
    intro a ha b hb first second
    simp only [Bool.and_eq_true, decide_eq_true_eq] at first second
    exact single.leaf a ha b hb (first.1.trans second.1.symm) (leaf a ha first.2)
      (leaf b hb second.2)

def Twice (h : String) (rows : List Session) : Prop :=
  ∃ a ∈ committed rows, ∃ b ∈ committed rows,
    a.id ≠ b.id ∧ a.issuedFor = some h ∧ b.issuedFor = some h

theorem Twice.of_lasts {h : String} (twice : Twice h rows) (lasts : Lasts rows rows') :
    Twice h rows' := by
  obtain ⟨a, ha, b, hb, different, first, second⟩ := twice
  obtain ⟨a', ha', sameA⟩ := lasts a ha
  obtain ⟨b', hb', sameB⟩ := lasts b hb
  refine ⟨a', ha', b', hb', ?_, sameA.issuedFor.trans first, sameB.issuedFor.trans second⟩
  rw [sameA.id, sameB.id]
  exact different

theorem Twice.not_singleUse {token : String}
    (twice : Twice (config.hashRefreshToken token) db.sessions)
    (consistent : Consistent db.sessions db.nextId) : ¬ SingleUse config db := by
  intro single
  obtain ⟨a, ha, b, hb, different, first, second⟩ := twice
  have once := (countP_le_one_iff consistent.committed_ids).mp (single.once token)
  exact different (once a ha b hb (decide_eq_true first) (decide_eq_true second))

theorem Rotation.twice {old new : Session} (rotation : Rotation rows old new)
    (consistent : Consistent rows next) (rotated : old.rotatedTo ≠ none) :
    Twice old.tokenHash (rows.map (Session.rotate old.id new.id revokedAt)) := by
  have marks := marks_rotate old.id new.id revokedAt
  obtain ⟨k, issued, presented⟩ :=
    consistent.rotated old (mem_committed.mp rotation.read).1 rotated
  refine ⟨_, marks.mem_committed issued, new.rotate old.id new.id revokedAt, ?_, ?_, ?_, ?_⟩
  · exact mem_committed.mpr ⟨mem_map_of_mem rotation.inserted,
      (rotate_txn (rotation.ne consistent) _ _).mpr (.inr rfl)⟩
  · rw [marks.id, marks.id]
    obtain ⟨mem, visible⟩ := mem_committed.mp issued
    exact fun same =>
      rotation.hidden (consistent.eq_of_id mem rotation.inserted same ▸ visible)
  · exact (marks.issuedFor k).trans presented
  · exact (marks.issuedFor new).trans rotation.presented

theorem twice_of_violation (holds : Holds config s) (violated : ¬ unrotated s event = true)
    (stepped : (server config).step s event = some t) :
    ∃ token, Twice (config.hashRefreshToken token) t.shared.sessions := by
  rw [unrotated_iff] at violated
  push Not at violated
  obtain ⟨i, clock, request, session, newId, revokedAt, rfl, found, committing, r, mem, same,
    rotated⟩ := violated
  obtain ⟨here, db', request', found', acted, rfl⟩ := ThreadSystem.step_act_eq_some stepped
  cases found.symm.trans found'
  simp only [server, act, committing, Option.some.injEq, Prod.mk.injEq] at acted
  obtain ⟨rfl, rfl⟩ := acted
  obtain ⟨old, new, inserts⟩ := (holds.threads i request found).inserts committing
  obtain ⟨token, _, hash⟩ := Option.map_eq_some_iff.mp inserts.presented
  have read := (mem_committed.mp inserts.rotation.read).1
  cases holds.shared.eq_of_id mem read (same.trans inserts.session.symm)
  refine ⟨token, ?_⟩
  rw [hash, ← inserts.newId, ← inserts.session]
  exact inserts.rotation.twice holds.shared rotated

theorem holds_start (config : Config) : Holds config { shared := {} } := by
  refine ⟨⟨nodup_nil, nodup_nil, ?_, ?_, ?_, ?_⟩, ?_⟩
  all_goals simp [committed]

/-- A token that was exchanged keeps its one row, and the row is never active again. -/
theorem exchanged_stays_revoked (config : Config) (events : List Event) :
    Between (server config).step (fun s t => ∀ r ∈ s.shared.sessions, r.rotatedTo ≠ none →
      ∃ r' ∈ committed t.shared.sessions, r'.revokedAt ≠ none ∧
        ∀ k ∈ t.shared.sessions, k.tokenHash = r.tokenHash ↔ k = r')
      { shared := {} } events := by
  intro before between s t _ first second r mem rotated
  have holds : Holds config s := run_invariant holds_step first (holds_start config)
  -- The session has a successor, the successor stays, and in every state its origin is rotated.
  obtain ⟨later, k, member, issued⟩ : Holds config t ∧
      ∃ k ∈ committed t.shared.sessions, k.issuedFor = some r.tokenHash := by
    refine run_invariant (I := fun u => Holds config u ∧
      ∃ k ∈ committed u.shared.sessions, k.issuedFor = some r.tokenHash) ?_ second
      ⟨holds, holds.shared.rotated r mem rotated⟩
    rintro u event v ⟨holds, k, member, issued⟩ stepped
    obtain ⟨k', member', same⟩ := lasts_step holds stepped k member
    exact ⟨holds_step u event v holds stepped, k', member', same.issuedFor.trans issued⟩
  obtain ⟨r', mem', hash, rotated'⟩ := later.shared.issued k member _ issued
  have present := (mem_committed.mp mem').1
  refine ⟨r', mem', later.shared.revoked r' present rotated', fun other found => ?_⟩
  exact ⟨fun same => later.shared.eq_of_hash found present (same.trans hash.symm), (· ▸ hash)⟩

theorem singleUse_iff_unrotated (config : Config) (events : List Event) (t : State)
    (path : run (server config).step { shared := {} } events = some t) :
    SingleUse config t.shared ↔
      Meets (server config).step (fun s event => unrotated s event = true) { shared := {} }
        events := by
  constructor
  · intro single
    by_contra violated
    obtain ⟨before, event, after, u, v, rfl, first, _, bad, stepped, rest⟩ :=
      exists_first_violation path violated
    have holds : Holds config u := run_invariant holds_step first (holds_start config)
    obtain ⟨token, twice⟩ := twice_of_violation holds bad stepped
    have lasting : Holds config t ∧ Twice (config.hashRefreshToken token) t.shared.sessions := by
      refine run_invariant (I := fun s => Holds config s ∧
        Twice (config.hashRefreshToken token) s.shared.sessions) ?_ rest
        ⟨holds_step u event v holds stepped, twice⟩
      rintro s e s' ⟨holds, twice⟩ moved
      exact ⟨holds_step s e s' holds moved, twice.of_lasts (lasts_step holds moved)⟩
    exact lasting.2.not_singleUse lasting.1.shared single
  · intro meets
    have final : Holds config t ∧ Single t.shared.sessions := by
      refine run_invariant_of_meets (I := fun s => Holds config s ∧ Single s.shared.sessions)
        ?_ path meets ⟨holds_start config, by simp [committed], by simp [committed]⟩
      rintro s e s' ⟨holds, single⟩ allowed moved
      exact ⟨holds_step s e s' holds moved, single_step holds single allowed moved⟩
    exact singleUse_of_single final.1.shared final.2

def plain : Config := { hashRefreshToken := id, refreshTtl := 100 }

def signedIn : List Event := [.env (.saveUser ⟨7, true⟩), .env (.login 7 "r0" "c0" 10)]

def presents (refreshRaw csrf : String) : Event := .enter ⟨some refreshRaw, some csrf, some csrf⟩

def checks (i now : Nat) : List Event := [.act i (.tick now), .act i (.tick now)]

def rotates (i now : Nat) (refreshRaw csrf : String) : List Event :=
  [.act i (.tokens refreshRaw csrf now), .act i (.tick now), .act i (.tick now)]

def inTurn : List Event :=
  signedIn ++ [presents "r0" "c0"] ++ checks 0 20 ++ rotates 0 20 "r1" "c1" ++
    [presents "r0" "c0", .act 1 (.tick 30)] ++
    [presents "r1" "c1"] ++ checks 2 40 ++ rotates 2 40 "r2" "c2"

theorem singleUse_inTurn :
    ∃ t, run (server plain).step { shared := {} } inTurn = some t ∧
      t.threads.map Request.pc = [.issued 2, .denied .invalidSession, .issued 3] ∧
      SingleUse plain t.shared := by
  have outcome : (run (server plain).step { shared := {} } inTurn).map
      (fun t => t.threads.map Request.pc) =
      some [.issued 2, .denied .invalidSession, .issued 3] := by decide +kernel
  obtain ⟨t, path, answers⟩ := Option.map_eq_some_iff.mp outcome
  exact ⟨t, path, answers, (singleUse_iff_unrotated plain inTurn t path).mpr (by decide +kernel)⟩

def raced : List Event :=
  signedIn ++ [presents "r0" "c0", presents "r0" "c0"] ++ checks 0 20 ++ checks 1 20 ++
    rotates 0 20 "r1" "c1" ++ rotates 1 20 "r2" "c2"

theorem raced_not_singleUse :
    ∃ t, run (server plain).step { shared := {} } raced = some t ∧
      t.threads.map Request.pc = [.issued 2, .issued 3] ∧
      (committed t.shared.sessions).countP (fun r => r.login = 1 && r.active 30) = 2 ∧
      ¬ SingleUse plain t.shared := by
  have outcome : (run (server plain).step { shared := {} } raced).map (fun t =>
      (t.threads.map Request.pc,
        (committed t.shared.sessions).countP (fun r => r.login = 1 && r.active 30))) =
      some ([.issued 2, .issued 3], 2) := by decide +kernel
  obtain ⟨t, path, seen⟩ := Option.map_eq_some_iff.mp outcome
  obtain ⟨answers, active⟩ := Prod.mk.inj seen
  refine ⟨t, path, answers, active, ?_⟩
  intro single
  exact absurd (single.active 1 30) (by rw [active]; decide)

end AlgoSystem.Proof.Auth
