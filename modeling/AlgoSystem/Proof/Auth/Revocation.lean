import AlgoSystem.Auth.Revocation
import AlgoSystem.Proof.Auth.Requests

namespace AlgoSystem.Proof.Auth.Revocation
open AlgoSystem.Auth AlgoSystem.Auth.Revocation General List

def Void (log : List Entry) (login : Nat) : Prop :=
  ∃ userId, [.loggedIn login userId, .revoked userId].Sublist log

/-- Tokens that come by rotation from one login carry its number: those issued before a revocation
and those obtained from them later are the tokens of the logins before it. -/
def Honoured (log : List Entry) : Prop :=
  ∀ login userId,
    ¬ [.loggedIn login userId, .revoked userId, .exchanged login].Sublist log

def held : Thread → Option Session
  | .refresh request =>
    match request.pc with
    | .findUser session | .issue session | .update session _ | .commit session _ _ => some session
    | .entry | .issued _ | .denied _ | .failed => none
  | .login _ _ | .logout _ _ | .revoke _ _ _ => none

/-- When a revocation commits, no refresh holds a session of the user, and the UPDATE has locked
every row of the user that is not revoked. -/
def settled (s : Revocation.State) : Revocation.Event → Bool
  | .act i (.tick _) =>
    match s.threads[i]? with
    | some (.revoke _ userId (.update _ [] locked _)) =>
      (s.threads.all fun thread => (held thread).all fun session => session.userId ≠ userId) &&
      s.shared.sessions.all fun r =>
        r.userId ≠ userId || r.revokedAt ≠ none || decide (r.id ∈ locked)
    | _ => true
  | _ => true

variable {log : List Entry} {login userId : Nat}

variable {other : Nat}

theorem void_loggedIn :
    Void (log ++ [.loggedIn other userId]) login ↔ Void log login := by
  simp [Void, pair_sublist_concat]

theorem void_exchanged :
    Void (log ++ [.exchanged other]) login ↔ Void log login := by
  simp [Void, pair_sublist_concat]

theorem void_revoked :
    Void (log ++ [.revoked userId]) login ↔ Void log login ∨ .loggedIn login userId ∈ log := by
  simp [Void, pair_sublist_concat, exists_or]

theorem Honoured.concat {entry : Entry} (honoured : Honoured log)
    (allowed : ∀ login, entry = .exchanged login → ¬ Void log login) :
    Honoured (log ++ [entry]) := by
  intro login userId mem
  have split : ([Entry.loggedIn login userId, .revoked userId] ++
      [Entry.exchanged login]).Sublist (log ++ [entry]) := mem
  obtain before | ⟨revoked, last⟩ := concat_sublist_concat.mp split
  · exact honoured login userId before
  · exact allowed login last.symm ⟨userId, revoked⟩

structure Live (log : List Entry) (session : Session) : Prop where
  recorded : .loggedIn session.login session.userId ∈ log
  valid : ¬ Void log session.login

variable {session : Session}

theorem Live.loggedIn (live : Live log session) :
    Live (log ++ [.loggedIn other userId]) session :=
  ⟨mem_append_left _ live.recorded, void_loggedIn.not.mpr live.valid⟩

theorem Live.exchanged (live : Live log session) :
    Live (log ++ [.exchanged other]) session :=
  ⟨mem_append_left _ live.recorded, void_exchanged.not.mpr live.valid⟩

structure Sound (log : List Entry) (rows : List Session) (next : Nat) : Prop where
  bound : ∀ login userId, .loggedIn login userId ∈ log → login < next
  owner : ∀ login user other, .loggedIn login user ∈ log → .loggedIn login other ∈ log →
    user = other
  recorded : ∀ r ∈ rows, .loggedIn r.login r.userId ∈ log
  dead : ∀ r ∈ rows, Void log r.login → r.revokedAt ≠ none
  honoured : Honoured log

variable {rows rows' : List Session} {next : Nat}

theorem Live.revoked (live : Live log session) (sound : Sound log rows next)
    (other : session.userId ≠ userId) : Live (log ++ [.revoked userId]) session := by
  refine ⟨mem_append_left _ live.recorded, void_revoked.not.mpr ?_⟩
  rintro (void | recorded)
  · exact live.valid void
  · exact other (sound.owner _ _ _ live.recorded recorded)

def Descends (rows rows' : List Session) : Prop :=
  ∀ r' ∈ rows', ∃ r ∈ rows,
    r'.login = r.login ∧ r'.userId = r.userId ∧ (r'.revokedAt = none → r.revokedAt = none)

theorem Descends.of_subset (subset : rows' ⊆ rows) :
    Descends rows rows' := by
  intro r mem
  exact ⟨r, subset mem, rfl, rfl, id⟩

section
variable (rows : List Session)

theorem Descends.map {f : Session → Session} (login : ∀ r, (f r).login = r.login)
    (userId : ∀ r, (f r).userId = r.userId)
    (revokedAt : ∀ r, (f r).revokedAt = none → r.revokedAt = none) :
    Descends rows (rows.map f) := by
  intro r' mem
  obtain ⟨r, old, rfl⟩ := mem_map.mp mem
  exact ⟨r, old, login r, userId r, revokedAt r⟩

theorem descends_rotate (session newId now : Nat) :
    Descends rows (rows.map (Session.rotate session newId now)) := by
  apply Descends.map
  all_goals
    intro r
    unfold Session.rotate
    split_ifs <;> simp

theorem descends_revoke (session now : Nat) :
    Descends rows (rows.map (Session.revoke session now)) := by
  apply Descends.map
  all_goals
    intro r
    unfold Session.revoke
    split_ifs <;> simp

theorem descends_revokeAll (ids : List Nat) (now : Nat) :
    Descends rows (rows.map (revokeAll ids now)) := by
  apply Descends.map
  all_goals
    intro r
    unfold revokeAll
    split_ifs <;> simp

end

section
variable (sound : Sound log rows next)
include sound

theorem Sound.live_of_unrevoked (mem : session ∈ rows) (unrevoked : session.revokedAt = none) :
    Live log session :=
  ⟨sound.recorded session mem, fun void => sound.dead session mem void unrevoked⟩

theorem Sound.descend (descends : Descends rows rows') : Sound log rows' next where
  bound := sound.bound
  owner := sound.owner
  recorded := by
    intro r' mem
    obtain ⟨r, old, login, userId, _⟩ := descends r' mem
    rw [login, userId]
    exact sound.recorded r old
  dead := by
    intro r' mem void unrevoked
    obtain ⟨r, old, login, _, revokedAt⟩ := descends r' mem
    exact sound.dead r old (login ▸ void) (revokedAt unrevoked)
  honoured := sound.honoured

theorem Sound.issue {row : Session} (live : Live log session) (login : row.login = session.login)
    (userId : row.userId = session.userId) : Sound log (rows ++ [row]) (next + 1) where
  bound := fun login userId recorded => Nat.lt_succ_of_lt (sound.bound login userId recorded)
  owner := sound.owner
  recorded := by
    rw [forall_mem_append]
    exact ⟨sound.recorded, by simpa [login, userId] using live.recorded⟩
  dead := by
    rw [forall_mem_append]
    refine ⟨sound.dead, ?_⟩
    rintro r (last : r ∈ [row]) void
    cases mem_singleton.mp last
    exact absurd (login ▸ void) live.valid
  honoured := sound.honoured

theorem Sound.loggedIn {row : Session} (login : row.login = next) (owner : row.userId = userId) :
    Sound (log ++ [.loggedIn next userId]) (rows ++ [row]) (next + 1) := by
  have unused : ∀ other, .loggedIn next other ∉ log := by
    intro other recorded
    exact Nat.lt_irrefl _ (sound.bound next other recorded)
  have cases : ∀ login other, .loggedIn login other ∈ log ++ [.loggedIn next userId] →
      .loggedIn login other ∈ log ∨ login = next ∧ other = userId := by
    simp
  constructor
  · intro login other recorded
    obtain old | ⟨rfl, _⟩ := cases _ _ recorded
    · exact Nat.lt_succ_of_lt (sound.bound login other old)
    · exact Nat.lt_succ_self _
  · intro login user other first second
    obtain old | ⟨rfl, rfl⟩ := cases _ _ first <;> obtain old' | ⟨same, rfl⟩ := cases _ _ second
    · exact sound.owner login user other old old'
    · exact absurd (same ▸ old) (unused user)
    · exact absurd old' (unused other)
    · rfl
  · rw [forall_mem_append]
    refine ⟨fun r old => mem_append_left _ (sound.recorded r old), ?_⟩
    simp [login, owner]
  · rw [forall_mem_append]
    refine ⟨fun r old void => sound.dead r old (void_loggedIn.mp void), ?_⟩
    intro r last void
    obtain ⟨other, pair⟩ := void_loggedIn.mp void
    rw [mem_singleton.mp last, login] at pair
    exact absurd (pair.subset mem_cons_self) (unused other)
  · exact sound.honoured.concat nofun

theorem Sound.concat {entry : Entry} (silent : ∀ login userId, .loggedIn login userId ≠ entry)
    (dead : ∀ r ∈ rows, Void (log ++ [entry]) r.login → r.revokedAt ≠ none)
    (allowed : ∀ login, entry = .exchanged login → ¬ Void log login) :
    Sound (log ++ [entry]) rows next := by
  have same : ∀ login userId, .loggedIn login userId ∈ log ++ [entry] ↔
      .loggedIn login userId ∈ log := by
    simp [silent]
  refine ⟨?_, ?_, ?_, dead, sound.honoured.concat allowed⟩ <;> simp only [same]
  exacts [sound.bound, sound.owner, sound.recorded]

theorem Sound.exchange (live : Live log session) :
    Sound (log ++ [.exchanged session.login]) rows next := by
  refine sound.concat nofun (fun r mem void => sound.dead r mem (void_exchanged.mp void)) ?_
  rintro login ⟨⟩
  exact live.valid

end

variable {db : Db} {userId : Nat}

theorem Sound.revoke (sound : Sound log rows next) {ids : List Nat} (now : Nat)
    (locked : ∀ r ∈ rows, r.userId = userId → r.revokedAt = none → r.id ∈ ids) :
    Sound (log ++ [.revoked userId]) (rows.map (revokeAll ids now)) next := by
  have before := sound.descend (descends_revokeAll rows ids now)
  refine before.concat nofun ?_ nofun
  intro r' mem void
  obtain old | recorded := void_revoked.mp void
  · exact before.dead r' mem old
  · have owner : r'.userId = userId := before.owner _ _ _ (before.recorded r' mem) recorded
    obtain ⟨r, present, rfl⟩ := mem_map.mp mem
    unfold revokeAll at owner ⊢
    split_ifs at owner ⊢ with listed
    · exact Option.some_ne_none now
    · exact fun unrevoked => listed (locked r present owner unrevoked)

inductive Move (db : Db) (before : Option Session) (db' : Db) (after : Option Session) : Prop where
  | keeps (rows : Descends db.sessions db'.sessions) (next : db'.nextId = db.nextId)
      (holds : after = none ∨ after = before)
  | reads (session : Session) (mem : session ∈ db.sessions) (active : session.revokedAt = none)
      (same : db' = db) (holds : after = some session)
  | issues (session row : Session) (holding : before = some session)
      (login : row.login = session.login) (userId : row.userId = session.userId)
      (rows : db'.sessions = db.sessions ++ [row]) (next : db'.nextId = db.nextId + 1)
      (holds : after = some session)

variable {config : Config} {txn : Nat} {request request' : Request} {choice : Choice} {db' : Db}

theorem Move.same (db : Db) {before after : Option Session}
    (holds : after = none ∨ after = before) : Move db before db after :=
  .keeps (.of_subset (List.Subset.refl _)) rfl holds

theorem move_act (acted : act config txn db request choice = some (db', request')) :
    Move db (held (.refresh request)) db' (held (.refresh request')) := by
  cases acts_of_act acted with
  | denies now reason | fails refreshRaw csrf now => exact .same db (.inl rfl)
  | reads now refreshRaw session presented found =>
    obtain ⟨read, -, active⟩ := activeSession_eq_some found
    simp only [Session.active, Bool.and_eq_true, decide_eq_true_eq] at active
    exact .reads session (mem_of_mem_filter read) active.1 rfl rfl
  | goesOn now session finding => exact .same db (.inr (by simp [held, Request.goto, finding]))
  | issues refreshRaw csrf now session row issuing unused new =>
    have holding : held (.refresh request) = some session := by simp [held, issuing]
    exact .issues session row holding (by rw [new]) (by rw [new]) rfl rfl rfl
  | locks now session newId updating =>
    exact .keeps (.of_subset (List.Subset.refl _)) rfl
      (.inr (by simp [held, Request.goto, updating]))
  | commits now session newId revokedAt committing =>
    exact .keeps (descends_rotate db.sessions session.id newId revokedAt) rfl (.inl rfl)
  | aborts => exact .keeps (.of_subset fun _ => mem_of_mem_filter) rfl (.inl rfl)

theorem exchanges_eq (request request' : Request) :
    exchanges request.pc request'.pc = [] ∨
      ∃ session, held (.refresh request) = some session ∧ held (.refresh request') = none ∧
        exchanges request.pc request'.pc = [.exchanged session.login] := by
  unfold exchanges
  split
  · next session _ _ _ committing issued =>
    exact .inr ⟨session, by simp [held, committing], by simp [held, issued], rfl⟩
  · exact .inl rfl

def Asserted (log : List Entry) (thread : Thread) : Prop :=
  ∀ session, held thread = some session → Live log session

abbrev Holds : Revocation.State → Prop :=
  ThreadSystem.Holds (fun _ world => Sound world.log world.sessions world.nextId)
    fun _ world => Asserted world.log

structure Kept (s : Revocation.State) (i : Nat) (world : World) (thread : Thread) : Prop where
  sound : Sound world.log world.sessions world.nextId
  own : Asserted world.log thread
  others : ∀ j other, j ≠ i → s.threads[j]? = some other → Asserted s.shared.log other →
    Asserted world.log other

variable {s : Revocation.State} {i : Nat} {thread : Thread} {world : World}

theorem asserted_of_held_none (nothing : held thread = none) : Asserted log thread := by
  intro session holding
  rw [nothing] at holding
  cases holding

theorem Kept.unlogged (sound : Sound s.shared.log db.sessions db.nextId)
    (own : Asserted s.shared.log thread) : Kept s i (s.shared.note db []) thread := by
  have log : (s.shared.note db []).log = s.shared.log := append_nil _
  constructor <;> rw [log]
  exacts [sound, own, fun _ _ _ _ before => before]

theorem kept_refresh (holds : Holds s) (found : s.threads[i]? = some (.refresh request))
    (acted : refresh config i s.shared request choice = some (world, thread)) :
    Kept s i world thread := by
  obtain ⟨⟨db', request'⟩, performed, moved⟩ := Option.map_eq_some_iff.mp acted
  cases moved
  have own := holds.threads i _ found
  have sound := holds.shared
  obtain silent | ⟨session, holding, finished, exchanged⟩ := exchanges_eq request request'
  · rw [silent]
    cases move_act performed with
    | keeps rows next after =>
      refine .unlogged (next ▸ sound.descend rows) ?_
      obtain none | same := after
      · exact asserted_of_held_none none
      · exact fun session holding => own session (same ▸ holding)
    | reads session mem active same after =>
      subst same
      refine .unlogged sound fun read holding => ?_
      rw [after] at holding
      cases holding
      exact sound.live_of_unrevoked mem active
    | issues session row holding login userId rows next after =>
      refine .unlogged (rows ▸ next ▸ sound.issue (own session holding) login userId) ?_
      exact fun kept holding' => own kept (holding.trans (after.symm.trans holding'))
  · rw [exchanged]
    have live := own session holding
    cases move_act performed with
    | keeps rows next _ =>
      refine ⟨next ▸ (sound.descend rows).exchange live, asserted_of_held_none finished, ?_⟩
      intro j other _ _ before kept holding'
      exact (before kept holding').exchanged
    | reads _ _ _ _ after | issues _ _ _ _ _ _ _ after =>
      rw [finished] at after
      cases after

theorem kept_same (holds : Holds s) (nothing : held thread = none) :
    Kept s i s.shared thread :=
  ⟨holds.shared, asserted_of_held_none nothing, fun _ _ _ _ before => before⟩

theorem kept_login {pc : LoginPc} (holds : Holds s)
    (acted : Revocation.login config s.shared userId pc choice = some (world, thread)) :
    Kept s i world thread := by
  cases choice with
  | tick now =>
    cases pc with
    | entry =>
      cases acted
      exact kept_same holds rfl
    | issue | issued | denied | failed => cases acted
  | tokens refreshRaw csrf now =>
    cases pc with
    | issue =>
      unfold Revocation.login at acted
      dsimp only at acted
      split at acted
      · obtain ⟨_, rfl, rfl⟩ := by simpa using acted
        exact kept_same holds rfl
      · cases acted
        refine ⟨holds.shared.loggedIn rfl rfl, asserted_of_held_none rfl, ?_⟩
        intro j other _ _ before session holding
        exact (before session holding).loggedIn
    | entry | issued | denied | failed => cases acted
  | abort =>
    cases pc with
    | entry | issue =>
      cases acted
      exact kept_same holds rfl
    | issued | denied | failed => cases acted

theorem kept_logout {cookies : Cookies} {pc : LogoutPc} (holds : Holds s)
    (acted : logout config s.shared cookies pc choice = some (world, thread)) :
    Kept s i world thread := by
  cases choice with
  | tick now =>
    cases pc with
    | entry =>
      unfold logout at acted
      dsimp only at acted
      split at acted
      all_goals
        cases acted
        exact kept_same holds rfl
    | revoke session =>
      simp only [logout, Option.ite_none_right_eq_some, Option.some.injEq, Prod.mk.injEq] at acted
      obtain ⟨_, rfl, rfl⟩ := acted
      exact .unlogged (holds.shared.descend (descends_revoke _ session.id now))
        (asserted_of_held_none rfl)
    | done | failed => cases acted
  | tokens refreshRaw csrf now => cases acted
  | abort =>
    cases pc with
    | entry | revoke session =>
      cases acted
      exact kept_same holds rfl
    | done | failed => cases acted

theorem settled_commit {kind : Kind} {now revokedAt : Nat} {user : User} {locked : List Nat}
    (found : s.threads[i]? = some (.revoke kind userId (.update user [] locked revokedAt)))
    (allowed : settled s (.act i (.tick now)) = true) :
    (∀ (j : Nat) other session, s.threads[j]? = some other → held other = some session →
      session.userId ≠ userId) ∧
    ∀ r ∈ s.shared.sessions, r.userId = userId → r.revokedAt = none → r.id ∈ locked := by
  simp only [settled, found, Bool.and_eq_true, all_eq_true] at allowed
  obtain ⟨free, rows⟩ := allowed
  constructor
  · intro j other session present holding
    have clear := free other (mem_of_getElem? present)
    rw [holding] at clear
    simpa using clear
  · intro r mem owner unrevoked
    simpa [owner, unrevoked] using rows r mem

theorem kept_revoke {kind : Kind} {pc : RevokePc} (holds : Holds s)
    (found : s.threads[i]? = some (.revoke kind userId pc))
    (allowed : settled s (.act i choice) = true)
    (acted : revoke i s.shared kind userId pc choice = some (world, thread)) :
    Kept s i world thread := by
  have sound := holds.shared
  cases choice with
  | tick now =>
    cases pc with
    | entry =>
      unfold revoke at acted
      dsimp only at acted
      split at acted
      · cases acted
        exact kept_same holds rfl
      · split_ifs at acted
        all_goals
          cases acted
          exact kept_same holds rfl
    | revoke user =>
      cases acted
      exact kept_same holds rfl
    | update user pending locked revokedAt =>
      cases pending with
      | nil =>
        cases acted
        obtain ⟨free, rows⟩ := settled_commit found allowed
        refine ⟨sound.revoke _ rows, asserted_of_held_none rfl, ?_⟩
        intro j other _ present before session holding
        exact (before session holding).revoked sound (free j other session present holding)
      | cons id pending =>
        simp only [revoke] at acted
        split_ifs at acted
        · cases acted
          exact .unlogged sound (asserted_of_held_none rfl)
        · cases acted
          exact kept_same holds rfl
    | done | unknownUser | failed => cases acted
  | tokens refreshRaw csrf now => cases acted
  | abort =>
    cases pc with
    | entry | revoke user | update user pending locked revokedAt =>
      cases acted
      exact .unlogged (sound.descend (.of_subset fun _ => mem_of_mem_filter))
        (asserted_of_held_none rfl)
    | done | unknownUser | failed => cases acted

theorem holds_step (s : Revocation.State) (event : Revocation.Event) (t : Revocation.State)
    (holds : Holds s) (allowed : settled s event = true)
    (stepped : (Revocation.server config).step s event = some t) : Holds t := by
  refine ThreadSystem.step_holds (fun s event => settled s event = true) ?_ ?_ ?_ ?_
    s event t holds allowed stepped
  · intro _ world call sound
    refine ⟨sound, asserted_of_held_none ?_⟩
    cases call <;> rfl
  · intro s i thread choice world thread' holds found allowed acted
    have kept : Kept s i world thread' := by
      cases thread with
      | refresh request => exact kept_refresh holds found acted
      | login userId pc => exact kept_login holds acted
      | logout cookies pc => exact kept_logout holds acted
      | revoke kind userId pc => exact kept_revoke holds found allowed acted
    exact ⟨kept.sound, kept.own, kept.others⟩
  · intro s user world holds _ changed
    cases changed
    have log : (saveUser s.shared user).log = s.shared.log := append_nil _
    rw [log]
    exact ⟨holds.shared, fun _ _ _ before => before⟩
  · intro _ world sound
    show Sound (world.log ++ []) _ _
    rw [append_nil]
    exact sound.descend (.of_subset fun _ => mem_of_mem_filter)

theorem holds_start (users : List User) :
    Holds { shared := { users } } := by
  refine ⟨⟨?_, ?_, ?_, ?_, ?_⟩, ?_⟩ <;> simp [Honoured]

theorem revoked_not_exchanged (config : Config) (users : List User)
    {events : List Revocation.Event} {t : Revocation.State}
    (path : run (Revocation.server config).step { shared := { users } } events = some t)
    (meets : Meets (Revocation.server config).step (fun s event => settled s event = true)
      { shared := { users } } events) :
    Honoured t.shared.log :=
  (run_invariant_of_meets holds_step path meets (holds_start users)).shared.honoured

def plainTokens : Config := { hashRefreshToken := id, refreshTtl := 100 }

def starts (call : Call) : List Revocation.Event := [.enter call]

def ticks (i now count : Nat) : List Revocation.Event := List.replicate count (.act i (.tick now))

def signsIn (i now : Nat) (refreshRaw csrf : String) : List Revocation.Event :=
  starts (.login 7) ++ ticks i now 1 ++ [.act i (.tokens refreshRaw csrf now)]

def presents (refreshRaw csrf : String) : Call := .refresh ⟨some refreshRaw, some csrf, some csrf⟩

def issues (i now : Nat) (refreshRaw csrf : String) : List Revocation.Event :=
  .act i (.tokens refreshRaw csrf now) :: ticks i now 2

def passwordChanged : List Revocation.Event :=
  signsIn 0 10 "r0" "c0" ++ starts (presents "r0" "c0") ++ ticks 1 20 2 ++ issues 1 20 "r1" "c1" ++
    starts (.revoke .changePassword 7) ++ ticks 2 30 4 ++
    starts (presents "r1" "c1") ++ ticks 3 40 1 ++
    signsIn 4 50 "r2" "c2" ++ starts (presents "r2" "c2") ++ ticks 5 60 2 ++ issues 5 60 "r3" "c3"

theorem passwordChanged_honoured :
    ∃ t, run (Revocation.server plainTokens).step { shared := { users := [⟨7, true⟩] } }
        passwordChanged = some t ∧
      t.shared.log =
        [.loggedIn 1 7, .exchanged 1, .revoked 7, .loggedIn 3 7, .exchanged 3] ∧
      Honoured t.shared.log := by
  have outcome : (run (Revocation.server plainTokens).step
      { shared := { users := [⟨7, true⟩] } } passwordChanged).map (fun t => t.shared.log) =
      some [.loggedIn 1 7, .exchanged 1, .revoked 7, .loggedIn 3 7, .exchanged 3] := by
    decide +kernel
  obtain ⟨t, path, log⟩ := Option.map_eq_some_iff.mp outcome
  exact ⟨t, path, log, revoked_not_exchanged plainTokens [⟨7, true⟩] path (by decide +kernel)⟩

def overtaken : List Revocation.Event :=
  signsIn 0 10 "r0" "c0" ++ starts (presents "r0" "c0") ++ ticks 1 20 2 ++
    starts (.revoke .changePassword 7) ++ ticks 2 30 4 ++ issues 1 40 "r1" "c1" ++
    starts (presents "r1" "c1") ++ ticks 3 50 2 ++ issues 3 50 "r2" "c2"

theorem overtaken_not_honoured :
    ∃ t, run (Revocation.server plainTokens).step { shared := { users := [⟨7, true⟩] } }
        overtaken = some t ∧
      t.shared.log = [.loggedIn 1 7, .revoked 7, .exchanged 1, .exchanged 1] ∧
      ¬ Honoured t.shared.log := by
  have outcome : (run (Revocation.server plainTokens).step
      { shared := { users := [⟨7, true⟩] } } overtaken).map (fun t => t.shared.log) =
      some [.loggedIn 1 7, .revoked 7, .exchanged 1, .exchanged 1] := by
    decide +kernel
  obtain ⟨t, path, log⟩ := Option.map_eq_some_iff.mp outcome
  refine ⟨t, path, log, ?_⟩
  intro honoured
  rw [log] at honoured
  exact honoured 1 7 (by decide)

end AlgoSystem.Proof.Auth.Revocation
