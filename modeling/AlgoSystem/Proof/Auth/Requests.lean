import AlgoSystem.Auth.Refresh

namespace AlgoSystem.Proof.Auth
open AlgoSystem.Auth

variable {config : Config} {txn : Nat} {db db' : Db} {request request' : Request} {choice : Choice}
variable {refreshRaw : String} {now : Nat} {session : Session}

theorem activeSession_eq_some (found : activeSession config db refreshRaw now = some session) :
    session ∈ committed db.sessions ∧ session.tokenHash = config.hashRefreshToken refreshRaw ∧
      session.active now = true := by
  obtain ⟨located, active⟩ := Option.filter_eq_some_iff.mp found
  have hash := List.find?_some located
  exact ⟨List.mem_of_find?_eq_some located, of_decide_eq_true hash, active⟩

theorem findSession_cases (config : Config) (db : Db) (request : Request) (now : Nat) :
    (∃ reason, findSession config db request now = .denied reason) ∨
      ∃ refreshRaw session, request.refreshRaw = some refreshRaw ∧
        activeSession config db refreshRaw now = some session ∧
        findSession config db request now = .findUser session := by
  unfold findSession
  split
  · exact .inl ⟨_, rfl⟩
  · next refreshRaw present =>
    split
    · split_ifs with mismatch
      · exact .inl ⟨_, rfl⟩
      · split
        · exact .inl ⟨_, rfl⟩
        · next session found =>
          split_ifs with foreign
          · exact .inl ⟨_, rfl⟩
          · obtain ⟨cookie, -⟩ := Option.filter_eq_some_iff.mp present
            exact .inr ⟨refreshRaw, session, cookie, found, rfl⟩
    · exact .inl ⟨_, rfl⟩

inductive Acts (config : Config) (txn : Nat) (db : Db) (request : Request) :
    Choice → Db → Request → Prop where
  | denies (now : Nat) (reason : Denial) :
      Acts config txn db request (.tick now) db (request.goto (.denied reason))
  | reads (now : Nat) (refreshRaw : String) (session : Session)
      (presented : request.refreshRaw = some refreshRaw)
      (found : activeSession config db refreshRaw now = some session) :
      Acts config txn db request (.tick now) db (request.goto (.findUser session))
  | goesOn (now : Nat) (session : Session) (finding : request.pc = .findUser session) :
      Acts config txn db request (.tick now) db (request.goto (.issue session))
  | fails (refreshRaw csrf : String) (now : Nat) :
      Acts config txn db request (.tokens refreshRaw csrf now) db (request.goto .failed)
  | issues (refreshRaw csrf : String) (now : Nat) (session row : Session)
      (issuing : request.pc = .issue session)
      (unused : ∀ r ∈ db.sessions, r.tokenHash ≠ config.hashRefreshToken refreshRaw)
      (new : row =
        { id := db.nextId, userId := session.userId
          tokenHash := config.hashRefreshToken refreshRaw, csrfToken := csrf
          expiresAt := now + config.refreshTtl, txn := some txn
          issuedFor := request.refreshRaw.map config.hashRefreshToken, login := session.login }) :
      Acts config txn db request (.tokens refreshRaw csrf now) (db.insert row)
        (request.goto (.update session db.nextId))
  | locks (now : Nat) (session : Session) (newId : Nat)
      (updating : request.pc = .update session newId) :
      Acts config txn db request (.tick now) { db with locks := (session.id, txn) :: db.locks }
        (request.goto (.commit session newId now))
  | commits (now : Nat) (session : Session) (newId revokedAt : Nat)
      (committing : request.pc = .commit session newId revokedAt) :
      Acts config txn db request (.tick now)
        { db.release txn with
          sessions := db.sessions.map (Session.rotate session.id newId revokedAt) }
        (request.goto (.issued newId))
  | aborts : Acts config txn db request .abort (db.rollback txn) (request.goto .failed)

theorem acts_issueSession {csrf : String} (issuing : request.pc = .issue session)
    (acted : issueSession config txn db request session refreshRaw csrf now = some (db', request')) :
    Acts config txn db request (.tokens refreshRaw csrf now) db' request' := by
  unfold issueSession at acted
  dsimp only at acted
  split at acted
  · -- the token is in use
    obtain ⟨_, rfl, rfl⟩ := by simpa using acted
    exact .fails refreshRaw csrf now
  · next unused =>
    cases acted
    refine .issues refreshRaw csrf now session _ issuing ?_ rfl
    intro r mem same
    exact List.find?_eq_none.mp unused r mem (decide_eq_true same)

theorem acts_tick (acted : act config txn db request (.tick now) = some (db', request')) :
    Acts config txn db request (.tick now) db' request' := by
  cases pc : request.pc with
  | entry =>
    simp only [act, pc] at acted
    cases acted
    obtain ⟨reason, denied⟩ | ⟨refreshRaw, session, presented, active, found⟩ :=
      findSession_cases config db request now
    · rw [denied]
      exact .denies now reason
    · rw [found]
      exact .reads now refreshRaw session presented active
  | findUser session =>
    simp only [act, pc] at acted
    split_ifs at acted
    · cases acted
      exact .goesOn now session pc
    · cases acted
      exact .denies now .userInactive
  | update session newId =>
    simp only [act, pc, Option.ite_none_right_eq_some, Option.some.injEq, Prod.mk.injEq] at acted
    obtain ⟨-, rfl, rfl⟩ := acted
    exact .locks now session newId pc
  | commit session newId revokedAt =>
    simp only [act, pc] at acted
    cases acted
    exact .commits now session newId revokedAt pc
  | issue _ | issued _ | denied _ | failed => simp [act, pc] at acted

theorem acts_of_act (acted : act config txn db request choice = some (db', request')) :
    Acts config txn db request choice db' request' := by
  cases choice with
  | tick now => exact acts_tick acted
  | tokens refreshRaw csrf now =>
    cases pc : request.pc with
    | issue session =>
      simp only [act, pc] at acted
      exact acts_issueSession pc acted
    | entry | findUser _ | update _ _ | commit _ _ _ | issued _ | denied _ | failed =>
      simp [act, pc] at acted
  | abort =>
    simp only [act] at acted
    split at acted <;> cases acted
    exact .aborts

end AlgoSystem.Proof.Auth
