import AlgoSystem.General.Threads

/-!
`trading/api/auth_routes.py`: requests to `/refresh` are threads over `auth_sessions` and `users` at
READ COMMITTED, and each query, flush and commit is an action. The unique index on `token_hash` sees
an inserted row at once, queries see it when it is committed. An updated row is locked until the end
of its transaction.
-/

namespace AlgoSystem.Auth
open General

structure Config where
  hashRefreshToken : String → String
  refreshTtl : Nat

structure Session where
  id : Nat
  userId : Nat
  tokenHash : String
  csrfToken : String
  expiresAt : Nat
  revokedAt : Option Nat := none
  rotatedTo : Option Nat := none
  txn : Option Nat := none
  /-- The hash of the token that the request for this session presented; a login presents none. -/
  issuedFor : Option String := none
  /-- The session of the login from which this one comes by rotation. -/
  login : Nat
  deriving DecidableEq

def Session.active (now : Nat) (r : Session) : Bool := r.revokedAt = none && now < r.expiresAt

structure User where
  id : Nat
  isActive : Bool

structure Db where
  sessions : List Session := []
  users : List User := []
  nextId : Nat := 1
  locks : List (Nat × Nat) := []

def committed (rows : List Session) : List Session := rows.filter fun r => r.txn = none

def Db.userActive (db : Db) (id : Nat) : Bool :=
  (db.users.find? fun user => user.id = id).any User.isActive

def activeSession (config : Config) (db : Db) (refreshRaw : String) (now : Nat) :
    Option Session :=
  ((committed db.sessions).find? fun r =>
    r.tokenHash = config.hashRefreshToken refreshRaw).filter (Session.active now)

def Db.insert (db : Db) (row : Session) : Db :=
  { db with sessions := db.sessions ++ [row], nextId := db.nextId + 1 }

def Db.free (db : Db) (row : Nat) : Bool := db.locks.all fun lock => lock.1 ≠ row

def Db.release (db : Db) (txn : Nat) : Db :=
  { db with locks := db.locks.filter fun lock => lock.2 ≠ txn }

def Db.rollback (db : Db) (txn : Nat) : Db :=
  { db.release txn with sessions := db.sessions.filter fun r => r.txn ≠ some txn }

inductive Denial where
  | noCookie
  | csrfMismatch
  | invalidSession
  | userInactive
  deriving DecidableEq

inductive Pc where
  | entry
  | findUser (session : Session)
  | issue (session : Session)
  -- the two halves of `db.commit()`: the UPDATE of the session that was read, then COMMIT
  | update (session : Session) (newId : Nat)
  | commit (session : Session) (newId revokedAt : Nat)
  | issued (newId : Nat)
  | denied (reason : Denial)
  | failed
  deriving DecidableEq

structure Cookies where
  refreshRaw : Option String
  csrfCookie : Option String
  xCsrfToken : Option String

structure Request extends Cookies where
  pc : Pc := .entry

def Request.goto (request : Request) (pc : Pc) : Request := { request with pc }

def given (value : Option String) : Option String := value.filter fun text => text ≠ ""

def findSession (config : Config) (db : Db) (request : Request) (now : Nat) : Pc :=
  match given request.refreshRaw with
  | none => .denied .noCookie
  | some refreshRaw =>
    match given request.xCsrfToken, given request.csrfCookie with
    | some xCsrfToken, some csrfCookie =>
      if xCsrfToken ≠ csrfCookie then .denied .csrfMismatch
      else match activeSession config db refreshRaw now with
        | none => .denied .invalidSession
        | some session =>
          if session.csrfToken ≠ xCsrfToken then .denied .invalidSession
          else .findUser session
    | _, _ => .denied .csrfMismatch

/-- `_issue_session`: an INSERT waits for the transaction that has inserted the same token, and
fails when that token is committed. -/
def issueSession (config : Config) (txn : Nat) (db : Db) (request : Request) (session : Session)
    (refreshRaw csrf : String) (now : Nat) : Option (Db × Request) :=
  let tokenHash := config.hashRefreshToken refreshRaw
  match db.sessions.find? fun r => r.tokenHash = tokenHash with
  | some other => if other.txn = none then some (db, request.goto .failed) else none
  | none =>
    some (db.insert
      { id := db.nextId, userId := session.userId, tokenHash, csrfToken := csrf
        expiresAt := now + config.refreshTtl, txn := some txn
        issuedFor := request.refreshRaw.map config.hashRefreshToken, login := session.login },
      request.goto (.update session db.nextId))

def Session.rotate (session newId now : Nat) (r : Session) : Session :=
  if r.id = session then { r with revokedAt := some now, rotatedTo := some newId }
  else if r.id = newId then { r with txn := none }
  else r

/-- What the code does not decide: the clock, the new tokens, and whether a step raises. -/
inductive Choice where
  | tick (now : Nat)
  | tokens (refreshRaw csrf : String) (now : Nat)
  | abort

def act (config : Config) (txn : Nat) (db : Db) (request : Request) :
    Choice → Option (Db × Request)
  | .tick now =>
    match request.pc with
    | .entry => some (db, request.goto (findSession config db request now))
    | .findUser session =>
      if db.userActive session.userId then some (db, request.goto (.issue session))
      else some (db, request.goto (.denied .userInactive))
    | .update session newId =>
      if db.free session.id then
        some ({ db with locks := (session.id, txn) :: db.locks },
          request.goto (.commit session newId now))
      else none
    | .commit session newId revokedAt =>
      some ({ db.release txn with
          sessions := db.sessions.map (Session.rotate session.id newId revokedAt) },
        request.goto (.issued newId))
    | .issue _ | .issued _ | .denied _ | .failed => none
  | .tokens refreshRaw csrf now =>
    match request.pc with
    | .issue session => issueSession config txn db request session refreshRaw csrf now
    | _ => none
  | .abort =>
    match request.pc with
    | .issued _ | .denied _ | .failed => none
    | _ => some (db.rollback txn, request.goto .failed)

inductive EnvEvent where
  | login (userId : Nat) (refreshRaw csrf : String) (now : Nat)
  | revoke (session now : Nat)
  | saveUser (user : User)

def Session.revoke (session now : Nat) (r : Session) : Session :=
  if r.id = session ∧ r.txn = none then { r with revokedAt := some now } else r

def env (config : Config) (db : Db) : EnvEvent → Option Db
  | .login userId refreshRaw csrf now =>
    let tokenHash := config.hashRefreshToken refreshRaw
    if db.userActive userId ∧ ∀ r ∈ db.sessions, r.tokenHash ≠ tokenHash then
      some (db.insert
        { id := db.nextId, userId, tokenHash, csrfToken := csrf
          expiresAt := now + config.refreshTtl, login := db.nextId })
    else none
  | .revoke session now =>
    if db.free session then
      some { db with sessions := db.sessions.map (Session.revoke session now) }
    else none
  | .saveUser user =>
    some { db with users := db.users.filter (fun other => other.id ≠ user.id) ++ [user] }

def restart (db : Db) : Db := { db with sessions := committed db.sessions, locks := [] }

def server (config : Config) : ThreadSystem Db Request Cookies Choice EnvEvent where
  enter _ cookies := { cookies with }
  act := act config
  env := env config
  reset := restart

abbrev State := ThreadSystem.State Db Request
abbrev Event := ThreadSystem.Event Cookies Choice EnvEvent

end AlgoSystem.Auth
