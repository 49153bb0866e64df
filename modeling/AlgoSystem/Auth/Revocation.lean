import AlgoSystem.Auth.Refresh

/-!
A change or reset of a password and the deactivation of a user (`trading/api/auth_routes.py`,
`admin_routes.py`) revoke the user's sessions by one UPDATE and commit later. The UPDATE takes the
committed sessions of its snapshot, waits for rows that another transaction has updated, and skips
those revoked meanwhile. The log is not part of the program.
-/

namespace AlgoSystem.Auth.Revocation
open General

inductive Entry where
  | loggedIn (login userId : Nat)
  | exchanged (login : Nat)
  | revoked (userId : Nat)
  deriving DecidableEq

structure World extends Db where
  log : List Entry := []

def World.note (world : World) (db : Db) (entries : List Entry) : World :=
  { toDb := db, log := world.log ++ entries }

inductive Kind where
  | changePassword
  | resetPassword
  | deactivateUser
  | updateUser
  deriving DecidableEq

namespace Kind

def deactivates : Kind → Bool
  | .changePassword | .resetPassword => false
  | .deactivateUser | .updateUser => true

end Kind

inductive LoginPc where
  | entry
  | issue
  | issued
  | denied
  | failed

inductive LogoutPc where
  | entry
  | revoke (session : Session)
  | done
  | failed

inductive RevokePc where
  | entry
  | revoke (user : User)
  /-- Rows that the UPDATE has still to visit, and those it has locked. -/
  | update (user : User) (pending locked : List Nat) (revokedAt : Nat)
  | done
  | unknownUser
  | failed

inductive Thread where
  | refresh (request : Request)
  | login (userId : Nat) (pc : LoginPc)
  | logout (cookies : Cookies) (pc : LogoutPc)
  | revoke (kind : Kind) (userId : Nat) (pc : RevokePc)

inductive Call where
  | refresh (cookies : Cookies)
  | login (userId : Nat)
  | logout (cookies : Cookies)
  | revoke (kind : Kind) (userId : Nat)

def enter : Call → Thread
  | .refresh cookies => .refresh { cookies with }
  | .login userId => .login userId .entry
  | .logout cookies => .logout cookies .entry
  | .revoke kind userId => .revoke kind userId .entry

def exchanges (before after : Pc) : List Entry :=
  match before, after with
  | .commit session _ _, .issued _ => [.exchanged session.login]
  | _, _ => []

def refresh (config : Config) (txn : Nat) (world : World) (request : Request) (choice : Choice) :
    Option (World × Thread) :=
  (act config txn world.toDb request choice).map fun next =>
    (world.note next.1 (exchanges request.pc next.2.pc), .refresh next.2)

def login (config : Config) (world : World) (userId : Nat) (pc : LoginPc) :
    Choice → Option (World × Thread)
  | .tick _ =>
    match pc with
    | .entry => some (world, .login userId (if world.userActive userId then .issue else .denied))
    | _ => none
  | .tokens refreshRaw csrf now =>
    match pc with
    | .issue =>
      let tokenHash := config.hashRefreshToken refreshRaw
      match world.sessions.find? fun r => r.tokenHash = tokenHash with
      | some other => if other.txn = none then some (world, .login userId .failed) else none
      | none =>
        some (world.note (world.insert
          { id := world.nextId, userId, tokenHash, csrfToken := csrf
            expiresAt := now + config.refreshTtl, login := world.nextId })
            [.loggedIn world.nextId userId],
          .login userId .issued)
    | _ => none
  | .abort =>
    match pc with
    | .entry | .issue => some (world, .login userId .failed)
    | _ => none

def logout (config : Config) (world : World) (cookies : Cookies) (pc : LogoutPc) :
    Choice → Option (World × Thread)
  | .tick now =>
    match pc with
    | .entry =>
      match findSession config world.toDb { cookies with } now with
      | .findUser session => some (world, .logout cookies (.revoke session))
      | _ => some (world, .logout cookies .done)
    | .revoke session =>
      if world.free session.id then
        some (world.note
            { world with sessions := world.sessions.map (Session.revoke session.id now) } [],
          .logout cookies .done)
      else none
    | _ => none
  | .tokens _ _ _ => none
  | .abort =>
    match pc with
    | .entry | .revoke _ => some (world, .logout cookies .failed)
    | _ => none

def revocable (db : Db) (userId : Nat) : List Nat :=
  ((committed db.sessions).filter fun r => r.userId = userId && r.revokedAt = none).map Session.id

def revokeAll (ids : List Nat) (now : Nat) (r : Session) : Session :=
  if r.id ∈ ids then { r with revokedAt := some now } else r

def deactivate (userId : Nat) (user : User) : User :=
  if user.id = userId then { user with isActive := false } else user

def unrevoked (db : Db) (id : Nat) : Bool :=
  (committed db.sessions).any fun r => r.id = id && r.revokedAt = none

/-- The COMMIT. A request writes `is_active` only when the user it has read was active. -/
def commit (txn : Nat) (db : Db) (kind : Kind) (user : User) (locked : List Nat)
    (revokedAt : Nat) : Db :=
  { db.release txn with
    sessions := db.sessions.map (revokeAll locked revokedAt)
    users := if kind.deactivates && user.isActive then db.users.map (deactivate user.id)
      else db.users }

def revoke (txn : Nat) (world : World) (kind : Kind) (userId : Nat) (pc : RevokePc) :
    Choice → Option (World × Thread)
  | .tick now =>
    match pc with
    | .entry =>
      match world.users.find? fun user => user.id = userId with
      | none => some (world, .revoke kind userId .unknownUser)
      | some user =>
        if kind = .updateUser ∧ user.isActive = false then
          some (world, .revoke kind userId (.update user [] [] now))
        else some (world, .revoke kind userId (.revoke user))
    | .revoke user =>
      some (world,
        .revoke kind userId (.update user (revocable world.toDb userId) [] now))
    | .update user (id :: pending) locked revokedAt =>
      if world.free id = false then none
      else if unrevoked world.toDb id then
        some (world.note { world with locks := (id, txn) :: world.locks } [],
          .revoke kind userId (.update user pending (id :: locked) revokedAt))
      else some (world, .revoke kind userId (.update user pending locked revokedAt))
    | .update user [] locked revokedAt =>
      some (world.note (commit txn world.toDb kind user locked revokedAt) [.revoked userId],
        .revoke kind userId .done)
    | _ => none
  | .tokens _ _ _ => none
  | .abort =>
    match pc with
    | .entry | .revoke _ | .update _ _ _ _ =>
      some (world.note (world.rollback txn) [], .revoke kind userId .failed)
    | _ => none

def handle (config : Config) (txn : Nat) (world : World) (thread : Thread) (choice : Choice) :
    Option (World × Thread) :=
  match thread with
  | .refresh request => refresh config txn world request choice
  | .login userId pc => login config world userId pc choice
  | .logout cookies pc => logout config world cookies pc choice
  | .revoke kind userId pc => revoke txn world kind userId pc choice

def saveUser (world : World) (user : User) : World :=
  world.note
    { world with users := world.users.filter (fun other => other.id ≠ user.id) ++ [user] } []

def server (config : Config) : ThreadSystem World Thread Call Choice User where
  enter _ := enter
  act := handle config
  env world user := some (saveUser world user)
  reset world := world.note (restart world.toDb) []

abbrev State := ThreadSystem.State World Thread
abbrev Event := ThreadSystem.Event Call Choice User

end AlgoSystem.Auth.Revocation
