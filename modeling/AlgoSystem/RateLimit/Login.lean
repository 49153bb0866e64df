import AlgoSystem.RateLimit.Consume

/-!
`client_ip` and `enforce_login_rate_limit` of `trading/api/deps.py`, and `login` of `auth_routes.py`
up to its answer, for the requests of one peer one after another. What an accepted login writes
besides is left out.
-/

namespace AlgoSystem.RateLimit.Login
open General

structure Config where
  lower : String → String
  subjectHash : String → String
  verifyPassword : String → String → Bool
  limits : Limits
  clientHost : Option String

structure Account where
  username : String
  passwordHash : String
  isActive : Bool := true

structure Attempt where
  username : String
  password : String := ""
  xForwardedFor : Option String := none
  now : Nat

/-- The characters that `str.strip` removes, as far as a header can have them (Latin-1). -/
def isSpace (c : Char) : Bool := [9, 10, 11, 12, 13, 28, 29, 30, 31, 32, 133, 160].contains c.toNat

def strip (text : List Char) : List Char :=
  ((text.dropWhile isSpace).reverse.dropWhile isSpace).reverse

def firstHop (xff : String) : String :=
  String.ofList (strip (xff.toList.takeWhile fun c => c ≠ ','))

def clientIp (clientHost : Option String) (attempt : Attempt) : String :=
  match attempt.xForwardedFor.filter fun xff => xff ≠ "" with
  | some xff => firstHop xff
  | none => clientHost.getD "unknown"

def subject (config : Config) (attempt : Attempt) : String :=
  "login:" ++ config.lower attempt.username ++ ":" ++ clientIp config.clientHost attempt

def call (config : Config) (attempt : Attempt) : Call where
  subjectHash := config.subjectHash (subject config attempt)
  now := attempt.now

def finish (limits : Limits) : Nat → Table → Consume → Table × Pc
  | 0, table, call => (table, call.pc)
  | steps + 1, table, call =>
    match act limits table call .proceed with
    | none => (table, call.pc)
    | some next => finish limits steps next.1 next.2

def consume (limits : Limits) (table : Table) (call : Call) : Table × Pc :=
  finish limits 4 table { call with }

inductive Reason where
  | badCredentials
  | unknownUser
  deriving DecidableEq

inductive Answer where
  | tooManyRequests (retryAfter : Nat)
  | unauthorized (reason : Reason)
  | signedIn
  | internalError
  deriving DecidableEq

def Answer.verified : Answer → Bool
  | .unauthorized _ | .signedIn => true
  | .tooManyRequests _ | .internalError => false

def verify (config : Config) (accounts : List Account) (attempt : Attempt) : Answer :=
  match accounts.find? fun account => account.username = attempt.username with
  | none => .unauthorized .unknownUser
  | some account =>
    if account.isActive && config.verifyPassword attempt.password account.passwordHash then
      .signedIn
    else .unauthorized .badCredentials

def login (config : Config) (accounts : List Account) (table : Table) (attempt : Attempt) :
    Table × Answer :=
  match consume config.limits table (call config attempt) with
  | (table, .allowed) => (table, verify config accounts attempt)
  | (table, .denied retryAfter) => (table, .tooManyRequests retryAfter)
  | (table, _) => (table, .internalError)

def logins (config : Config) (accounts : List Account) :
    Table → List Attempt → List (Attempt × Answer)
  | _, [] => []
  | table, attempt :: rest =>
    let next := login config accounts table attempt
    (attempt, next.2) :: logins config accounts next.1 rest

end AlgoSystem.RateLimit.Login
