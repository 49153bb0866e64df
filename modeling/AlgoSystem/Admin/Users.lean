import AlgoSystem.General.Threads

/-!
`update_user` and `deactivate_user` of `trading/api/admin_routes.py` as threads over `users` at READ
COMMITTED. A commit updates the columns that differ from what the request has read.
-/

namespace AlgoSystem.Admin
open General

inductive Permission where
  | view
  | start
  | stop
  | restart
  | tradingControl
  | admin
  deriving DecidableEq

namespace Permission

def all : List Permission := [.view, .start, .stop, .restart, .tradingControl, .admin]

def value : Permission → String
  | .view => "VIEW"
  | .start => "START"
  | .stop => "STOP"
  | .restart => "RESTART"
  | .tradingControl => "TRADING_CONTROL"
  | .admin => "ADMIN"

end Permission

inductive Role where
  | viewer
  | trader
  | operator
  | admin
  deriving DecidableEq

namespace Role

def all : List Role := [.viewer, .trader, .operator, .admin]

def name : Role → String
  | .viewer => "viewer"
  | .trader => "trader"
  | .operator => "operator"
  | .admin => "admin"

def permissions : Role → List Permission
  | .viewer => [.view]
  | .trader => [.view, .start, .stop, .restart]
  | .operator => [.view, .start, .stop, .restart, .tradingControl]
  | .admin => Permission.all

end Role

structure User where
  id : Nat
  role : Role := .viewer
  isActive : Bool := true
  email : Option String := none
  extraPermissions : List Permission := []
  deriving DecidableEq

def User.has (user : User) (permission : Permission) : Bool :=
  user.role.permissions.contains permission || user.extraPermissions.contains permission

def User.activeAdmin (user : User) : Bool := user.role = .admin && user.isActive

def activeAdminCount (users : List User) (excludeId : Nat) : Nat :=
  users.countP fun user => user.activeAdmin && user.id ≠ excludeId

structure UpdateUserIn where
  role : Option String := none
  isActive : Option Bool := none
  email : Option String := none
  extraPermissions : Option (List String) := none
  deriving DecidableEq

inductive Body where
  | update (body : UpdateUserIn)
  | deactivate

inductive Refusal where
  | unauthorized
  | forbidden
  | unknownUser
  | invalidRole
  | demotesLastAdmin
  | ownAccount
  | deactivatesLastAdmin
  | unknownPermission (value : String)
  deriving DecidableEq

structure Changes where
  role : Option Role := none
  isActive : Option Bool := none
  email : Option (Option String) := none
  extraPermissions : Option (List Permission) := none
  deriving DecidableEq

def Changes.apply (changes : Changes) (user : User) : User :=
  { user with
    role := changes.role.getD user.role
    isActive := changes.isActive.getD user.isActive
    email := changes.email.getD user.email
    extraPermissions := changes.extraPermissions.getD user.extraPermissions }

inductive Pc where
  | entry
  | find
  | checkRole (user : User) (body : UpdateUserIn)
  | checkActive (user : User) (body : UpdateUserIn) (role : Option Role)
  | checkDeactivate (user : User)
  | commit (user : User) (changes : Changes)
  | done
  | refused (refusal : Refusal)
  | failed
  deriving DecidableEq

structure Call where
  adminId : Nat
  userId : Nat
  body : Body

structure Request extends Call where
  pc : Pc := .entry

def Request.goto (request : Request) (pc : Pc) : Request := { request with pc }

def lastAdmin (users : List User) (user : User) (role : Role) : Bool :=
  role = .admin && activeAdminCount users user.id = 0

def authorize (users : List User) (adminId : Nat) : Pc :=
  match users.find? fun user => user.id = adminId with
  | none => .refused .unauthorized
  | some admin =>
    if admin.isActive = false then .refused .unauthorized
    else if admin.has .admin then .find
    else .refused .forbidden

def findUser (users : List User) (userId : Nat) (body : Body) : Pc :=
  match users.find? fun user => user.id = userId with
  | none => .refused .unknownUser
  | some user =>
    match body with
    | .update body => .checkRole user body
    | .deactivate => .checkDeactivate user

def checkRole (users : List User) (user : User) (body : UpdateUserIn) : Pc :=
  match body.role with
  | none => .checkActive user body none
  | some name =>
    if name = user.role.name then .checkActive user body none
    else match Role.all.find? fun role => role.name = name with
      | none => .refused .invalidRole
      | some role =>
        if role ≠ .admin && lastAdmin users user user.role then .refused .demotesLastAdmin
        else .checkActive user body (some role)

def normalizeExtraPermissions (values : List String) : Except Refusal (List Permission) :=
  match values.find? fun value => ¬ Permission.all.any fun permission => permission.value = value with
  | some value => .error (.unknownPermission value)
  | none =>
    .ok ([Permission.admin, .restart, .start, .stop, .tradingControl, .view].filter
      fun permission => values.contains permission.value)

def changed {α : Type} [DecidableEq α] (old new : α) : Option α :=
  if new = old then none else some new

def collect (user : User) (body : UpdateUserIn) (role : Option Role) (isActive : Option Bool) : Pc :=
  let email := body.email.bind fun email =>
    changed user.email (if email = "" then none else some email)
  match body.extraPermissions with
  | none => .commit user { role, isActive, email }
  | some values =>
    match normalizeExtraPermissions values with
    | .error refusal => .refused refusal
    | .ok extra =>
      .commit user
        { role, isActive, email, extraPermissions := changed user.extraPermissions extra }

def checkActive (users : List User) (adminId : Nat) (user : User) (body : UpdateUserIn)
    (role : Option Role) : Pc :=
  match body.isActive with
  | none => collect user body role none
  | some isActive =>
    if isActive = user.isActive then collect user body role none
    else if isActive then collect user body role (some true)
    else if user.id = adminId then .refused .ownAccount
    else if lastAdmin users user (role.getD user.role) then .refused .deactivatesLastAdmin
    else collect user body role (some false)

def checkDeactivate (users : List User) (adminId : Nat) (user : User) : Pc :=
  if user.id = adminId then .refused .ownAccount
  else if lastAdmin users user user.role then .refused .deactivatesLastAdmin
  else .commit user { isActive := changed user.isActive false }

/-- The commit writes in the row as it is then; other rows stay as they are. -/
def write (users : List User) (id : Nat) (changes : Changes) : List User :=
  users.map fun user => if user.id = id then changes.apply user else user

inductive Choice where
  | proceed
  | abort

def act (users : List User) (request : Request) : Choice → Option (List User × Request)
  | .proceed =>
    match request.pc with
    | .entry => some (users, request.goto (authorize users request.adminId))
    | .find => some (users, request.goto (findUser users request.userId request.body))
    | .checkRole user body => some (users, request.goto (checkRole users user body))
    | .checkActive user body role =>
      some (users, request.goto (checkActive users request.adminId user body role))
    | .checkDeactivate user =>
      some (users, request.goto (checkDeactivate users request.adminId user))
    | .commit user changes => some (write users user.id changes, request.goto .done)
    | .done | .refused _ | .failed => none
  | .abort =>
    match request.pc with
    | .done | .refused _ | .failed => none
    | _ => some (users, request.goto .failed)

def createUser (users : List User) (user : User) : Option (List User) :=
  if users.any fun other => other.id = user.id then none else some (users ++ [user])

def server : ThreadSystem (List User) Request Call Choice User where
  enter _ call := { call with }
  act _ := act
  env := createUser
  reset users := users

abbrev State := ThreadSystem.State (List User) Request
abbrev Event := ThreadSystem.Event Call Choice User

end AlgoSystem.Admin
