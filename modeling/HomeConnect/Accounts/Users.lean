/-
# Accounts.Users -- the admin requests that add, change and remove users

`create_user`, `update_user` and `delete_user` as programs over their SQL statements.
A request is authenticated first: the caller's row is read once, and the handler only
ever looks at that copy.  `rules` runs any number of requests over one database, one
statement at a time.
-/
import HomeConnect.Accounts.Tables
import HomeConnect.Theory.Pool

namespace HomeConnect.Accounts

open HomeConnect.Theory

set_option autoImplicit false

/-- The statements of the user handlers. -/
inductive UserOp : Type → Type
  | user_by_identity (identity : Text) : UserOp (AppResult (Option User))
  | admin_count : UserOp (AppResult Int)
  | update (identity : Text) (is_admin : Int) (email : Option Text) : UserOp (AppResult Unit)
  | delete (id : Int) : UserOp (AppResult Unit)
  | insert (identity username password_hash : Text) (email : Option Text)
      (is_admin created_at : Int) : UserOp (AppResult Unit)

/-- Whether the database carries a statement out. -/
inductive Outcome
  | ok
  | failed
deriving DecidableEq, Repr

def UserOp.exec {β : Type} : UserOp β → Outcome → Db → β × Db
  | .user_by_identity identity, .ok, db => (.ok (db.users.by_identity identity), db)
  | .admin_count, .ok, db => (.ok db.users.admin_count, db)
  | .update identity is_admin email, .ok, db =>
      (.ok (), { db with users := db.users.set_admin identity is_admin email })
  | .delete id, .ok, db => (.ok (), db.delete_user id)
  | .insert identity username password_hash email is_admin created_at, .ok, db =>
      match db.users.insert identity username password_hash email is_admin created_at with
      | some users => (.ok (), { db with users })
      | none => (.error (.BadRequest "username already exists"), db)
  | .user_by_identity _, .failed, db => (.error .Sqlx, db)
  | .admin_count, .failed, db => (.error .Sqlx, db)
  | .update _ _ _, .failed, db => (.error .Sqlx, db)
  | .delete _, .failed, db => (.error .Sqlx, db)
  | .insert .., .failed, db => (.error .Sqlx, db)

/-! ## The handlers -/

def require_admin (user : User) : Request UserOp Unit :=
  if user.is_admin = 0 then throw (.Forbidden "admin required") else pure ()

def user_by_identity (identity : Text) : Request UserOp User := do
  match ← Request.perform (.user_by_identity identity) with
  | some user => pure user
  | none => throw (.NotFound "unknown user")

structure UpdateUserReq where
  is_admin : Option Bool
  email : Option Text
deriving DecidableEq, Repr

def update_user (caller : User) (identity : Text) (req : UpdateUserReq) :
    Request UserOp Unit := do
  require_admin caller
  let target ← user_by_identity identity
  let new_admin := req.is_admin.getD (target.is_admin ≠ 0)
  -- Never leave the system with zero admins.
  if target.is_admin ≠ 0 && !new_admin then
    if (← Request.perform .admin_count) ≤ 1 then
      throw (.BadRequest "cannot remove the last admin")
  let email := req.email.or target.email
  Request.perform (.update identity (if new_admin then 1 else 0) email)

def delete_user (caller : User) (identity : Text) : Request UserOp Unit := do
  require_admin caller
  let target ← user_by_identity identity
  if target.identity = caller.identity then
    throw (.BadRequest "you can't delete your own account")
  if target.is_admin ≠ 0 then
    if (← Request.perform .admin_count) ≤ 1 then
      throw (.BadRequest "cannot delete the last admin")
  Request.perform (.delete target.id)

structure CreateUserReq where
  username : Text
  password : Text
  email : Option Text
  is_admin : Bool
deriving DecidableEq, Repr

/-- What `create_user_row` takes from its surroundings: a fresh uuid, the argon2 hash of
the password and the time. -/
structure Fresh where
  identity : Text
  password_hash : Text
  now : Int
deriving DecidableEq, Repr

def create_user_row (fresh : Fresh) (req : CreateUserReq) : Request UserOp Unit := do
  if Text.trim req.username = [] || Text.byte_len req.password < 6 then
    throw (.BadRequest "username required, password >= 6 chars")
  Request.perform (.insert fresh.identity req.username fresh.password_hash req.email
    (if req.is_admin then 1 else 0) fresh.now)

def create_user (caller : User) (fresh : Fresh) (req : CreateUserReq) : Request UserOp Unit := do
  if caller.is_admin = 0 then
    throw (.Forbidden "admin required")
  create_user_row fresh req

/-! ## Any number of requests at once -/

inductive UserRequest
  | update (identity : Text) (req : UpdateUserReq)
  | delete (identity : Text)
  | create (fresh : Fresh) (req : CreateUserReq)
deriving DecidableEq, Repr

def UserRequest.handle (caller : User) : UserRequest → Request UserOp Unit
  | .update identity req => update_user caller identity req
  | .delete identity => delete_user caller identity
  | .create fresh req => create_user caller fresh req

/-- A request and the identity its caller's token names. -/
structure Call where
  caller : Text
  request : UserRequest
deriving DecidableEq, Repr

abbrev UserTask := Task Call UserOp (AppResult Unit)

/-- A call arrives: `AuthUser` loads the caller, and the handler starts with that row. -/
def arrive (call : Call) (db : Db) : Option (Db × List UserTask) :=
  (db.users.by_identity call.caller).map fun caller =>
    (db, [⟨call, (call.request.handle caller).run⟩])

def userRules : Pool.Rules Db UserTask Call Outcome := ⟨arrive, Task.turn UserOp.exec⟩

end HomeConnect.Accounts
