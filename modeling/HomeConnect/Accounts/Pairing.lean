/-
# Accounts.Pairing -- the two ways a user takes an unowned device

`claim_device` (any logged-in user, from the list of unpaired devices) and `pilotpair`
(with a token signed by the device) as programs over their SQL statements, and the pool
that runs any number of such requests over one database.

Token decoding and verification are `Jwt`'s: they belong to a library outside the
repository.
-/
import HomeConnect.Accounts.Tables
import HomeConnect.Theory.Pool

namespace HomeConnect.Accounts

open HomeConnect.Theory

set_option autoImplicit false

/-- The statements of the pairing handlers. -/
inductive PairOp : Type → Type
  | load_device (dongle : Text) : PairOp (AppResult (Option Device))
  /-- The `UPDATE` of the owner, with or without `AND owner_id IS NULL`. -/
  | set_owner (dongle : Text) (owner : Int) (unowned : Bool) : PairOp (AppResult Unit)
  | share (user_id : Int) (dongle : Text) (created_at : Option Int) : PairOp (AppResult Unit)

def PairOp.exec {β : Type} : PairOp β → Unit → Db → β × Db
  | .load_device dongle, _, db => (.ok (db.devices.get? dongle), db)
  | .set_owner dongle owner unowned, _, db =>
      match db.set_owner dongle owner unowned with
      | some db' => (.ok (), db')
      | none => (.error .Sqlx, db)
  | .share user_id dongle created_at, _, db =>
      match db.share user_id dongle created_at with
      | some db' => (.ok (), db')
      | none => (.error .Sqlx, db)

/-- Claims inside the device-signed pair token. -/
structure PairClaims where
  identity : Text
  pair : Bool
deriving DecidableEq, Repr

/-- Decoding a token unverified, and verifying it against a PEM public key. -/
structure Jwt where
  decode_claims_unverified : Text → Option PairClaims
  verify_device_token : Text → Text → AppResult PairClaims

inductive PairAnswer
  | already_owned (dongle_id : Text)
  | paired (dongle_id : Text) (first_pair : Bool)
deriving DecidableEq, Repr

/-! ## The handlers -/

def load_device (dongle : Text) : Request PairOp Device := do
  match ← Request.perform (.load_device dongle) with
  | some device => pure device
  | none => throw (.NotFound "unknown device")

/-- `claim_device` once the device is loaded; `now` is the time of the share's insert. -/
def claim_loaded (user : User) (dongle : Text) (now : Int) (device : Device) :
    Request PairOp PairAnswer :=
  match device.owner_id with
  | none => do
      Request.perform (.set_owner dongle user.id true)
      Request.perform (.share user.id dongle (some now))
      pure (.paired dongle true)
  | some owner =>
      if owner = user.id then pure (.already_owned dongle)
      else throw (.Forbidden "device already paired")

def claim_device (user : User) (dongle : Text) (now : Int) : Request PairOp PairAnswer := do
  let device ← load_device dongle
  claim_loaded user dongle now device

/-- `pilotpair` once the device named by the unverified token is loaded. -/
def pilotpair_loaded (jwt : Jwt) (user : User) (pair_token : Text) (device : Device) :
    Request PairOp PairAnswer :=
  match jwt.verify_device_token device.public_key pair_token with
  | .error e => throw e
  | .ok claims =>
      if claims.pair then
        if device.owner_id = none then do
          Request.perform (.set_owner device.dongle_id user.id false)
          -- Owner is implicitly authorized; the statement binds no `created_at`.
          Request.attempt (.share user.id device.dongle_id none)
          pure (.paired device.dongle_id true)
        else pure (.paired device.dongle_id false)
      else throw (.Unauthorized "pair claim missing")

def pilotpair (jwt : Jwt) (user : User) (pair_token : Text) : Request PairOp PairAnswer :=
  match jwt.decode_claims_unverified pair_token with
  | none => throw (.BadRequest "undecodable pair token")
  | some unverified => do
      let device ← load_device unverified.identity
      pilotpair_loaded jwt user pair_token device

theorem load_device_bind {α : Type} (dongle : Text) (g : Device → Request PairOp α) :
    (load_device dongle >>= g).run = .op (.load_device dongle) fun
      | .ok (some device) => (g device).run
      | .ok none => .ret (.error (.NotFound "unknown device"))
      | .error e => .ret (.error e) := by
  rw [load_device, bind_assoc, Request.run_perform_bind]
  congr 1
  funext r
  match r with
  | .ok (some device) => rfl
  | .ok none => rfl
  | .error e => rfl

/-! ## Any number of requests at once -/

inductive PairRequest
  | claim_device (dongle : Text) (now : Int)
  | pilotpair (pair_token : Text)
deriving DecidableEq, Repr

def PairRequest.handle (jwt : Jwt) (user : User) : PairRequest → Request PairOp PairAnswer
  | .claim_device dongle now => Accounts.claim_device user dongle now
  | .pilotpair pair_token => Accounts.pilotpair jwt user pair_token

/-- A request and the user it was authenticated as. -/
structure PairCall where
  user : User
  request : PairRequest
deriving DecidableEq, Repr

abbrev PairTask := Task PairCall PairOp (AppResult PairAnswer)

/-- A request arrives with the token of the user `identity`: `AuthUser` loads the user. -/
def arrive_pair (jwt : Jwt) (call : Text × PairRequest) (db : Db) : Option (Db × List PairTask) :=
  (db.users.by_identity call.1).map fun user =>
    (db, [⟨⟨user, call.2⟩, (call.2.handle jwt user).run⟩])

def pairRules (jwt : Jwt) : Pool.Rules Db PairTask (Text × PairRequest) Unit :=
  ⟨arrive_pair jwt, Task.turn PairOp.exec⟩

end HomeConnect.Accounts
