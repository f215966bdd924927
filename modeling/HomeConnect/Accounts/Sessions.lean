/-
# Accounts.Sessions -- tokens, principals, and every request on the accounts

A request is from whoever its token says: `verify` reads an HMAC token under the
server's secret and a device's token under the key in the device's row, and the identity
found becomes a user or a device (`resolve_principal`).  The server issues HMAC tokens
itself: to a user who logs in, to a device for its uploads, and to a user for the media
of a drive.

`rules` runs any number of these requests over one database, one statement at a time: the
account handlers (`Accounts.Users`, `Accounts.Pairing`) behind `AuthUser`, the login, the
registration of devices, and, as `any`, whatever else a principal is asked for.

What the token and password libraries compute is `Crypto`'s; the claims they check
(expiry, with a leeway of 300 s) are theirs.  `issued`, `knew` and `signed` are history:
which tokens the server made, whose password was given, and which devices' keys verified
a token.  No code reads them.
-/
import HomeConnect.Accounts.Pairing
import HomeConnect.Accounts.Users
import HomeConnect.Base.Triples

namespace HomeConnect.Accounts.Sessions

open HomeConnect.Theory

set_option autoImplicit false

/-! ## The libraries -/

/-- Standard claims of user and device tokens. -/
structure Claims where
  identity : Text
  nbf : Option Nat := none
  iat : Option Nat := none
  exp : Nat
deriving DecidableEq, Repr

inductive Algorithm
  | HS256
  | HS384
  | HS512
  | ES256
  | ES384
  | RS256
  | RS384
  | RS512
  | PS256
  | PS384
  | PS512
  | EdDSA
deriving DecidableEq, Repr

/-- How a token under this algorithm is checked. -/
inductive Family
  | hmac
  | device
  | unsupported
deriving DecidableEq, Repr

def Algorithm.family : Algorithm → Family
  | .HS256 | .HS384 | .HS512 => .hmac
  | .ES256 | .ES384 | .RS256 | .RS384 | .RS512 => .device
  | .PS256 | .PS384 | .PS512 | .EdDSA => .unsupported

/-- `{alg:?}`. -/
def Algorithm.debug : Algorithm → Text
  | .HS256 => "HS256"
  | .HS384 => "HS384"
  | .HS512 => "HS512"
  | .ES256 => "ES256"
  | .ES384 => "ES384"
  | .RS256 => "RS256"
  | .RS384 => "RS384"
  | .RS512 => "RS512"
  | .PS256 => "PS256"
  | .PS384 => "PS384"
  | .PS512 => "PS512"
  | .EdDSA => "EdDSA"

/-- `jsonwebtoken`, `argon2` and `sha2`, with the texts of their errors.  Times are unix
seconds. -/
structure Crypto where
  /-- The pair token's claims. -/
  pair : Jwt
  /-- The register token's `register` claim, under the key it is sent with. -/
  register : Text → Text → AppResult Bool
  decode_header : Text → AppResult Algorithm
  /-- `encode` with HS512 under the server's secret. -/
  encode : Claims → AppResult Text
  /-- `decode` under the server's secret. -/
  decode_hmac : Algorithm → Int → Text → AppResult Claims
  /-- `decode` under a PEM public key. -/
  decode_device : Text → Algorithm → Int → Text → AppResult Claims
  decode_claims_unverified : Text → Option Claims
  verify_password : Text → Text → Bool
  sha256_hex : Text → Text

/-! ## Statements -/

structure Service where
  db : Db
  /-- Unix milliseconds. -/
  now : Int := 0
  issued : List (Text × Claims) := []
  knew : List Text := []
  signed : List Text := []

/-- `SELECT * FROM users WHERE username = ?`. -/
def by_username (t : Users) (username : Text) : Option User :=
  t.rows.find? fun u => decide (u.username = username)

/-- `UPDATE users SET password_hash = ? WHERE identity = ?`. -/
def set_password (t : Users) (identity hash : Text) : Users :=
  let put (u : User) : User := if u.identity = identity then { u with password_hash := hash } else u
  have blind : ∀ {β : Type} (g : User → β), (∀ u : User, g { u with password_hash := hash } = g u) →
      (t.rows.map put).map g = t.rows.map g := by
    intro β g same
    rw [List.map_map]
    refine List.map_congr_left fun u _ => ?_
    dsimp only [Function.comp, put]
    split
    · exact same u
    · rfl
  { rows := t.rows.map put
    sequence := t.sequence
    ids := by rw [blind User.id fun _ => rfl]; exact t.ids
    identities := by rw [blind User.identity fun _ => rfl]; exact t.identities
    usernames := by rw [blind User.username fun _ => rfl]; exact t.usernames
    given := by
      intro u member
      obtain ⟨v, old, rfl⟩ := List.mem_map.1 member
      have bound := t.given v old
      dsimp only [put]
      split <;> exact bound }

/-- `INSERT INTO devices … ON CONFLICT(dongle_id) DO UPDATE SET public_key = …`. -/
def register (t : Table Device Device.dongle_id) (dongle_id public_key : Text) :
    Table Device Device.dongle_id :=
  t.upsert { dongle_id, public_key } (fun d => { d with public_key }) fun _ => rfl

inductive AccountOp : Type → Type 1
  | clock : AccountOp Int
  | user {β : Type} (f : UserOp β) : AccountOp β
  | pair {β : Type} (f : PairOp β) : AccountOp β
  | by_username (username : Text) : AccountOp (AppResult (Option User))
  /-- `SELECT 1 FROM authorized_users WHERE user_id = ? AND device_dongle_id = ?`. -/
  | shared (user_id : Int) (dongle : Text) : AccountOp (AppResult Bool)
  | set_password (identity hash : Text) : AccountOp (AppResult Unit)
  | register_device (dongle public_key : Text) : AccountOp (AppResult Unit)
  | verify_password (user : User) (password : Text) : AccountOp Bool
  | encode (claims : Claims) : AccountOp (AppResult Text)
  | decode_hmac (alg : Algorithm) (token : Text) : AccountOp (AppResult Claims)
  | decode_device (device : Device) (alg : Algorithm) (token : Text) : AccountOp (AppResult Claims)

/-- A pairing statement the database does not carry out. -/
def refused {β : Type} : PairOp β → β
  | .load_device _ => .error .Sqlx
  | .set_owner .. => .error .Sqlx
  | .share .. => .error .Sqlx

def AccountOp.exec (crypto : Crypto) {β : Type} : AccountOp β → Outcome → Service → β × Service
  | .clock, _, s => (s.now, s)
  | .user f, o, s => ((f.exec o s.db).1, { s with db := (f.exec o s.db).2 })
  | .pair f, .failed, s => (refused f, s)
  | .pair f, .ok, s => ((f.exec () s.db).1, { s with db := (f.exec () s.db).2 })
  | .by_username _, .failed, s => (.error .Sqlx, s)
  | .by_username username, .ok, s => (.ok (Sessions.by_username s.db.users username), s)
  | .shared _ _, .failed, s => (.error .Sqlx, s)
  | .shared id dongle, .ok, s => (.ok (s.db.authorized_users.get? (id, dongle)).isSome, s)
  | .set_password _ _, .failed, s => (.error .Sqlx, s)
  | .set_password identity hash, .ok, s =>
      (.ok (), { s with db.users := Sessions.set_password s.db.users identity hash })
  | .register_device _ _, .failed, s => (.error .Sqlx, s)
  | .register_device dongle_id public_key, .ok, s =>
      (.ok (), { s with db.devices := register s.db.devices dongle_id public_key })
  | .verify_password row password, _, s =>
      if crypto.verify_password password row.password_hash then
        (true, { s with knew := row.identity :: s.knew })
      else (false, s)
  | .encode claims, _, s =>
      match crypto.encode claims with
      | .ok token => (.ok token, { s with issued := (token, claims) :: s.issued })
      | .error e => (.error e, s)
  | .decode_hmac alg token, _, s => (crypto.decode_hmac alg (s.now / 1000) token, s)
  | .decode_device device alg token, _, s =>
      match crypto.decode_device device.public_key alg (s.now / 1000) token with
      | .ok claims => (.ok claims, { s with signed := device.dongle_id :: s.signed })
      | .error e => (.error e, s)

/-! ## Tokens -/

/-- An operation that does not fail. -/
def ask {β : Type} (f : AccountOp β) : Request AccountOp β :=
  ExceptT.mk (.op f fun b => .ret (.ok b))

/-- A function over the statements of the user handlers. -/
def of_users {α : Type} (p : Request UserOp α) : Request AccountOp α :=
  p.embed AccountOp.user

/-- A function over the statements of the pairing handlers. -/
def of_pairing {α : Type} (p : Request PairOp α) : Request AccountOp α :=
  p.embed AccountOp.pair

/-- `as usize`. -/
def as_usize (n : Int) : Nat := (n % 2 ^ 64).toNat

def USER_TOKEN_TTL_SECS : Int := 60 * 60 * 24 * 30

def SECS_PER_DAY : Int := 86400

/-- Issue a token for `identity` with a custom TTL (seconds). -/
def issue_hs512_ttl (identity : Text) (ttl_secs : Int) : Request AccountOp Text := do
  let now := (← ask .clock) / 1000
  Request.perform (.encode
    { identity
      nbf := some (as_usize (now - 5))
      iat := some (as_usize now)
      exp := as_usize (now + ttl_secs) })

def issue_hs512 (identity : Text) : Request AccountOp Text :=
  issue_hs512_ttl identity USER_TOKEN_TTL_SECS

/-- What of a request can carry a token: the query, and the two headers if they are text. -/
structure Parts where
  query : Option Text := none
  cookie : Option Text := none
  authorization : Option Text := none
deriving DecidableEq, Repr

/-- The first value of a query parameter. -/
def qget (query k : Text) : Option Text :=
  (Text.split '&' query).findSome? fun kv =>
    match Text.split_once '=' kv with
    | some (key, val) => if key = k then some val else none
    | none => none

def cookie_jwt (cookie : Text) : Option Text :=
  (Text.split ';' cookie).findSome? fun part =>
    match Text.split_once '=' (Text.trim part) with
    | some (k, v) => if k = "jwt" then some v else none
    | none => none

def bearer (header : Text) : Option Text :=
  ((Text.strip_prefix "JWT " header).or (Text.strip_prefix "Bearer " header)).map Text.trim

/-- `?sig=`, the cookie, the header, `?access_token=`: the first that is there. -/
def extract_token (parts : Parts) : Option Text :=
  let query := parts.query.getD []
  (qget query "sig").or <|
    (parts.cookie.bind cookie_jwt).or <|
      (parts.authorization.bind bearer).or (qget query "access_token")

/-- Authenticated principal of a request. -/
structure Auth where
  claims : Claims
  user : Option User := none
  device : Option Device := none
deriving DecidableEq, Repr

/-- A user's or a device's row, whichever the identity is. -/
def resolve_principal (claims : Claims) : Request AccountOp Auth := do
  match ← of_pairing (Request.perform (.load_device claims.identity)) with
  | some device => pure { claims, device := some device }
  | none =>
      match ← of_users (Request.perform (.user_by_identity claims.identity)) with
      | some user => pure { claims, user := some user }
      | none => throw (.Unauthorized "unknown identity")

/-- A device token: the identity is read unverified, its key looked up, and the token then
verified. -/
def verify_by_key (crypto : Crypto) (alg : Algorithm) (token : Text) : Request AccountOp Auth :=
  match crypto.decode_claims_unverified token with
  | none => throw (.Unauthorized "undecodable token")
  | some unverified => do
      match ← of_pairing (Request.perform (.load_device unverified.identity)) with
      | none => throw (.Unauthorized "unknown device")
      | some device =>
          let claims ← Request.perform (.decode_device device alg token)
          pure { claims, device := some device }

/-- Verify a token and resolve the principal. -/
def verify (crypto : Crypto) (token : Text) : Request AccountOp Auth := do
  let alg ← Request.of_result (crypto.decode_header token)
  match alg.family with
  | .hmac =>
      let claims ← Request.perform (.decode_hmac alg token)
      resolve_principal claims
  | .device => verify_by_key crypto alg token
  | .unsupported => throw (.Unauthorized ("unsupported alg " ++ alg.debug))

/-- The `Auth` extractor. -/
def authenticate (crypto : Crypto) (parts : Parts) : Request AccountOp Auth :=
  match extract_token parts with
  | none => throw (.Unauthorized "missing token")
  | some token => verify crypto token

/-- The `AuthUser` extractor: a logged-in user (rejects device tokens). -/
def auth_user (crypto : Crypto) (parts : Parts) : Request AccountOp User := do
  let auth ← authenticate crypto parts
  match auth.user with
  | some user => pure user
  | none => throw (.Unauthorized "user login required")

/-! ## Handlers -/

structure LoginResp where
  access_token : Text
  identity : Text
  username : Text
  is_admin : Bool
deriving DecidableEq, Repr

/-- Verify the password, return a user token. -/
def login (username password : Text) : Request AccountOp LoginResp := do
  match ← Request.perform (.by_username username) with
  | none => throw (.Unauthorized "invalid credentials")
  | some user =>
      Request.err_if (!(← ask (.verify_password user password))) (.Unauthorized "invalid credentials")
      let access_token ← issue_hs512 user.identity
      pure
        { access_token
          identity := user.identity
          username := user.username
          is_admin := user.is_admin ≠ 0 }

/-- Store a new password; `hash` is its argon2 hash, with the salt drawn for it. -/
def store_password (identity new hash : Text) : Request AccountOp Unit := do
  Request.err_if (Text.byte_len new < 6) (.BadRequest "password must be >= 6 chars")
  Request.perform (.set_password identity hash)

/-- An admin resets someone's password. -/
def admin_set_password (caller : User) (identity password hash : Text) : Request AccountOp Unit := do
  of_users (require_admin caller)
  let _ ← of_users (user_by_identity identity)
  store_password identity password hash

/-- A user changes their own password. -/
def change_my_password (user : User) (current_password new_password hash : Text) :
    Request AccountOp Unit := do
  Request.err_if (!(← ask (.verify_password user current_password)))
    (.Unauthorized "current password is incorrect")
  store_password user.identity new_password hash

structure PilotAuthParams where
  imei : Text
  imei2 : Text
  serial : Text
  public_key : Text
  register_token : Text
deriving DecidableEq, Repr

/-- The first 16 hex digits of the sha256 of the parameters. -/
def derive_dongle_id (crypto : Crypto) (p : PilotAuthParams) : Text :=
  (crypto.sha256_hex (p.imei ++ p.imei2 ++ p.serial ++ p.public_key)).take 16

/-- Register a device; one that registers again keeps its owner. -/
def pilotauth (crypto : Crypto) (params : PilotAuthParams) : Request AccountOp Unit := do
  let register ← Request.of_result (crypto.register params.public_key params.register_token)
  Request.err_if (!register) (.Unauthorized "register claim missing")
  Request.perform (.register_device (derive_dongle_id crypto params) params.public_key)

/-- A token for a device's uploads. -/
def upload_token (dongle : Text) (expiry_days : Int) : Request AccountOp Text :=
  issue_hs512_ttl dongle (max 1 (min expiry_days 30) * SECS_PER_DAY)

/-- The token in what `upload_url` and `upload_urls` answer; the URLs are those of
`Drives.Upload`. -/
def upload_url_token (auth : Auth) (dongle : Text) (expiry_days : Option Int) :
    Request AccountOp Text := do
  Request.of_result (require_device auth.device dongle)
  upload_token dongle (expiry_days.getD 1)

def can_manage_loaded (user : User) (device : Device) : Request AccountOp Bool :=
  if user.is_admin ≠ 0 ∨ device.owner_id = some user.id then pure true
  else Request.perform (.shared user.id device.dongle_id)

/-- `routes_segments`, for the share token in what it answers. -/
def routes_segments (user : User) (dongle : Text) : Request AccountOp Text := do
  let device ← of_pairing (load_device dongle)
  Request.err_if (!(← can_manage_loaded user device)) (.Forbidden "not authorized for device")
  issue_hs512_ttl user.identity 86400

/-! ## Any number of requests at once -/

inductive AccountRequest
  | login (username password : Text)
  | pilotauth (params : PilotAuthParams)
  | users (request : UserRequest)
  | admin_set_password (identity password hash : Text)
  | change_my_password (current_password new_password hash : Text)
  | pairing (request : PairRequest)
  | upload_url (dongle : Text) (expiry_days : Option Int)
  | routes_segments (dongle : Text)
  /-- Any other endpoint, up to where it knows who is asking. -/
  | any
deriving DecidableEq, Repr

inductive Answer
  | logged_in (resp : LoginResp)
  | done
  | paired (answer : PairAnswer)
  | token (text : Text)
  | principal (auth : Auth)
deriving DecidableEq, Repr

def AccountRequest.handle (crypto : Crypto) (parts : Parts) :
    AccountRequest → Request AccountOp Answer
  | .login username password => .logged_in <$> Sessions.login username password
  | .pilotauth params => do
      Sessions.pilotauth crypto params
      pure .done
  | .users request => do
      let caller ← auth_user crypto parts
      of_users (request.handle caller)
      pure .done
  | .admin_set_password identity password hash => do
      let caller ← auth_user crypto parts
      Sessions.admin_set_password caller identity password hash
      pure .done
  | .change_my_password current_password new_password hash => do
      let user ← auth_user crypto parts
      Sessions.change_my_password user current_password new_password hash
      pure .done
  | .pairing request => do
      let user ← auth_user crypto parts
      .paired <$> of_pairing (request.handle crypto.pair user)
  | .upload_url dongle expiry_days => do
      let auth ← authenticate crypto parts
      .token <$> Sessions.upload_url_token auth dongle expiry_days
  | .routes_segments dongle => do
      let user ← auth_user crypto parts
      .token <$> Sessions.routes_segments user dongle
  | .any => .principal <$> authenticate crypto parts

structure AccountCall where
  parts : Parts
  request : AccountRequest
deriving DecidableEq, Repr

abbrev AccountTask := Task AccountCall AccountOp (AppResult Answer)

inductive AccountAct
  | arrive (call : AccountCall)
  /-- The clock is set. -/
  | tick (now : Int)
deriving DecidableEq, Repr

def AccountAct.act (crypto : Crypto) : AccountAct → Service → Option (Service × List AccountTask)
  | .arrive call, s => some (s, [⟨call, (call.request.handle crypto call.parts).run⟩])
  | .tick now, s => some ({ s with now }, [])

def rules (crypto : Crypto) : Pool.Rules Service AccountTask AccountAct Outcome :=
  ⟨AccountAct.act crypto, Task.turn (AccountOp.exec crypto)⟩

/-! ## A small service -/

/-- An admin with a device, a user without, and a device nobody owns. -/
def registered : Service where
  db :=
    { users :=
        { rows := [{ id := 1, identity := "a-1", username := "ana", password_hash := "#1", is_admin := 1 },
            { id := 2, identity := "b-2", username := "bob", password_hash := "#2" }]
          sequence := 2
          ids := by decide
          identities := by decide
          usernames := by decide
          given := by decide }
      devices := ⟨[{ dongle_id := "cafe", owner_id := some 1 }, { dongle_id := "beef" }], by decide⟩
      authorized_users := Table.single { user_id := 1, device_dongle_id := "cafe" } }
  now := 1700000000000

/-- Libraries to run it with: a token is its identity, issued at the service's time. -/
def desk : Crypto where
  pair := ⟨fun _ => none, fun _ _ => .error (.Unauthorized "device token invalid")⟩
  register _ _ := .error (.Unauthorized "device token invalid")
  decode_header token := if "h." <+: token then .ok .HS512 else .error (.Unauthorized "bad token")
  encode claims := .ok ("h." ++ claims.identity)
  decode_hmac _ now token :=
    match Text.strip_prefix "h." token with
    | some identity =>
        if now ≤ 1702592300 then
          .ok ⟨identity, some 1699999995, some 1700000000, 1702592000⟩
        else .error (.Unauthorized "invalid token")
    | none => .error (.Unauthorized "invalid token")
  decode_device _ _ _ _ := .error (.Unauthorized "device token invalid")
  decode_claims_unverified _ := none
  verify_password password hash := decide (hash = "#" ++ password)
  sha256_hex _ := "0123456789abcdef"

/-- A request arrives, with this token. -/
def calls (request : AccountRequest) (token : Option Text) : Pool.Event AccountAct Outcome :=
  .act (.arrive ⟨{ authorization := token.map ("JWT " ++ ·) }, request⟩)

end HomeConnect.Accounts.Sessions
