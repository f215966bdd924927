/-
# Media.Access -- who may see a drive, and who may fetch its files

A drive's info, its playlists and the status of its movies and subtitles are answered under
`allow_route_view`; the files these answers point to are served under `check_route_access`.
A public route is open to anyone under both.  For any other the first check asks
`can_manage_loaded`, by which an admin may see every device's drives; the second asks
`can_view_device`, which does not look at `is_admin`.

So an admin who neither owns a device nor shares it reads the playlist of its drives and is
refused every file in it (`admin_refused_files`).  Nobody else is told two different things
(`checks_agree_iff`).
-/
import HomeConnect.Drives.Alone
import HomeConnect.Drives.Poles
import HomeConnect.Media.Serve

namespace HomeConnect.Media

open HomeConnect.Theory HomeConnect.Storage HomeConnect.Drives

set_option autoImplicit false

/-! ## auth -/

/-- A token's identity is a device's dongle id or a user's. -/
def resolve_principal (identity : Text) : Request Op Auth := do
  match ← select fun w => w.db.accounts.devices.get? identity with
  | some device => pure { identity, device := some device }
  | none =>
      match ← select fun w => w.db.accounts.users.by_identity identity with
      | some user => pure { identity, user := some user }
      | none => throw (.Unauthorized "unknown identity")

/-! ## access -/

/-- May this user manage (view and control) the device?  Its owner, an admin, or a user it's
been shared with. -/
def can_manage_loaded (user : Accounts.User) (device : Accounts.Device) : Request Op Bool :=
  if user.is_admin ≠ 0 ∨ device.owner_id = some user.id then pure true
  else select fun w => (w.db.accounts.authorized_users.get? (user.id, device.dongle_id)).isSome

/-- Load the device and require the user can manage it; returns the device. -/
def can_manage_device (user : Accounts.User) (dongle : Text) : Request Op Accounts.Device := do
  match ← load_device dongle with
  | none => throw (.NotFound "unknown device")
  | some device =>
      Request.err_if (!(← can_manage_loaded user device)) (.Forbidden "not authorized for device")
      pure device

/-! ## v1 -/

/-- The `load_device` of the v1 handlers. -/
def load_known_device (dongle : Text) : Request Op Accounts.Device := do
  match ← load_device dongle with
  | some device => pure device
  | none => throw (.NotFound "unknown device")

/-- Allow viewing a route's data if it's public, otherwise require a logged-in caller who
can manage the device. -/
def allow_route_view (name dongle : Text) (auth : Option Auth) : Request Op Unit := do
  let is_public ← select fun w => (w.db.routes.get? name).map Route.is_public
  if is_public = some 1 then
    pure ()
  else
    match auth.bind Auth.user with
    | none => throw (.Unauthorized "login required")
    | some user => do
        let device ← load_known_device dongle
        Request.err_if (!(← can_manage_loaded user device))
          (.Forbidden "not authorized for device")

/-! ## What each check comes to -/

/-- The check lets the request through. -/
def Allows (env : Env) (check : Request Op Unit) (w : World) : Prop :=
  (alone env check w).1 = .ok ()

instance (env : Env) (check : Request Op Unit) (w : World) : Decidable (Allows env check w) :=
  inferInstanceAs (Decidable (_ = _))

def Public (db : Storage.Db) (name : Text) : Prop :=
  (db.routes.get? name).map Route.is_public = some 1

def Owner (db : Storage.Db) (user : Accounts.User) (dongle : Text) : Prop :=
  ∃ d, db.accounts.devices.get? dongle = some d ∧ d.owner_id = some user.id

def Shared (db : Storage.Db) (user : Accounts.User) (dongle : Text) : Prop :=
  (db.accounts.authorized_users.get? (user.id, dongle)).isSome

variable {env : Env} {w : World} {name dongle : Text}

/-- A check of a public route is over at once. -/
theorem allows_of_public {rest : Request Op Unit} :
    Allows env (do
      let is_public ← select fun w => (w.db.routes.get? name).map Route.is_public
      if is_public = some 1 then pure () else rest) w ↔
    Public w.db name ∨ Allows env rest w := by
  unfold Allows
  rw [alone_bind_ok (alone_select _ w)]
  by_cases shown : (w.db.routes.get? name).map Route.is_public = some 1
  · rw [if_pos shown]
    exact ⟨fun _ => .inl shown, fun _ => rfl⟩
  · rw [if_neg shown]
    exact ⟨fun allowed => .inr allowed, fun h => h.resolve_left shown⟩

theorem allows_err_if {p : Request Op Bool} {answer : Bool} (e : AppError)
    (ran : alone env p w = (.ok answer, w)) :
    Allows env (do Request.err_if (!(← p)) e) w ↔ answer = true := by
  unfold Allows
  rw [alone_bind_ok ran]
  cases answer with
  | false =>
      constructor
      · intro allowed
        cases allowed
      · intro no
        cases no
  | true => exact ⟨fun _ => rfl, fun _ => rfl⟩

theorem can_manage_alone (env : Env) (w : World) (user : Accounts.User) (device : Accounts.Device) :
    ∃ answer, alone env (can_manage_loaded user device) w = (.ok answer, w) ∧
      (answer = true ↔ user.is_admin ≠ 0 ∨ device.owner_id = some user.id ∨
        Shared w.db user device.dongle_id) := by
  unfold can_manage_loaded Shared
  by_cases first : user.is_admin ≠ 0 ∨ device.owner_id = some user.id
  · rw [if_pos first]
    exact ⟨true, rfl, fun _ => by rcases first with h | h <;> simp [h], fun _ => rfl⟩
  · rw [if_neg first]
    refine ⟨_, rfl, ?_⟩
    obtain ⟨plain, other⟩ := not_or.1 first
    simp only [plain, other, false_or]

theorem can_view_alone (env : Env) (w : World) {auth : Auth} {user : Accounts.User} (device : Accounts.Device)
    (is_user : auth.user = some user) (no_device : auth.device = none) :
    ∃ answer, alone env (can_view_device auth device) w = (.ok answer, w) ∧
      (answer = true ↔ device.owner_id = some user.id ∨ Shared w.db user device.dongle_id) := by
  unfold can_view_device Shared
  rw [is_user, no_device]
  dsimp only
  by_cases owner : device.owner_id = some user.id
  · rw [if_pos owner]
    exact ⟨true, rfl, fun _ => .inl owner, fun _ => rfl⟩
  · rw [if_neg owner]
    refine ⟨_, rfl, ?_⟩
    simp only [owner, false_or]

/-- Whom the info, playlist and status handlers answer. -/
theorem allow_route_view_iff (env : Env) (w : World) (name dongle : Text) {auth : Auth} {user : Accounts.User}
    (is_user : auth.user = some user) :
    Allows env (allow_route_view name dongle (some auth)) w ↔
      Public w.db name ∨ ∃ d, w.db.accounts.devices.get? dongle = some d ∧
        (user.is_admin ≠ 0 ∨ d.owner_id = some user.id ∨ Shared w.db user dongle) := by
  unfold allow_route_view
  rw [allows_of_public]
  refine or_congr_right ?_
  rw [Option.bind_some, is_user]
  dsimp only
  have loaded : alone env (load_device dongle) w =
      (.ok (w.db.accounts.devices.get? dongle), w) := alone_select _ w
  cases found : w.db.accounts.devices.get? dongle with
  | none =>
      have missing : alone env (load_known_device dongle) w =
          (.error (.NotFound "unknown device"), w) := by
        rw [load_known_device, alone_bind_ok loaded, found]
        rfl
      unfold Allows
      rw [alone_bind, missing]
      constructor
      · intro allowed
        cases allowed
      · rintro ⟨d, is, _⟩
        cases is
  | some d =>
      have known : alone env (load_known_device dongle) w = (.ok d, w) := by
        rw [load_known_device, alone_bind_ok loaded, found]
        rfl
      have own_key : d.dongle_id = dongle := Table.key_of_get? found
      obtain ⟨answer, ran, is⟩ := can_manage_alone env w user d
      rw [own_key] at is
      unfold Allows
      rw [alone_bind_ok known]
      have decided := allows_err_if (.Forbidden "not authorized for device") ran
      unfold Allows at decided
      rw [decided, is]
      constructor
      · exact fun may => ⟨d, rfl, may⟩
      · rintro ⟨d', same, may⟩
        cases same
        exact may

/-- Whom the file handlers serve. -/
theorem check_route_access_iff (env : Env) (w : World) (name dongle : Text) {auth : Auth} {user : Accounts.User}
    (is_user : auth.user = some user) (no_device : auth.device = none) :
    Allows env (check_route_access name dongle (some auth)) w ↔
      Public w.db name ∨ Owner w.db user dongle ∨
        ((w.db.accounts.devices.get? dongle).isSome ∧ Shared w.db user dongle) := by
  unfold check_route_access
  rw [allows_of_public]
  refine or_congr_right ?_
  dsimp only
  have loaded : alone env (load_device dongle) w =
      (.ok (w.db.accounts.devices.get? dongle), w) := alone_select _ w
  unfold Owner
  cases found : w.db.accounts.devices.get? dongle with
  | none =>
      have viewed : alone env (can_view_route auth dongle) w = (.ok false, w) := by
        rw [can_view_route, alone_bind_ok loaded, found]
        rfl
      rw [allows_err_if _ viewed]
      simp
  | some d =>
      have own_key : d.dongle_id = dongle := Table.key_of_get? found
      obtain ⟨answer, ran, is⟩ := can_view_alone env w d is_user no_device
      rw [own_key] at is
      have viewed : alone env (can_view_route auth dongle) w = (.ok answer, w) := by
        rw [can_view_route, alone_bind_ok loaded, found]
        exact ran
      rw [allows_err_if _ viewed, is]
      simp

/-! ## One viewer, two checks -/

/-- Neither an admin, nor the device's owner, nor a user it's been shared with. -/
def Stranger (db : Storage.Db) (user : Accounts.User) (dongle : Text) : Prop :=
  user.is_admin = 0 ∧ ¬ Owner db user dongle ∧ ¬ Shared db user dongle

/-- What is promised to a user who looks at the route. -/
structure ChecksAgree (env : Env) (w : World) (auth : Auth) (user : Accounts.User)
    (dongle ts : Text) : Prop where
  served : Allows env (allow_route_view (fullname dongle ts) dongle (some auth)) w →
    Allows env (check_route_access (fullname dongle ts) dongle (some auth)) w
  refused : ¬ Public w.db (fullname dongle ts) → Stranger w.db user dongle →
    ¬ Allows env (allow_route_view (fullname dongle ts) dongle (some auth)) w ∧
      ¬ Allows env (check_route_access (fullname dongle ts) dongle (some auth)) w

/-- A token is resolved to one kind of principal. -/
theorem no_device_of_user {identity : Text} {auth : Auth} {user : Accounts.User}
    (signed_in : alone env (resolve_principal identity) w = (.ok auth, w))
    (is_user : auth.user = some user) : auth.device = none := by
  rw [resolve_principal, alone_bind_ok (alone_select _ w)] at signed_in
  cases device : w.db.accounts.devices.get? identity with
  | some d =>
      rw [device] at signed_in
      cases signed_in
      cases is_user
  | none =>
      rw [device] at signed_in
      dsimp only at signed_in
      rw [alone_bind_ok (alone_select _ w)] at signed_in
      cases row : w.db.accounts.users.by_identity identity with
      | none => rw [row] at signed_in; cases signed_in
      | some u => rw [row] at signed_in; cases signed_in; rfl

/-- **The two checks agree** but for an admin who neither owns a registered device nor
shares it. -/
theorem checks_agree_iff (env : Env) (w : World) (identity : Text) (auth : Auth)
    (user : Accounts.User) (signed_in : alone env (resolve_principal identity) w = (.ok auth, w))
    (is_user : auth.user = some user) (dongle ts : Text) :
    ChecksAgree env w auth user dongle ts ↔
      Public w.db (fullname dongle ts) ∨ user.is_admin = 0 ∨
        w.db.accounts.devices.get? dongle = none ∨ Owner w.db user dongle ∨
        Shared w.db user dongle := by
  have no_device := no_device_of_user signed_in is_user
  have view := allow_route_view_iff env w (fullname dongle ts) dongle is_user
  have files := check_route_access_iff env w (fullname dongle ts) dongle is_user no_device
  constructor
  · intro agree
    by_contra others
    simp only [not_or] at others
    obtain ⟨hidden, admin, known, not_owner, not_shared⟩ := others
    obtain ⟨d, found⟩ := Option.ne_none_iff_exists'.1 known
    have served := files.1 (agree.served (view.2 (.inr ⟨d, found, .inl admin⟩)))
    rcases served with shown | owner | ⟨_, shared⟩
    · exact hidden shown
    · exact not_owner owner
    · exact not_shared shared
  · intro when
    refine ⟨fun allowed => ?_, fun hidden stranger => ⟨fun allowed => ?_, fun allowed => ?_⟩⟩
    · refine files.2 ?_
      rcases view.1 allowed with shown | ⟨d, found, admin | owner | shared⟩
      · exact .inl shown
      · rcases when with shown | plain | unknown | owner | shared
        · exact .inl shown
        · exact absurd plain admin
        · rw [found] at unknown
          cases unknown
        · exact .inr (.inl owner)
        · exact .inr (.inr ⟨by rw [found]; rfl, shared⟩)
      · exact .inr (.inl ⟨d, found, owner⟩)
      · exact .inr (.inr ⟨by rw [found]; rfl, shared⟩)
    · obtain ⟨plain, not_owner, not_shared⟩ := stranger
      rcases view.1 allowed with shown | ⟨d, found, admin | owner | shared⟩
      · exact hidden shown
      · exact admin plain
      · exact not_owner ⟨d, found, owner⟩
      · exact not_shared shared
    · obtain ⟨_, not_owner, not_shared⟩ := stranger
      rcases files.1 allowed with shown | owner | ⟨_, shared⟩
      · exact hidden shown
      · exact not_owner owner
      · exact not_shared shared

private def viewer (is_admin : Int) : Accounts.User :=
  { id := 1, identity := "i", username := "n", is_admin }

/-- One user, a device that is someone else's, and a route of it. -/
private def one_viewer (is_admin : Int) : World :=
  { one_drive Table.empty with
    db.accounts.users :=
      { rows := [viewer is_admin]
        sequence := 1
        ids := List.nodup_singleton _
        identities := List.nodup_singleton _
        usernames := List.nodup_singleton _
        given := fun u member => by cases List.mem_singleton.1 member; exact Int.le_refl _ } }

/-- An admin is shown a drive and refused its files. -/
theorem admin_refused_files : ¬ ∀ (env : Env) (w : World) (identity : Text) (auth : Auth)
    (user : Accounts.User), alone env (resolve_principal identity) w = (.ok auth, w) →
    auth.user = some user → ∀ dongle ts : Text, ChecksAgree env w auth user dongle ts := by
  intro claim
  have agree := claim plain_env (one_viewer 1) "i" { identity := "i", user := some (viewer 1) }
    (viewer 1) rfl rfl "d" "t"
  have shown : Allows plain_env (allow_route_view (fullname "d" "t") "d"
      (some { identity := "i", user := some (viewer 1) })) (one_viewer 1) := by
    decide
  have refused : ¬ Allows plain_env (check_route_access (fullname "d" "t") "d"
      (some { identity := "i", user := some (viewer 1) })) (one_viewer 1) := by
    decide
  exact refused (agree.served shown)

theorem checks_agree_plain_user :
    ChecksAgree plain_env (one_viewer 0) { identity := "i", user := some (viewer 0) } (viewer 0)
      "d" "t" :=
  (checks_agree_iff plain_env (one_viewer 0) "i" _ (viewer 0) rfl rfl "d" "t").2
    (.inr (.inl rfl))

end HomeConnect.Media
