/-
# Accounts.TwoPairings -- what the two ways to pair leave in the tables

`claim_device` and `pilotpair` write the same two tables.  Their owner updates come to
the same row; their shares do not: `pilotpair` binds no `created_at`, the column is
`NOT NULL` without a default, and `OR IGNORE` skips the row without a word.  So the two
paths end in the same tables exactly when the user had a share of the device before
(`pairings_agree_iff`), and only then is the user of a pair token authorized.
-/
import HomeConnect.Accounts.FirstPair

namespace HomeConnect.Accounts

open HomeConnect.Theory

set_option autoImplicit false

/-- A pairing request with nothing else running. -/
def PairRequest.alone (jwt : Jwt) (user : User) (request : PairRequest) (db : Db) :
    AppResult PairAnswer × Db :=
  (request.handle jwt user).run.run (fun op db => op.exec () db) db

/-- The user has an `authorized_users` row for the device. -/
def Db.authorized (db : Db) (user : User) (dongle : Text) : Bool :=
  (db.authorized_users.get? (user.id, dongle)).isSome

/-- A share without its time. -/
def Share.undated (s : Share) : Share := { s with created_at := 0 }

/-- The `devices` and `authorized_users` tables are equal up to `created_at`. -/
structure SameTables (db db' : Db) : Prop where
  devices : ∀ dongle, db.devices.get? dongle = db'.devices.get? dongle
  authorized_users : ∀ key, (db.authorized_users.get? key).map Share.undated =
    (db'.authorized_users.get? key).map Share.undated

/-- The two ends agree, and the user is authorized in both. -/
structure PairedAlike (user : User) (dongle : Text) (claimed paired : Db) : Prop where
  tables : SameTables claimed paired
  after_claim : claimed.authorized user dongle = true
  after_pair : paired.authorized user dongle = true

/-! ## Each handler alone -/

section Alone

variable {db : Db} {user : User} {device : Device}

/-- The owner update of an unowned device, whether or not it asks for one. -/
theorem set_owner_unowned (known : user ∈ db.users.rows)
    (found : db.devices.get? device.dongle_id = some device) (unowned : device.owner_id = none)
    (guarded : Bool) : ∃ db', db.set_owner device.dongle_id user.id guarded = some db' ∧
      db'.users = db.users ∧ db'.authorized_users = db.authorized_users ∧
      ∀ d, db'.devices.get? d =
        if d = device.dongle_id then some { device with owner_id := some user.id }
        else db.devices.get? d := by
  obtain ⟨db', written, users, shares, devices⟩ :=
    Db.set_owner_spec (Db.user_exists_of_mem known) device.dongle_id guarded
  refine ⟨db', written, users, shares, ?_⟩
  intro d
  rw [devices d]
  by_cases here : d = device.dongle_id
  · subst here
    rw [found]
    simp [unowned]
  · simp [here]

/-- A claim of an unowned device is answered `first_pair`; the user owns the device, and
has the share they had or a new one. -/
theorem claim_alone (jwt : Jwt) (known : user ∈ db.users.rows)
    (found : db.devices.get? device.dongle_id = some device) (unowned : device.owner_id = none)
    (now : Int) : ∃ db', PairRequest.alone jwt user (.claim_device device.dongle_id now) db =
        (.ok (.paired device.dongle_id true), db') ∧
      (∀ d, db'.devices.get? d =
        if d = device.dongle_id then some { device with owner_id := some user.id }
        else db.devices.get? d) ∧
      db'.authorized_users = db.authorized_users.insertIfAbsent
        { user_id := user.id, device_dongle_id := device.dongle_id, created_at := now } := by
  obtain ⟨owned, written, users, shares, devices⟩ :=
    set_owner_unowned known found unowned true
  have exists' : owned.user_exists user.id = true := by
    apply Db.user_exists_of_mem
    rw [users]
    exact known
  have present : (owned.devices.get? device.dongle_id).isSome = true := by
    rw [devices, if_pos rfl]
    rfl
  have shared : owned.share user.id device.dongle_id (some now) = some { owned with
      authorized_users := owned.authorized_users.insertIfAbsent
        { user_id := user.id, device_dongle_id := device.dongle_id, created_at := now } } := by
    unfold Db.share
    simp only [exists', present, Bool.and_self, if_true]
  refine ⟨{ owned with
      authorized_users := owned.authorized_users.insertIfAbsent
        { user_id := user.id, device_dongle_id := device.dongle_id, created_at := now } },
    ?_, devices, by rw [← shares]⟩
  simp only [PairRequest.alone, PairRequest.handle, claim_device, load_device_bind, Prog.run_op,
    PairOp.exec, found, claim_loaded, unowned, Request.run_perform_bind, written, shared]
  rfl

/-- A pair token that pairs the device leaves the user its owner and the shares as they
were. -/
theorem pilot_alone {jwt : Jwt} {pair_token : Text} {first : Bool} (known : user ∈ db.users.rows)
    (found : db.devices.get? device.dongle_id = some device) (unowned : device.owner_id = none)
    (paired : (PairRequest.alone jwt user (.pilotpair pair_token) db).1 =
      .ok (.paired device.dongle_id first)) :
    (∀ d, (PairRequest.alone jwt user (.pilotpair pair_token) db).2.devices.get? d =
        if d = device.dongle_id then some { device with owner_id := some user.id }
        else db.devices.get? d) ∧
      (PairRequest.alone jwt user (.pilotpair pair_token) db).2.authorized_users =
        db.authorized_users := by
  obtain ⟨owned, written, _, shares, devices⟩ := set_owner_unowned known found unowned false
  unfold PairRequest.alone PairRequest.handle at paired ⊢
  simp only [pilotpair] at paired ⊢
  cases decoded : jwt.decode_claims_unverified pair_token with
  | none =>
      rw [decoded] at paired
      cases paired
  | some unverified =>
      simp only [decoded, load_device_bind, Prog.run_op, PairOp.exec] at paired ⊢
      cases loaded : db.devices.get? unverified.identity with
      | none =>
          simp only [loaded] at paired
          cases paired
      | some dev =>
          simp only [loaded, pilotpair_loaded] at paired ⊢
          cases verified : jwt.verify_device_token dev.public_key pair_token with
          | error e =>
              simp only [verified] at paired
              cases paired
          | ok claims =>
              simp only [verified] at paired ⊢
              by_cases pair : claims.pair = true
              · -- The token's device answers under its own name, so it is this device.
                have same : dev.dongle_id = device.dongle_id := by
                  by_cases free : dev.owner_id = none
                  · simp only [pair, free, if_true, Request.run_perform_bind, Prog.run_op] at paired
                    cases wrote : db.set_owner dev.dongle_id user.id false with
                    | none =>
                        simp only [wrote] at paired
                        cases paired
                    | some db' =>
                        simp only [wrote] at paired
                        exact (PairAnswer.paired.inj (Except.ok.inj paired)).1
                  · simp only [pair, free, if_true, if_false] at paired
                    exact (PairAnswer.paired.inj (Except.ok.inj paired)).1
                have it : dev = device := by
                  have named := Table.key_of_get? loaded
                  rw [← named, same, found] at loaded
                  exact (Option.some.inj loaded).symm
                subst it
                simp only [pair, unowned, if_true, Request.run_perform_bind, Prog.run_op, written]
                exact ⟨devices, shares⟩
              · simp only [pair] at paired
                cases paired

end Alone

/-! ## Both paths -/

/-- **The two pairing paths** of a registered, unowned device end in the same tables, up
to the times of the shares, and with the user authorized, exactly when the user already
had a share of the device. -/
theorem pairings_agree_iff (jwt : Jwt) (db : Db) (user : User) (device : Device)
    (known : user ∈ db.users.rows) (found : db.devices.get? device.dongle_id = some device)
    (unowned : device.owner_id = none) (now : Int) (claimed paired : Db) (pair_token : Text)
    (answer : PairAnswer) (first : Bool)
    (claims : PairRequest.alone jwt user (.claim_device device.dongle_id now) db =
      (.ok answer, claimed))
    (pairs : PairRequest.alone jwt user (.pilotpair pair_token) db =
      (.ok (.paired device.dongle_id first), paired)) :
    PairedAlike user device.dongle_id claimed paired ↔
      db.authorized user device.dongle_id = true := by
  obtain ⟨_, answered, claim_devices, claim_shares⟩ := claim_alone jwt known found unowned now
  rw [claims] at answered
  cases answered
  obtain ⟨pair_devices, pair_shares⟩ := pilot_alone known found unowned (by rw [pairs])
  rw [pairs] at pair_devices pair_shares
  simp only at pair_devices pair_shares
  constructor
  · intro alike
    have after := alike.after_pair
    unfold Db.authorized at after ⊢
    rwa [pair_shares] at after
  · intro authorized
    have present : db.authorized_users.get? (user.id, device.dongle_id) ≠ none := by
      intro absent
      rw [Db.authorized, absent] at authorized
      cases authorized
    have settled : claimed.authorized_users = db.authorized_users := by
      rw [claim_shares]
      exact Table.insertIfAbsent_present present
    refine ⟨⟨?_, ?_⟩, ?_, ?_⟩
    · intro dongle
      rw [claim_devices, pair_devices]
    · intro key
      rw [settled, pair_shares]
    · rw [Db.authorized, settled]
      exact authorized
    · rw [Db.authorized, pair_shares]
      exact authorized

/-! ## Poles -/

private def newcomer : User := { id := 1, identity := "a", username := "alice" }

private def new_device : Device := { dongle_id := "dev", public_key := "pem" }

/-- A registered, unowned device, one user, and the shares given. -/
private def home (shares : Table Share Share.key) : Db where
  users :=
    { rows := [newcomer]
      sequence := 1
      ids := List.nodup_singleton _
      identities := List.nodup_singleton _
      usernames := List.nodup_singleton _
      given := by decide }
  devices := Table.single new_device
  authorized_users := shares

private def its_token : Jwt where
  decode_claims_unverified _ := some ⟨"dev", true⟩
  verify_device_token _ _ := .ok ⟨"dev", true⟩

/-- A user without a share pairs with the device's token, and has none afterwards. -/
theorem pair_token_shares_nothing : ¬ ∀ (jwt : Jwt) (db : Db) (user : User) (device : Device),
    user ∈ db.users.rows → db.devices.get? device.dongle_id = some device →
      device.owner_id = none → ∀ (now : Int) (claimed paired : Db) (pair_token : Text)
        (answer : PairAnswer) (first : Bool),
        PairRequest.alone jwt user (.claim_device device.dongle_id now) db = (.ok answer, claimed) →
        PairRequest.alone jwt user (.pilotpair pair_token) db =
          (.ok (.paired device.dongle_id first), paired) →
        PairedAlike user device.dongle_id claimed paired := by
  intro claim
  have alike := claim its_token (home Table.empty) newcomer new_device (List.mem_singleton.2 rfl)
    (by decide) rfl 1000 _ _ "signed" _ true rfl rfl
  have unshared : (PairRequest.alone its_token newcomer (.pilotpair "signed")
      (home Table.empty)).2.authorized newcomer "dev" = false := by decide
  have shared := alike.after_pair
  rw [show new_device.dongle_id = ("dev" : Text) from rfl] at shared
  exact Bool.false_ne_true (unshared.symm.trans shared)

/-- With an earlier share of the device, both paths leave it as it was. -/
theorem pairings_agree_iff_shared : PairedAlike newcomer "dev"
    (PairRequest.alone its_token newcomer (.claim_device "dev" 1000)
      (home (Table.single { user_id := 1, device_dongle_id := "dev" }))).2
    (PairRequest.alone its_token newcomer (.pilotpair "signed")
      (home (Table.single { user_id := 1, device_dongle_id := "dev" }))).2 :=
  (pairings_agree_iff its_token (home (Table.single { user_id := 1, device_dongle_id := "dev" }))
    newcomer new_device (List.mem_singleton.2 rfl) (by decide) rfl 1000 _ _ "signed" _ true
    rfl rfl).2 (by decide)

end HomeConnect.Accounts
