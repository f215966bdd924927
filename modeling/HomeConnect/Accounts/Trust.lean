/-
# Accounts.Trust -- who a request speaks for, and what it may change

A run is `Honest` when every HMAC token that verifies is one the server made and every
new user's identity is a uuid; what else the libraries do is free.  In an honest run,
whatever the interleaving:

* a principal is grounded (`principals_grounded`): a user's password was given, or the
  device's own key has verified a token;
* as long as no admin of the start gave a password, nobody else alters the accounts beyond
  what is theirs (`outsiders_alter_nothing`): the users are the same, and so are the owners
  and shares of every device that had an owner.

Both come from one guarantee.  What a statement needs is `AccountOp.ok`; each handler has a
triple that says it asks for no more.
-/
import HomeConnect.Accounts.FirstPair
import HomeConnect.Accounts.Sessions

namespace HomeConnect.Accounts.Sessions

open HomeConnect.Theory

set_option autoImplicit false

/-- User identities are uuids and dongle ids are hex digits; the histories are of such
names, and whatever was issued speaks for one of them. -/
structure Formed (s : Service) : Prop where
  users : ∀ u ∈ s.db.users.rows, '-' ∈ u.identity
  devices : ∀ d ∈ s.db.devices.rows, '-' ∉ d.dongle_id
  knew : ∀ i ∈ s.knew, '-' ∈ i
  signed : ∀ i ∈ s.signed, '-' ∉ i
  issued : ∀ t ∈ s.issued, t.2.identity ∈ s.knew ∨ t.2.identity ∈ s.signed

/-- An admin of the start gave their password. -/
def Compromised (start : Db) (s : Service) : Prop :=
  ∃ u ∈ start.users.rows, u.is_admin ≠ 0 ∧ u.identity ∈ s.knew

/-- A user of the start, by id, gave their password. -/
def Acting (start : Db) (s : Service) (id : Int) : Prop :=
  ∃ u ∈ start.users.rows, u.id = id ∧ u.identity ∈ s.knew

/-- The accounts are those of the start, but for passwords of users who gave theirs and for
devices nobody owned. -/
structure Unaltered (start : Db) (s : Service) : Prop where
  old : ∀ v ∈ s.db.users.rows, ∃ u ∈ start.users.rows, v = { u with password_hash := v.password_hash }
  remain : ∀ u ∈ start.users.rows, ∃ v ∈ s.db.users.rows,
    v = { u with password_hash := v.password_hash } ∧
      (v.password_hash = u.password_hash ∨ u.identity ∈ s.knew)
  owners : ∀ k i, start.owner k = some i → s.db.owner k = some i
  taken : ∀ k i, s.db.owner k = some i → start.owner k = some i ∨
    (start.owner k = none ∧ Acting start s i)
  shares : ∀ a ∈ start.authorized_users.rows, a ∈ s.db.authorized_users.rows
  shared : ∀ a ∈ s.db.authorized_users.rows, a ∈ start.authorized_users.rows ∨
    (start.owner a.device_dongle_id = none ∧ Acting start s a.user_id)

theorem Unaltered.refl (s : Service) : Unaltered s.db s where
  old v member := ⟨v, member, rfl⟩
  remain u member := ⟨u, member, rfl, .inl rfl⟩
  owners _ _ owned := owned
  taken _ _ owned := .inl owned
  shares _ member := member
  shared _ member := .inl member

/-- What holds of the service throughout. -/
structure Sound (start : Db) (s : Service) : Prop where
  formed : Formed s
  spared : Compromised start s ∨ Unaltered start s

/-- The outcomes of an honest run: an HMAC token that verifies was issued with these claims,
and the identity of a new user is a uuid. -/
def AccountOp.honest (crypto : Crypto) {β : Type} (f : AccountOp β) (s : Service) : Bool :=
  match f with
  | .decode_hmac alg token =>
      match crypto.decode_hmac alg (s.now / 1000) token with
      | .ok claims => decide ((token, claims) ∈ s.issued)
      | .error _ => true
  | .user (.insert identity _ _ _ _ _) => decide ('-' ∈ identity)
  | _ => true

def Honest (crypto : Crypto) (p : Pool Service AccountTask) : Pool.Event AccountAct Outcome → Bool
  | .turn i _ =>
      match p.tasks[i]? with
      | some ⟨_, .op f _⟩ => f.honest crypto p.shared
      | _ => true
  | .act _ => true

/-- What a statement needs. -/
def AccountOp.ok (start : Db) {β : Type} (f : AccountOp β) (s : Service) : Prop :=
  match f with
  | .user (.user_by_identity _) | .user .admin_count => True
  | .user _ => Compromised start s
  | .pair (.load_device _) => True
  | .pair (.set_owner dongle owner _) =>
      Compromised start s ∨ (start.owner dongle = none ∧ Acting start s owner)
  | .pair (.share user_id dongle _) =>
      Compromised start s ∨ (start.owner dongle = none ∧ Acting start s user_id)
  | .set_password identity _ => Compromised start s ∨ identity ∈ s.knew
  | .register_device dongle _ => '-' ∉ dongle
  | .verify_password row _ => '-' ∈ row.identity
  | .encode claims => claims.identity ∈ s.knew ∨ claims.identity ∈ s.signed
  | .decode_device device _ _ => '-' ∉ device.dongle_id
  | _ => True

/-- What others keep. -/
structure Keeps (start : Db) (s s' : Service) : Prop where
  knew : ∀ i ∈ s.knew, i ∈ s'.knew
  signed : ∀ i ∈ s.signed, i ∈ s'.signed
  sound : Sound start s → Sound start s'

def trust (crypto : Crypto) (start : Db) : Guarantee Service AccountOp Outcome where
  exec := AccountOp.exec crypto
  rely := Keeps start
  ok f s := f.ok start s
  legit f _ s := f.honest crypto s = true

variable {crypto : Crypto} {start : Db} {s s' : Service}

/-! ## What a statement does -/

theorem Compromised.mono (grown : ∀ i ∈ s.knew, i ∈ s'.knew) :
    Compromised start s → Compromised start s'
  | ⟨u, member, admin, known⟩ => ⟨u, member, admin, grown _ known⟩

theorem Acting.mono (grown : ∀ i ∈ s.knew, i ∈ s'.knew) {id : Int} :
    Acting start s id → Acting start s' id
  | ⟨u, member, same, known⟩ => ⟨u, member, same, grown _ known⟩

/-- The histories only grow. -/
theorem exec_grows {β : Type} (f : AccountOp β) (o : Outcome) (s : Service) :
    (∀ i ∈ s.knew, i ∈ (f.exec crypto o s).2.knew) ∧
      ∀ i ∈ s.signed, i ∈ (f.exec crypto o s).2.signed := by
  cases f with
  | verify_password row password =>
      simp only [AccountOp.exec]
      split
      · exact ⟨fun i member => List.mem_cons_of_mem _ member, fun i member => member⟩
      · exact ⟨fun i member => member, fun i member => member⟩
  | decode_device device alg token =>
      simp only [AccountOp.exec]
      split
      · exact ⟨fun i member => member, fun i member => List.mem_cons_of_mem _ member⟩
      · exact ⟨fun i member => member, fun i member => member⟩
  | encode claims =>
      simp only [AccountOp.exec]
      split <;> exact ⟨fun i member => member, fun i member => member⟩
  | _ => cases o <;> exact ⟨fun i member => member, fun i member => member⟩

/-- The database is as it was, and the histories have grown by names that fit. -/
theorem Sound.history (sound : Sound start s) (same : s'.db = s.db)
    (grown : ∀ i ∈ s.knew, i ∈ s'.knew)
    (knew : ∀ i ∈ s'.knew, '-' ∈ i) (signed : ∀ i ∈ s'.signed, '-' ∉ i)
    (issued : ∀ t ∈ s'.issued, t.2.identity ∈ s'.knew ∨ t.2.identity ∈ s'.signed) :
    Sound start s' := by
  refine ⟨⟨?_, ?_, knew, signed, issued⟩, ?_⟩
  · rw [same]
    exact sound.formed.users
  · rw [same]
    exact sound.formed.devices
  · refine sound.spared.imp (Compromised.mono grown) fun kept => ?_
    refine ⟨?_, ?_, ?_, ?_, ?_, ?_⟩
    · rw [same]
      exact kept.old
    · rw [same]
      intro u member
      obtain ⟨v, there, shape, hash⟩ := kept.remain u member
      exact ⟨v, there, shape, hash.imp_right (grown _)⟩
    · rw [same]
      exact kept.owners
    · rw [same]
      intro k i owned
      exact (kept.taken k i owned).imp_right fun free => ⟨free.1, free.2.mono grown⟩
    · rw [same]
      exact kept.shares
    · rw [same]
      intro a member
      exact (kept.shared a member).imp_right fun free => ⟨free.1, free.2.mono grown⟩

/-- Only the database has changed. -/
theorem Sound.database (sound : Sound start s) {db : Db}
    (users : ∀ u ∈ db.users.rows, '-' ∈ u.identity)
    (devices : ∀ d ∈ db.devices.rows, '-' ∉ d.dongle_id)
    (spared : Compromised start s ∨ Unaltered start { s with db }) :
    Sound start { s with db } :=
  ⟨⟨users, devices, sound.formed.knew, sound.formed.signed, sound.formed.issued⟩, spared⟩

/-- A user statement: reads, or the writes of an admin. -/
theorem Sound.user (sound : Sound start s) {β : Type} {f : UserOp β} {o : Outcome}
    (ok : (AccountOp.user f).ok start s) (honest : (AccountOp.user f).honest crypto s = true) :
    Sound start { s with db := (f.exec o s.db).2 } := by
  cases o with
  | failed => cases f <;> exact sound
  | ok =>
      cases f with
      | user_by_identity identity => exact sound
      | admin_count => exact sound
      | update identity is_admin email =>
          refine sound.database ?_ sound.formed.devices (.inl ok)
          intro u member
          obtain ⟨v, there, rfl⟩ := Users.mem_set_admin.1 member
          split <;> exact sound.formed.users v there
      | delete id =>
          refine sound.database ?_ ?_ (.inl ok)
          · intro u member
            exact sound.formed.users u (Users.mem_delete.1 member).1
          · intro d member
            obtain ⟨e, there, same⟩ := List.mem_map.1 member
            rw [← same]
            split <;> exact sound.formed.devices e there
      | insert identity username password_hash email is_admin created_at =>
          simp only [UserOp.exec]
          split
          · next users inserted =>
              refine sound.database ?_ sound.formed.devices (.inl ok)
              intro u member
              unfold Users.insert at inserted
              split at inserted
              · cases inserted
                rcases List.mem_append.1 member with before | new
                · exact sound.formed.users u before
                · rw [List.mem_singleton.1 new]
                  exact of_decide_eq_true honest
              · cases inserted
          · exact sound

/-! ### Owners and shares -/

/-- An owner `UPDATE` changes the owner of the device it names, if any, and nothing else. -/
theorem set_owner_changes {db db' : Db} {dongle : Text} {id : Int} {unowned : Bool}
    (written : db.set_owner dongle id unowned = some db') :
    db'.users = db.users ∧ db'.authorized_users = db.authorized_users ∧
      (db'.devices.rows.map Device.dongle_id = db.devices.rows.map Device.dongle_id) ∧
      ∀ k, db'.owner k = db.owner k ∨ (k = dongle ∧ db'.owner k = some id) := by
  unfold Db.set_owner at written
  dsimp only at written
  split at written
  · cases written
  · cases written
    refine ⟨rfl, rfl, ?_, fun k => ?_⟩
    · exact Table.map_update db.devices _ (fun d : Device => { d with owner_id := some id })
        (fun _ => rfl) _ fun _ => rfl
    · simp only [Db.owner, Table.get?_update]
      cases found : db.devices.get? k with
      | none => exact .inl rfl
      | some d =>
          have same : d.dongle_id = k := Table.key_of_get? found
          simp only [Option.map_some, Option.bind_some]
          split
          · next hit =>
              simp only [Bool.and_eq_true, decide_eq_true_eq] at hit
              exact .inr ⟨same.symm.trans hit.1, rfl⟩
          · exact .inl rfl

/-- A share is added, for the user and the device it names; nothing else changes. -/
theorem share_changes {db db' : Db} {dongle : Text} {id : Int} {created_at : Option Int}
    (written : db.share id dongle created_at = some db') :
    db'.users = db.users ∧ db'.devices = db.devices ∧
      (∀ a ∈ db.authorized_users.rows, a ∈ db'.authorized_users.rows) ∧
      ∀ a ∈ db'.authorized_users.rows, a ∈ db.authorized_users.rows ∨
        (a.user_id = id ∧ a.device_dongle_id = dongle) := by
  cases created_at with
  | none =>
      cases written
      exact ⟨rfl, rfl, fun _ member => member, fun _ member => .inl member⟩
  | some created_at =>
      unfold Db.share at written
      dsimp only at written
      split at written
      · cases written
        refine ⟨rfl, rfl, fun a member => Table.mem_insertIfAbsent.2 (.inl member), fun a member => ?_⟩
        refine (Table.mem_insertIfAbsent.1 member).imp_right ?_
        rintro ⟨rfl, _⟩
        exact ⟨rfl, rfl⟩
      · cases written

/-- Registering a device, new or not, changes no owner. -/
theorem owner_register (db : Db) (dongle_id public_key k : Text) :
    Db.owner { db with devices := register db.devices dongle_id public_key } k = db.owner k := by
  simp only [Db.owner, register, Table.get?_upsert]
  split
  · next same =>
      cases found : db.devices.get? k with
      | none => rfl
      | some d => rfl
  · rfl

theorem Sound.set_owner (sound : Sound start s) {db : Db} {dongle : Text} {id : Int}
    {unowned : Bool} (written : s.db.set_owner dongle id unowned = some db)
    (ok : Compromised start s ∨ (start.owner dongle = none ∧ Acting start s id)) :
    Sound start { s with db } := by
  obtain ⟨users, shares, dongles, named⟩ := set_owner_changes written
  refine sound.database (users ▸ sound.formed.users) ?_ ?_
  · intro d member
    have listed : d.dongle_id ∈ s.db.devices.rows.map Device.dongle_id :=
      dongles ▸ List.mem_map_of_mem member
    obtain ⟨e, there, same⟩ := List.mem_map.1 listed
    exact same ▸ sound.formed.devices e there
  · rcases ok with fallen | ⟨free, acting⟩
    · exact .inl fallen
    refine sound.spared.imp_right fun kept => ?_
    refine ⟨users ▸ kept.old, users ▸ kept.remain, ?_, ?_, shares ▸ kept.shares, shares ▸ kept.shared⟩
    · intro k i owned
      rcases named k with same | ⟨rfl, _⟩
      · rw [same]
        exact kept.owners k i owned
      · rw [free] at owned
        cases owned
    · intro k i owned
      rcases named k with same | ⟨rfl, given⟩
      · rw [same] at owned
        exact kept.taken k i owned
      · rw [given] at owned
        cases owned
        exact .inr ⟨free, acting⟩

theorem Sound.share (sound : Sound start s) {db : Db} {dongle : Text} {id : Int}
    {created_at : Option Int} (written : s.db.share id dongle created_at = some db)
    (ok : Compromised start s ∨ (start.owner dongle = none ∧ Acting start s id)) :
    Sound start { s with db } := by
  obtain ⟨users, devices, stay, named⟩ := share_changes written
  have owners : db.owner = s.db.owner := funext fun k => by rw [Db.owner, Db.owner, devices]
  refine sound.database (users ▸ sound.formed.users) (devices ▸ sound.formed.devices) ?_
  rcases ok with fallen | ⟨free, acting⟩
  · exact .inl fallen
  refine sound.spared.imp_right fun kept => ?_
  refine ⟨users ▸ kept.old, users ▸ kept.remain, owners ▸ kept.owners, owners ▸ kept.taken,
    fun a member => stay a (kept.shares a member), fun a member => ?_⟩
  rcases named a member with before | ⟨same, here⟩
  · exact kept.shared a before
  · rw [same, here]
    exact .inr ⟨free, acting⟩

/-- A pairing statement. -/
theorem Sound.pair (sound : Sound start s) {β : Type} {f : PairOp β}
    (ok : (AccountOp.pair f).ok start s) : Sound start { s with db := (f.exec () s.db).2 } := by
  cases f with
  | load_device dongle => exact sound
  | set_owner dongle id unowned =>
      simp only [PairOp.exec]
      split
      · next db written => exact sound.set_owner written ok
      · exact sound
  | share id dongle created_at =>
      simp only [PairOp.exec]
      split
      · next db written => exact sound.share written ok
      · exact sound

/-! ### Passwords and registrations -/

theorem Sound.set_password (sound : Sound start s) {identity : Text} (hash : Text)
    (ok : Compromised start s ∨ identity ∈ s.knew) :
    Sound start { s with db.users := Sessions.set_password s.db.users identity hash } := by
  refine sound.database ?_ sound.formed.devices ?_
  · intro u member
    obtain ⟨v, there, same⟩ := List.mem_map.1 member
    rw [← same]
    split <;> exact sound.formed.users v there
  · rcases ok with fallen | known
    · exact .inl fallen
    refine sound.spared.imp_right fun kept => ?_
    refine ⟨?_, ?_, kept.owners, kept.taken, kept.shares, kept.shared⟩
    · intro v member
      obtain ⟨w, there, same⟩ := List.mem_map.1 member
      obtain ⟨u, first, shape⟩ := kept.old w there
      refine ⟨u, first, ?_⟩
      rw [← same]
      split
      · rw [shape]
      · exact shape
    · intro u member
      obtain ⟨w, there, shape, hash⟩ := kept.remain u member
      refine ⟨_, List.mem_map_of_mem there, ?_⟩
      split
      · next named =>
          refine ⟨by rw [shape], .inr ?_⟩
          rw [shape] at named
          exact (show u.identity = identity from named) ▸ known
      · exact ⟨shape, hash⟩

theorem Sound.register (sound : Sound start s) {dongle_id : Text} (public_key : Text)
    (ok : '-' ∉ dongle_id) :
    Sound start { s with db.devices := Sessions.register s.db.devices dongle_id public_key } := by
  have owners := owner_register s.db dongle_id public_key
  refine sound.database sound.formed.users ?_ ?_
  · intro d member
    have found := Table.get?_eq_some.2 ⟨member, rfl⟩
    rw [Sessions.register, Table.get?_upsert] at found
    split at found
    · next same => exact same ▸ ok
    · exact sound.formed.devices d (Table.get?_eq_some.1 found).1
  · refine sound.spared.imp_right fun kept => ?_
    refine ⟨kept.old, kept.remain, ?_, ?_, kept.shares, kept.shared⟩
    · intro k i owned
      rw [← kept.owners k i owned]
      exact owners k
    · intro k i owned
      exact kept.taken k i ((owners k).symm.trans owned)

/-! ### Every statement -/

theorem Sound.exec (sound : Sound start s) {β : Type} {f : AccountOp β} {o : Outcome}
    (ok : f.ok start s) (honest : f.honest crypto s = true) : Sound start (f.exec crypto o s).2 := by
  cases f with
  | clock => exact sound
  | user f => exact sound.user ok honest
  | pair f =>
      cases o with
      | failed => exact sound
      | ok => exact sound.pair ok
  | by_username username => cases o <;> exact sound
  | shared id dongle => cases o <;> exact sound
  | set_password identity hash =>
      cases o with
      | failed => exact sound
      | ok => exact sound.set_password hash ok
  | register_device dongle public_key =>
      cases o with
      | failed => exact sound
      | ok => exact sound.register public_key ok
  | verify_password row password =>
      simp only [AccountOp.exec]
      split
      · refine sound.history rfl (fun i member => List.mem_cons_of_mem _ member) ?_
          sound.formed.signed fun t member => (sound.formed.issued t member).imp_left
            fun known => List.mem_cons_of_mem _ known
        intro i member
        rcases List.mem_cons.1 member with rfl | before
        · exact ok
        · exact sound.formed.knew i before
      · exact sound
  | encode claims =>
      simp only [AccountOp.exec]
      split
      · refine sound.history rfl (fun i member => member) sound.formed.knew sound.formed.signed ?_
        intro t member
        rcases List.mem_cons.1 member with rfl | before
        · exact ok
        · exact sound.formed.issued t before
      · exact sound
  | decode_hmac alg token => exact sound
  | decode_device device alg token =>
      simp only [AccountOp.exec]
      split
      · refine sound.history rfl (fun i member => member) sound.formed.knew ?_
          fun t member => (sound.formed.issued t member).imp_right
            fun known => List.mem_cons_of_mem _ known
        intro i member
        rcases List.mem_cons.1 member with rfl | before
        · exact ok
        · exact sound.formed.signed i before
      · exact sound

theorem trust_lawful (crypto : Crypto) (start : Db) : (trust crypto start).Lawful where
  refl _ := ⟨fun _ member => member, fun _ member => member, id⟩
  trans first then_ :=
    ⟨fun i member => then_.knew i (first.knew i member),
      fun i member => then_.signed i (first.signed i member),
      fun sound => then_.sound (first.sound sound)⟩
  keeps {_ f o s} ok honest :=
    ⟨(exec_grows f o s).1, (exec_grows f o s).2, fun sound => sound.exec ok honest⟩

/-! ## Who a request speaks for -/

/-- The user's row is one of the start, but for the password. -/
def Listed (start : Db) (s : Service) (u : User) : Prop :=
  Compromised start s ∨
    ∃ v ∈ start.users.rows, v.id = u.id ∧ v.identity = u.identity ∧ v.is_admin = u.is_admin

/-- A principal is a user whose password was given or a device whose key verified a token. -/
structure Grounded (auth : Auth) (s : Service) : Prop where
  one : auth.user.isSome = !auth.device.isSome
  user : ∀ u, auth.user = some u → u.identity ∈ s.knew
  device : ∀ d, auth.device = some d → d.dongle_id ∈ s.signed

theorem Grounded.of_user {claims : Claims} {u : User} (known : u.identity ∈ s.knew) :
    Grounded { claims, user := some u } s :=
  ⟨rfl, fun _ same => Option.some.inj same ▸ known, fun _ same => nomatch same⟩

theorem Grounded.of_device {claims : Claims} {d : Device} (signed : d.dongle_id ∈ s.signed) :
    Grounded { claims, device := some d } s :=
  ⟨rfl, fun _ same => (nomatch same), fun _ same => Option.some.inj same ▸ signed⟩

theorem Grounded.mono {auth : Auth} (grounded : Grounded auth s) (kept : Keeps start s s') :
    Grounded auth s' :=
  ⟨grounded.one, fun u same => kept.knew _ (grounded.user u same),
    fun d same => kept.signed _ (grounded.device d same)⟩

theorem Listed.mono {u : User} (listed : Listed start s u) (kept : Keeps start s s') :
    Listed start s' u := listed.imp_left (Compromised.mono kept.knew)

/-- A row read from the table is listed. -/
theorem Sound.listed (sound : Sound start s) {u : User} (member : u ∈ s.db.users.rows) :
    Listed start s u := by
  refine sound.spared.imp_right fun kept => ?_
  obtain ⟨v, first, shape⟩ := kept.old u member
  rw [shape]
  exact ⟨v, first, rfl, rfl, rfl⟩

/-- An admin whose password was given is one of the start. -/
theorem Listed.compromised {u : User} (listed : Listed start s u) (known : u.identity ∈ s.knew)
    (admin : u.is_admin ≠ 0) : Compromised start s := by
  rcases listed with fallen | ⟨v, first, -, named, flag⟩
  · exact fallen
  · exact ⟨v, first, flag ▸ admin, named ▸ known⟩

theorem Listed.acting {u : User} (listed : Listed start s u) (known : u.identity ∈ s.knew) :
    Compromised start s ∨ Acting start s u.id := by
  refine listed.imp_right ?_
  rintro ⟨v, first, same, named, -⟩
  exact ⟨v, first, same, named ▸ known⟩

abbrev Gives (crypto : Crypto) (start : Db) {α : Type} (Q : α → Service → Prop)
    (p : Request AccountOp α) (s : Service) : Prop := Request.Gives (trust crypto start) Q p s

theorem gives_ask {β : Type} {f : AccountOp β} {Q : β → Service → Prop}
    (need : ∀ s', Keeps start s s' → f.ok start s')
    (post : ∀ s' o s'', Keeps start s s' → Keeps start (f.exec crypto o s').2 s'' →
      Q (f.exec crypto o s').1 s'') : Gives crypto start Q (ask f) s := by
  refine Guarantee.Ensures.op need fun s' o kept _ s'' after a same => ?_
  cases same
  exact post s' o s'' kept after

/-- Loading a device: the row has the name asked for, which is formed. -/
theorem load_device_gives (sound : Sound start s) (dongle : Text) :
    Gives crypto start (fun found s' => ∀ d, found = some d → d.dongle_id = dongle ∧
        '-' ∉ d.dongle_id ∧ (Compromised start s' ∨ (d.owner_id = none → start.owner dongle = none)))
      (Request.perform (.pair (.load_device dongle))) s := by
  refine Request.Gives.perform (fun _ _ => trivial) ?_
  rintro s' o found s'' before - answered after d rfl
  cases o with
  | failed => cases answered
  | ok =>
      have read : s'.db.devices.get? dongle = some d := Except.ok.inj answered
      have sound' := before.sound sound
      obtain ⟨member, named⟩ := Table.get?_eq_some.1 read
      refine ⟨named, sound'.formed.devices d member, ?_⟩
      rcases sound'.spared with fallen | kept
      · exact .inl (fallen.mono after.knew)
      · right
        intro free
        cases owned : start.owner dongle with
        | none => rfl
        | some i =>
            have still := kept.owners dongle i owned
            rw [Db.owner, read] at still
            have both : (none : Option Int) = some i := free.symm.trans still
            cases both

theorem user_by_identity_gives (sound : Sound start s) (identity : Text) :
    Gives crypto start (fun found s' => ∀ u, found = some u → u.identity = identity ∧
        '-' ∈ u.identity ∧ Listed start s' u)
      (Request.perform (.user (.user_by_identity identity))) s := by
  refine Request.Gives.perform (fun _ _ => trivial) ?_
  rintro s' o found s'' before - answered after u rfl
  cases o with
  | failed => cases answered
  | ok =>
      have read : s'.db.users.by_identity identity = some u := Except.ok.inj answered
      obtain ⟨member, named⟩ := Users.mem_of_by_identity read
      have sound' := before.sound sound
      exact ⟨named, sound'.formed.users u member, (sound'.listed member).mono after⟩

/-- A token that speaks for someone makes them the principal, not another of that name. -/
theorem resolve_principal_gives (sound : Sound start s) {claims : Claims}
    (vouched : claims.identity ∈ s.knew ∨ claims.identity ∈ s.signed) :
    Gives crypto start (fun auth s' => Grounded auth s' ∧ ∀ u, auth.user = some u → Listed start s' u)
      (resolve_principal claims) s := by
  unfold resolve_principal
  refine Request.Gives.bind (trust_lawful crypto start) (load_device_gives sound claims.identity) ?_
  intro found s₁ kept₁ read
  have sound₁ := kept₁.sound sound
  cases found with
  | some d =>
      obtain ⟨named, formed, -⟩ := read d rfl
      refine Request.Gives.pure fun s₂ kept₂ => ⟨Grounded.of_device ?_, fun _ same => nomatch same⟩
      rcases vouched with known | signed
      · rw [← named] at known
        exact (formed (sound.formed.knew _ known)).elim
      · rw [named]
        exact kept₂.signed _ (kept₁.signed _ signed)
  | none =>
      refine Request.Gives.bind (trust_lawful crypto start)
        (user_by_identity_gives sound₁ claims.identity) ?_
      intro found s₂ kept₂ read
      cases found with
      | none => exact Request.Gives.throw _
      | some u =>
          obtain ⟨named, formed, listed⟩ := read u rfl
          refine Request.Gives.pure fun s₃ kept₃ => ⟨Grounded.of_user ?_, fun _ same => ?_⟩
          · rcases vouched with known | signed
            · rw [named]
              exact kept₃.knew _ (kept₂.knew _ (kept₁.knew _ known))
            · rw [← named] at signed
              exact (sound.formed.signed _ signed formed).elim
          · cases same
            exact listed.mono kept₃

theorem verify_by_key_gives (sound : Sound start s) (alg : Algorithm) (token : Text) :
    Gives crypto start (fun auth s' => Grounded auth s' ∧ ∀ u, auth.user = some u → Listed start s' u)
      (verify_by_key crypto alg token) s := by
  unfold verify_by_key
  split
  · exact Request.Gives.throw _
  next unverified _ =>
  refine Request.Gives.bind (trust_lawful crypto start)
    (load_device_gives sound unverified.identity) ?_
  intro found s₁ kept₁ read
  cases found with
  | none => exact Request.Gives.throw _
  | some d =>
      obtain ⟨-, formed, -⟩ := read d rfl
      refine Request.Gives.bind (R := fun _ s' => d.dongle_id ∈ s'.signed)
        (trust_lawful crypto start) (Request.Gives.perform (fun _ _ => formed) ?_) ?_
      · intro s₂ o claims s₃ _ _ answered after
        refine after.signed _ ?_
        simp only [trust, AccountOp.exec] at answered ⊢
        split at answered
        · next => simp
        · cases answered
      · intro claims s₃ _ signed
        exact Request.Gives.pure fun s₄ kept₄ =>
          ⟨Grounded.of_device (kept₄.signed _ signed), fun _ same => nomatch same⟩

theorem verify_gives (sound : Sound start s) (token : Text) :
    Gives crypto start (fun auth s' => Grounded auth s' ∧ ∀ u, auth.user = some u → Listed start s' u)
      (verify crypto token) s := by
  unfold verify
  refine Request.Gives.bind (R := fun _ _ => True) (trust_lawful crypto start)
    (Request.Gives.of_result fun _ _ _ _ => trivial) fun alg s₁ kept₁ _ => ?_
  have sound₁ := kept₁.sound sound
  cases alg.family with
  | hmac =>
      refine Request.Gives.bind
        (R := fun claims s' => claims.identity ∈ s'.knew ∨ claims.identity ∈ s'.signed)
        (trust_lawful crypto start) (Request.Gives.perform (fun _ _ => trivial) ?_) ?_
      · intro s₂ o claims s₃ kept₂ honest answered after
        have issued : (token, claims) ∈ s₂.issued := by
          simp only [trust, AccountOp.exec] at answered
          simpa [trust, AccountOp.honest, answered] using honest
        exact ((kept₂.sound sound₁).formed.issued _ issued).imp (after.knew _) (after.signed _)
      · intro claims s₂ kept₂ vouched
        exact resolve_principal_gives (kept₂.sound sound₁) vouched
  | device => exact verify_by_key_gives sound₁ alg token
  | unsupported => exact Request.Gives.throw _

theorem authenticate_gives (sound : Sound start s) (parts : Parts) :
    Gives crypto start (fun auth s' => Grounded auth s' ∧ ∀ u, auth.user = some u → Listed start s' u)
      (authenticate crypto parts) s := by
  unfold authenticate
  split
  · exact Request.Gives.throw _
  · exact verify_gives sound _

/-- The caller of a handler gave their password, and is of the start unless it has fallen. -/
theorem auth_user_gives (sound : Sound start s) (parts : Parts) :
    Gives crypto start (fun u s' => u.identity ∈ s'.knew ∧ Listed start s' u)
      (auth_user crypto parts) s := by
  unfold auth_user
  refine Request.Gives.bind (trust_lawful crypto start) (authenticate_gives sound parts) ?_
  rintro auth s₁ kept₁ ⟨grounded, listed⟩
  split
  · next u same =>
      refine Request.Gives.pure fun s₂ kept₂ => ⟨?_, (listed u same).mono kept₂⟩
      exact kept₂.knew _ (grounded.user u same)
  · exact Request.Gives.throw _

/-! ## What a handler asks for -/

theorem issue_hs512_ttl_gives {identity : Text} (ttl_secs : Int)
    (vouched : identity ∈ s.knew ∨ identity ∈ s.signed) :
    Gives crypto start (fun _ _ => True) (issue_hs512_ttl identity ttl_secs) s := by
  unfold issue_hs512_ttl
  refine Request.Gives.bind (R := fun _ _ => True) (trust_lawful crypto start)
    (gives_ask (fun _ _ => trivial) fun _ _ _ _ _ => trivial) fun now s₁ kept₁ _ => ?_
  refine Request.Gives.perform (fun s₂ kept₂ => ?_) fun _ _ _ _ _ _ _ _ => trivial
  exact vouched.imp (fun known => kept₂.knew _ (kept₁.knew _ known))
    fun signed => kept₂.signed _ (kept₁.signed _ signed)

/-- Past this check the password was given. -/
theorem verify_password_gives {α : Type} {Q : α → Service → Prop} {row : User} {password : Text}
    {e : AppError} {k : Unit → Request AccountOp α} (formed : '-' ∈ row.identity)
    (rest : ∀ s', Keeps start s s' → row.identity ∈ s'.knew → Gives crypto start Q (k ()) s') :
    Gives crypto start Q (ask (.verify_password row password) >>= fun passed =>
      Request.err_if (!passed) e >>= k) s := by
  refine Request.Gives.bind (R := fun passed s' => passed = true → row.identity ∈ s'.knew)
    (trust_lawful crypto start) (gives_ask (fun _ _ => formed) ?_) fun passed s₁ kept₁ known => ?_
  · intro s₁ o s₂ _ after passed
    refine after.knew _ ?_
    simp only [AccountOp.exec] at passed ⊢
    split
    · exact List.mem_cons_self
    · next failed =>
        rw [if_neg failed] at passed
        cases passed
  · cases passed with
    | true => exact rest s₁ kept₁ (known rfl)
    | false => exact Request.Gives.throw _

theorem login_gives (sound : Sound start s) (username password : Text) :
    Gives crypto start (fun _ _ => True) (login username password) s := by
  unfold login
  refine Request.Gives.bind (R := fun found _ => ∀ u, found = some u → '-' ∈ u.identity)
    (trust_lawful crypto start) (Request.Gives.perform (fun _ _ => trivial) ?_) ?_
  · rintro s₁ o found s₂ kept₁ - answered - u rfl
    cases o with
    | failed => cases answered
    | ok =>
        have read : Sessions.by_username s₁.db.users username = some u := Except.ok.inj answered
        exact (kept₁.sound sound).formed.users u (List.mem_of_find?_eq_some read)
  · intro found s₁ kept₁ formed
    cases found with
    | none => exact Request.Gives.throw _
    | some u =>
        refine verify_password_gives (formed u rfl) fun s₂ _ known => ?_
        refine Request.Gives.bind (trust_lawful crypto start)
          (issue_hs512_ttl_gives _ (.inl known)) fun _ s₃ _ _ => ?_
        exact Request.Gives.pure fun _ _ => trivial

theorem store_password_gives {identity : Text} (new hash : Text)
    (allowed : Compromised start s ∨ identity ∈ s.knew) :
    Gives crypto start (fun _ _ => True) (store_password identity new hash) s := by
  unfold store_password
  refine Request.Gives.bind (trust_lawful crypto start) Request.Gives.err_if fun _ s₁ kept₁ _ => ?_
  refine Request.Gives.perform (fun s₂ kept₂ => ?_) fun _ _ _ _ _ _ _ _ => trivial
  exact allowed.imp (fun fallen => (fallen.mono kept₁.knew).mono kept₂.knew)
    fun known => kept₂.knew _ (kept₁.knew _ known)

theorem require_admin_gives {caller : User} (listed : Listed start s caller)
    (known : caller.identity ∈ s.knew) :
    Gives crypto start (fun _ s' => Compromised start s') (of_users (require_admin caller)) s := by
  unfold require_admin
  split
  · exact Request.Gives.throw _
  · next admin =>
      exact Request.Gives.pure fun _ kept => (listed.compromised known admin).mono kept.knew

theorem admin_set_password_gives (sound : Sound start s) {caller : User} (listed : Listed start s caller)
    (known : caller.identity ∈ s.knew) (identity password hash : Text) :
    Gives crypto start (fun _ _ => True) (admin_set_password caller identity password hash) s := by
  unfold admin_set_password
  refine Request.Gives.bind (trust_lawful crypto start) (require_admin_gives listed known)
    fun _ s₁ kept₁ fallen => ?_
  refine Request.Gives.bind (R := fun _ _ => True) (trust_lawful crypto start) ?_
    fun _ s₂ kept₂ _ => store_password_gives _ _ (.inl (fallen.mono kept₂.knew))
  rw [of_users, user_by_identity, Request.embed_bind, Request.embed_perform]
  refine Request.Gives.bind (trust_lawful crypto start)
    (user_by_identity_gives (kept₁.sound sound) identity) fun found _ _ _ => ?_
  cases found with
  | none => exact Request.Gives.throw _
  | some u => exact Request.Gives.pure fun _ _ => trivial

theorem change_my_password_gives {user : User} (formed : '-' ∈ user.identity)
    (current_password new_password hash : Text) : Gives crypto start (fun _ _ => True)
      (change_my_password user current_password new_password hash) s := by
  unfold change_my_password
  exact verify_password_gives formed fun s₁ _ known => store_password_gives _ _ (.inr known)

theorem handle_of_not_admin {caller : User} (plain : caller.is_admin = 0) (request : UserRequest) :
    ∃ e, request.handle caller = throw e := by
  cases request with
  | update identity req =>
      refine ⟨.Forbidden "admin required", ?_⟩
      rw [UserRequest.handle, update_user, require_admin, if_pos plain, Request.throw_bind]
  | delete identity =>
      refine ⟨.Forbidden "admin required", ?_⟩
      rw [UserRequest.handle, delete_user, require_admin, if_pos plain, Request.throw_bind]
  | create fresh req =>
      refine ⟨.Forbidden "admin required", ?_⟩
      rw [UserRequest.handle, create_user, if_pos plain, Request.throw_bind]

theorem users_gives {caller : User} (listed : Listed start s caller)
    (known : caller.identity ∈ s.knew) (request : UserRequest) :
    Gives crypto start (fun _ _ => True) (of_users (request.handle caller)) s := by
  by_cases admin : caller.is_admin = 0
  · obtain ⟨e, refused⟩ := handle_of_not_admin admin request
    rw [refused]
    exact Request.Gives.throw e
  · have fallen := listed.compromised known admin
    have uses : (of_users (request.handle caller)).Uses fun f => ∃ g, f = AccountOp.user g :=
      Prog.Uses.embed_any (fun g => ⟨g, rfl⟩) _
    refine Request.Gives.of_uses (trust_lawful crypto start) uses fun f s₁ kept => ?_
    · rintro ⟨g, rfl⟩
      cases g with
      | user_by_identity identity => trivial
      | admin_count => trivial
      | update => exact fallen.mono kept.knew
      | delete => exact fallen.mono kept.knew
      | insert => exact fallen.mono kept.knew

/-- A device that is loaded; if it has no owner, it had none at the start. -/
structure Loaded (start : Db) (dongle : Text) (d : Device) (s : Service) : Prop where
  named : d.dongle_id = dongle
  formed : '-' ∉ d.dongle_id
  free : Compromised start s ∨ (d.owner_id = none → start.owner dongle = none)

theorem loaded_gives (sound : Sound start s) (dongle : Text) :
    Gives crypto start (Loaded start dongle) (of_pairing (load_device dongle)) s := by
  rw [of_pairing, load_device, Request.embed_bind, Request.embed_perform]
  refine Request.Gives.bind (trust_lawful crypto start) (load_device_gives sound dongle) ?_
  intro found s₁ kept₁ read
  cases found with
  | none => exact Request.Gives.throw _
  | some d =>
      obtain ⟨named, formed, free⟩ := read d rfl
      exact Request.Gives.pure fun s₂ kept₂ =>
        ⟨named, formed, free.imp_left (Compromised.mono kept₂.knew)⟩

/-- The caller may take this device. -/
def MayTake (start : Db) (dongle : Text) (id : Int) (s : Service) : Prop :=
  Compromised start s ∨ (start.owner dongle = none ∧ Acting start s id)

theorem MayTake.mono {dongle : Text} {id : Int} (may : MayTake start dongle id s)
    (kept : Keeps start s s') : MayTake start dongle id s' :=
  may.imp (Compromised.mono kept.knew) fun free => ⟨free.1, free.2.mono kept.knew⟩

theorem Loaded.may_take {dongle : Text} {d : Device} (loaded : Loaded start dongle d s)
    (free : d.owner_id = none) {user : User} (listed : Listed start s user)
    (known : user.identity ∈ s.knew) : MayTake start dongle user.id s := by
  rcases loaded.free with fallen | unowned
  · exact .inl fallen
  · exact (listed.acting known).imp_right fun acting => ⟨unowned free, acting⟩

theorem set_owner_gives {dongle : Text} {id : Int} (may : MayTake start dongle id s)
    (unowned : Bool) : Gives crypto start (fun _ _ => True)
      (Request.perform (.pair (.set_owner dongle id unowned))) s :=
  Request.Gives.perform (fun _ kept => may.mono kept) fun _ _ _ _ _ _ _ _ => trivial

theorem pairing_gives (sound : Sound start s) {user : User} (listed : Listed start s user)
    (known : user.identity ∈ s.knew) (request : PairRequest) :
    Gives crypto start (fun _ _ => True) (of_pairing (request.handle crypto.pair user)) s := by
  cases request with
  | claim_device dongle now =>
      rw [PairRequest.handle, claim_device, of_pairing, Request.embed_bind]
      refine Request.Gives.bind (trust_lawful crypto start) (loaded_gives sound dongle) ?_
      intro d s₁ kept₁ loaded
      unfold claim_loaded
      split
      · next free =>
          have may := loaded.may_take free (listed.mono kept₁) (kept₁.knew _ known)
          rw [Request.embed_bind, Request.embed_perform]
          refine Request.Gives.bind (trust_lawful crypto start) (set_owner_gives may true) ?_
          intro _ s₂ kept₂ _
          rw [Request.embed_bind, Request.embed_perform]
          refine Request.Gives.bind (R := fun _ _ => True) (trust_lawful crypto start) ?_
            fun _ _ _ _ => Request.Gives.pure fun _ _ => trivial
          exact Request.Gives.perform (fun _ kept₃ => (may.mono kept₂).mono kept₃)
            fun _ _ _ _ _ _ _ _ => trivial
      · split
        · exact Request.Gives.pure fun _ _ => trivial
        · exact Request.Gives.throw _
  | pilotpair pair_token =>
      rw [PairRequest.handle, pilotpair]
      split
      · exact Request.Gives.throw _
      next unverified _ =>
      rw [of_pairing, Request.embed_bind]
      refine Request.Gives.bind (trust_lawful crypto start) (loaded_gives sound _) ?_
      intro d s₁ kept₁ loaded
      unfold pilotpair_loaded
      split
      · exact Request.Gives.throw _
      · split
        · split
          · next free =>
              have may := loaded.may_take free (listed.mono kept₁) (kept₁.knew _ known)
              rw [← loaded.named] at may
              rw [Request.embed_bind, Request.embed_perform]
              refine Request.Gives.bind (trust_lawful crypto start) (set_owner_gives may false) ?_
              intro _ s₂ kept₂ _
              rw [Request.embed_bind, Request.embed_attempt]
              refine Request.Gives.bind (trust_lawful crypto start)
                (Request.Gives.attempt fun _ kept₃ => (may.mono kept₂).mono kept₃) ?_
              exact fun _ _ _ _ => Request.Gives.pure fun _ _ => trivial
          · exact Request.Gives.pure fun _ _ => trivial
        · exact Request.Gives.throw _

theorem pilotauth_gives (hex : ∀ t, '-' ∉ crypto.sha256_hex t) (params : PilotAuthParams) :
    Gives crypto start (fun _ _ => True) (pilotauth crypto params) s := by
  unfold pilotauth
  refine Request.Gives.bind (R := fun _ _ => True) (trust_lawful crypto start)
    (Request.Gives.of_result fun _ _ _ _ => trivial) fun register s₁ _ _ => ?_
  refine Request.Gives.bind (trust_lawful crypto start) Request.Gives.err_if fun _ s₂ _ _ => ?_
  refine Request.Gives.perform (fun _ _ => ?_) fun _ _ _ _ _ _ _ _ => trivial
  exact fun dash => hex _ (List.mem_of_mem_take dash)

theorem upload_url_token_gives {auth : Auth} (grounded : Grounded auth s) (dongle : Text)
    (expiry_days : Option Int) :
    Gives crypto start (fun _ _ => True) (upload_url_token auth dongle expiry_days) s := by
  unfold upload_url_token
  refine Request.Gives.bind (R := fun _ s' => dongle ∈ s'.signed) (trust_lawful crypto start)
    (Request.Gives.of_result fun _ s₁ allowed kept₁ => ?_) fun _ s₁ _ signed =>
      issue_hs512_ttl_gives _ (.inr signed)
  unfold require_device at allowed
  split at allowed
  · next d same =>
      split at allowed
      · next named => exact named ▸ kept₁.signed _ (grounded.device d same)
      · cases allowed
  · cases allowed

theorem routes_segments_gives (sound : Sound start s) {user : User}
    (known : user.identity ∈ s.knew) (dongle : Text) :
    Gives crypto start (fun _ _ => True) (routes_segments user dongle) s := by
  unfold routes_segments
  refine Request.Gives.bind (trust_lawful crypto start) (loaded_gives sound dongle)
    fun d s₁ kept₁ _ => ?_
  refine Request.Gives.bind (R := fun _ _ => True) (trust_lawful crypto start) ?_ fun may s₂ kept₂ _ => ?_
  · unfold can_manage_loaded
    split
    · exact Request.Gives.pure fun _ _ => trivial
    · exact Request.Gives.perform (fun _ _ => trivial) fun _ _ _ _ _ _ _ _ => trivial
  · refine Request.Gives.bind (trust_lawful crypto start) Request.Gives.err_if
      fun _ s₃ kept₃ _ => ?_
    exact issue_hs512_ttl_gives _ (.inl (kept₃.knew _ (kept₂.knew _ (kept₁.knew _ known))))

/-! ## Every request -/

/-- What an answer promises. -/
def Answer.Holds (answer : Answer) (s : Service) : Prop :=
  ∀ auth, answer = .principal auth → Grounded auth s

/-- A handler behind `AuthUser` that does not answer with a principal. -/
theorem behind_auth_user {parts : Parts} {g : User → Request AccountOp Answer}
    (sound : Sound start s)
    (rest : ∀ u s', Sound start s' → Listed start s' u → u.identity ∈ s'.knew →
      Gives crypto start Answer.Holds (g u) s') :
    Gives crypto start Answer.Holds (auth_user crypto parts >>= g) s :=
  Request.Gives.bind (trust_lawful crypto start) (auth_user_gives sound parts)
    fun u s' kept caller => rest u s' (kept.sound sound) caller.2 caller.1

theorem then_done {p : Request AccountOp Unit} (gives : Gives crypto start (fun _ _ => True) p s) :
    Gives crypto start Answer.Holds (p >>= fun _ => pure Answer.done) s :=
  Request.Gives.bind (trust_lawful crypto start) gives fun _ _ _ _ =>
    Request.Gives.pure fun _ _ _ same => nomatch same

theorem handle_gives (hex : ∀ t, '-' ∉ crypto.sha256_hex t) (sound : Sound start s) (parts : Parts)
    (request : AccountRequest) :
    Gives crypto start Answer.Holds (request.handle crypto parts) s := by
  cases request with
  | login username password =>
      exact (login_gives sound username password).map fun _ _ _ _ same => nomatch same
  | pilotauth params => exact then_done (pilotauth_gives hex params)
  | users request =>
      exact behind_auth_user sound fun u s' _ listed known => then_done (users_gives listed known request)
  | admin_set_password identity password hash =>
      exact behind_auth_user sound fun u s' sound' listed known =>
        then_done (admin_set_password_gives sound' listed known identity password hash)
  | change_my_password current_password new_password hash =>
      exact behind_auth_user sound fun u s' sound' _ known =>
        then_done (change_my_password_gives (sound'.formed.knew _ known) _ _ hash)
  | pairing request =>
      exact behind_auth_user sound fun u s' sound' listed known =>
        (pairing_gives sound' listed known request).map fun _ _ _ _ same => nomatch same
  | upload_url dongle expiry_days =>
      refine Request.Gives.bind (trust_lawful crypto start) (authenticate_gives sound parts)
        fun auth s' _ caller => ?_
      exact (upload_url_token_gives caller.1 dongle expiry_days).map fun _ _ _ _ same => nomatch same
  | routes_segments dongle =>
      exact behind_auth_user sound fun u s' sound' _ known =>
        (routes_segments_gives sound' known dongle).map fun _ _ _ _ same => nomatch same
  | any =>
      refine (authenticate_gives sound parts).map fun auth s' caller auth' same => ?_
      cases same
      exact caller.1

/-- In an honest run every task keeps to its guarantee. -/
theorem honest_run (hex : ∀ t, '-' ∉ crypto.sha256_hex t) (formed : Formed s)
    {p : Pool Service AccountTask}
    (reached : (rules crypto).system.Reach (fun p e => Honest crypto p e = true) ⟨s, []⟩ p) :
    Keeps s.db s p.shared ∧ ∀ t ∈ p.tasks, (trust crypto s.db).Ensures
      (fun r now => ∀ answer, r = .ok answer → answer.Holds now) t.prog p.shared := by
  have sound : Sound s.db s := ⟨formed, .inr (Unaltered.refl s)⟩
  refine Guarantee.Reach.ensures (fun _ r now => ∀ answer, r = .ok answer → answer.Holds now)
    (trust_lawful crypto s.db) reached ?_ ?_
  · intro q e honest
    cases e with
    | act a => trivial
    | turn i o =>
        rintro ⟨tag, _⟩ β f k found rfl
        simp only [Honest, found] at honest
        exact honest
  · intro q a s' ts kept _ acted
    cases a with
    | arrive call =>
        cases acted
        refine ⟨(trust_lawful crypto s.db).refl _, fun t member => ?_⟩
        rw [List.mem_singleton.1 member]
        exact handle_gives hex (kept.sound sound) call.parts call.request
    | tick now =>
        cases acted
        refine ⟨⟨fun _ member => member, fun _ member => member, fun sound' => ?_⟩,
          fun t member => (List.not_mem_nil member).elim⟩
        exact sound'.history rfl (fun _ member => member) sound'.formed.knew sound'.formed.signed
          sound'.formed.issued

/-- **Principals are grounded.**  In every honest run, whoever a request was answered for is a
user whose password was given, or a device whose own key has verified a token: a token of
one is never taken for the other. -/
theorem principals_grounded (crypto : Crypto) (hex : ∀ t, '-' ∉ crypto.sha256_hex t) (s : Service)
    (formed : Formed s) (p : Pool Service AccountTask)
    (reached : (rules crypto).system.Reach (fun p e => Honest crypto p e = true) ⟨s, []⟩ p) (t : AccountTask)
    (member : t ∈ p.tasks) (auth : Auth)
    (returned : t.prog.result? = some (.ok (.principal auth))) : Grounded auth p.shared := by
  have ensures := (honest_run hex formed reached).2 t member
  exact Guarantee.Reach.returned (fun _ r now => ∀ answer, r = .ok answer → Answer.Holds answer now)
    (trust_lawful crypto s.db) ensures returned _ rfl auth rfl

/-- **Outsiders alter nothing.**  As long as nobody who was an admin at the start has given
their password, an honest run leaves the accounts as they were, but for the passwords of
users who gave theirs and for devices that had no owner. -/
theorem outsiders_alter_nothing (crypto : Crypto) (hex : ∀ t, '-' ∉ crypto.sha256_hex t)
    (s : Service) (formed : Formed s) (p : Pool Service AccountTask)
    (reached : (rules crypto).system.Reach (fun p e => Honest crypto p e = true) ⟨s, []⟩ p)
    (outsiders : ∀ u ∈ s.db.users.rows, u.is_admin ≠ 0 → u.identity ∉ p.shared.knew) :
    Unaltered s.db p.shared := by
  have kept := (honest_run hex formed reached).1
  rcases (kept.sound ⟨formed, .inr (Unaltered.refl s)⟩).spared with ⟨u, member, admin, known⟩ | unaltered
  · exact (outsiders u member admin known).elim
  · exact unaltered

/-! ## Poles -/

private theorem registered_formed : Formed registered := by
  refine ⟨?_, ?_, ?_, ?_, ?_⟩ <;> decide

private theorem desk_hex : ∀ t, '-' ∉ desk.sha256_hex t := fun _ => by
  change '-' ∉ ("0123456789abcdef" : Text)
  decide

/-- Bob logs in, and asks something with his token. -/
theorem principals_grounded_bob : ∃ p : Pool Service AccountTask,
    (rules desk).system.Reach (fun p e => Honest desk p e = true) ⟨registered, []⟩ p ∧
      ∃ t ∈ p.tasks, ∃ auth, t.prog.result? = some (.ok (.principal auth)) ∧
        Grounded auth p.shared := by
  have run : ∃ p : Pool Service AccountTask,
      ((rules desk).system.guard fun p e => Honest desk p e = true).replay ⟨registered, []⟩
      [calls (.login "bob" "2") none, .turn 0 .ok, .turn 0 .ok, .turn 0 .ok, .turn 0 .ok,
        calls .any (some "h.b-2"), .turn 1 .ok, .turn 1 .ok, .turn 1 .ok] = some p ∧
      ∃ t auth, p.tasks[1]? = some t ∧ t.prog.result? = some (.ok (.principal auth)) := by
    refine ⟨_, rfl, _, _, rfl, rfl⟩
  obtain ⟨p, replayed, t, auth, found, returned⟩ := run
  have reached := System.reach_of_replay_guard replayed
  have member := List.mem_of_getElem? found
  exact ⟨p, reached, t, member, auth, returned,
    principals_grounded desk desk_hex registered registered_formed p reached t member auth returned⟩

/-- Bob logs in, claims the device nobody owns, and is refused Ana's. -/
theorem outsiders_alter_nothing_bob : ∃ p : Pool Service AccountTask,
    (rules desk).system.Reach (fun p e => Honest desk p e = true) ⟨registered, []⟩ p ∧
      p.shared.db.owner "beef" = some 2 ∧ Unaltered registered.db p.shared := by
  have run : ∃ p : Pool Service AccountTask,
      ((rules desk).system.guard fun p e => Honest desk p e = true).replay ⟨registered, []⟩
      [calls (.login "bob" "2") none, .turn 0 .ok, .turn 0 .ok, .turn 0 .ok, .turn 0 .ok,
        calls (.pairing (.claim_device "beef" 5)) (some "h.b-2"), .turn 1 .ok, .turn 1 .ok,
        .turn 1 .ok, .turn 1 .ok, .turn 1 .ok, .turn 1 .ok,
        calls (.pairing (.claim_device "cafe" 5)) (some "h.b-2"), .turn 2 .ok, .turn 2 .ok,
        .turn 2 .ok, .turn 2 .ok] = some p ∧ p.shared.db.owner "beef" = some 2 ∧
      p.shared.knew = ["b-2"] := by
    refine ⟨_, rfl, ?_, ?_⟩ <;> decide
  obtain ⟨p, replayed, owned, knew⟩ := run
  have reached := System.reach_of_replay_guard replayed
  refine ⟨p, reached, owned,
    outsiders_alter_nothing desk desk_hex registered registered_formed p reached ?_⟩
  rw [knew]
  decide

end HomeConnect.Accounts.Sessions
