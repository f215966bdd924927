/-
# Accounts.Tables -- users, devices and who may manage them

The rows and constraints of the `users`, `devices` and `authorized_users` tables, and
the statements the handlers run on them.  A `Users` value carries the table's three
uniqueness constraints and its id sequence as fields; the other two tables are
`Theory.Table`s.  Foreign keys are enforced, as the connection options have it.
-/
import HomeConnect.Base.Request
import HomeConnect.Theory.Table
import Mathlib.Data.List.Basic

namespace HomeConnect.Accounts

open HomeConnect.Theory

set_option autoImplicit false

structure User where
  id : Int
  identity : Text
  username : Text
  password_hash : Text := []
  email : Option Text := none
  is_admin : Int := 0
  created_at : Int := 0
deriving DecidableEq, Repr

structure Device where
  dongle_id : Text
  public_key : Text := []
  owner_id : Option Int := none
  server_storage : Int := 0
  last_gps_lat : Rat := 0
  last_gps_lng : Rat := 0
  last_gps_time : Int := 0
  online : Int := 0
  /-- Unix seconds. -/
  last_athena_ping : Int := 0
  last_addr : Text := []
deriving DecidableEq, Repr

/-- The check of the v1 handlers: the row that the token was matched to is this device's.
Unlike the ingest handlers', it does not look at the token's identity. -/
def require_device (device : Option Device) (dongle : Text) : AppResult Unit :=
  match device with
  | some d => if d.dongle_id = dongle then .ok () else .error (.Forbidden "device/dongle mismatch")
  | none => .error (.Unauthorized "device token required")

structure Share where
  user_id : Int
  device_dongle_id : Text
  access_level : Text := "read"
  created_at : Int := 0
deriving DecidableEq, Repr

abbrev Share.key (s : Share) : Int × Text := (s.user_id, s.device_dongle_id)

/-- The `users` table: `id` is an `AUTOINCREMENT` key, `identity` and `username` are
unique. -/
structure Users where
  rows : List User
  /-- The largest id ever given out. -/
  sequence : Int
  ids : (rows.map User.id).Nodup
  identities : (rows.map User.identity).Nodup
  usernames : (rows.map User.username).Nodup
  given : ∀ u ∈ rows, u.id ≤ sequence

structure Db where
  users : Users
  devices : Table Device Device.dongle_id
  authorized_users : Table Share Share.key

namespace Users

def empty : Users := ⟨[], 0, List.nodup_nil, List.nodup_nil, List.nodup_nil, fun _ none => (List.not_mem_nil none).elim⟩

/-- `SELECT * FROM users WHERE identity = ?`. -/
def by_identity (t : Users) (identity : Text) : Option User :=
  t.rows.find? fun u => decide (u.identity = identity)

/-- `SELECT COUNT(*) FROM users WHERE is_admin = 1`. -/
def admin_count (t : Users) : Int := (t.rows.countP fun u => decide (u.is_admin = 1) : Nat)

/-- Two rows with one identity are one row. -/
theorem eq_of_identity {t : Users} {u v : User} (hu : u ∈ t.rows) (hv : v ∈ t.rows)
    (same : u.identity = v.identity) : u = v :=
  List.inj_on_of_nodup_map t.identities hu hv same

theorem eq_of_id {t : Users} {u v : User} (hu : u ∈ t.rows) (hv : v ∈ t.rows)
    (same : u.id = v.id) : u = v :=
  List.inj_on_of_nodup_map t.ids hu hv same

/-- `INSERT INTO users`: refused when a unique column clashes. -/
def insert (t : Users) (identity username password_hash : Text) (email : Option Text)
    (is_admin created_at : Int) : Option Users :=
  if free : (∀ u ∈ t.rows, u.identity ≠ identity) ∧ ∀ u ∈ t.rows, u.username ≠ username then
    some
      { rows := t.rows ++
          [⟨t.sequence + 1, identity, username, password_hash, email, is_admin, created_at⟩]
        sequence := t.sequence + 1
        ids := by
          rw [List.map_append, List.nodup_append]
          refine ⟨t.ids, List.nodup_singleton _, ?_⟩
          intro id old new fresh
          obtain ⟨u, member, rfl⟩ := List.mem_map.1 old
          have := t.given u member
          simp only [List.map_cons, List.map_nil, List.mem_singleton] at fresh
          omega
        identities := by
          rw [List.map_append, List.nodup_append]
          refine ⟨t.identities, List.nodup_singleton _, ?_⟩
          intro id old new fresh
          obtain ⟨u, member, rfl⟩ := List.mem_map.1 old
          rw [List.mem_singleton.1 fresh]
          exact free.1 u member
        usernames := by
          rw [List.map_append, List.nodup_append]
          refine ⟨t.usernames, List.nodup_singleton _, ?_⟩
          intro id old new fresh
          obtain ⟨u, member, rfl⟩ := List.mem_map.1 old
          rw [List.mem_singleton.1 fresh]
          exact free.2 u member
        given := by
          intro u member
          rcases List.mem_append.1 member with old | new
          · have := t.given u old
            omega
          · have is := List.mem_singleton.1 new
            subst is
            exact Int.le_refl _ }
  else none

/-- `UPDATE users SET is_admin = ?, email = ? WHERE identity = ?`. -/
def set_admin (t : Users) (identity : Text) (is_admin : Int) (email : Option Text) : Users :=
  let set (u : User) : User := if u.identity = identity then { u with is_admin, email } else u
  have blind : ∀ {β : Type} (g : User → β), (∀ u : User, g { u with is_admin, email } = g u) →
      (t.rows.map set).map g = t.rows.map g := by
    intro β g same
    rw [List.map_map]
    refine List.map_congr_left fun u _ => ?_
    dsimp only [Function.comp, set]
    split
    · exact same u
    · rfl
  { rows := t.rows.map set
    sequence := t.sequence
    ids := by rw [blind User.id fun _ => rfl]; exact t.ids
    identities := by rw [blind User.identity fun _ => rfl]; exact t.identities
    usernames := by rw [blind User.username fun _ => rfl]; exact t.usernames
    given := by
      intro u member
      obtain ⟨v, old, rfl⟩ := List.mem_map.1 member
      have bound := t.given v old
      dsimp only [set]
      split <;> exact bound }

/-- `DELETE FROM users WHERE id = ?`. -/
def delete (t : Users) (id : Int) : Users where
  rows := t.rows.filter fun u => decide (u.id ≠ id)
  sequence := t.sequence
  ids := t.ids.sublist (List.filter_sublist.map _)
  identities := t.identities.sublist (List.filter_sublist.map _)
  usernames := t.usernames.sublist (List.filter_sublist.map _)
  given := fun u member => t.given u (List.mem_filter.1 member).1

theorem mem_set_admin {t : Users} {identity : Text} {is_admin : Int} {email : Option Text}
    {u : User} : u ∈ (t.set_admin identity is_admin email).rows ↔
      ∃ v ∈ t.rows, (if v.identity = identity then { v with is_admin, email } else v) = u :=
  List.mem_map

@[simp] theorem mem_delete {t : Users} {id : Int} {u : User} :
    u ∈ (t.delete id).rows ↔ u ∈ t.rows ∧ u.id ≠ id := by
  simp [delete]

theorem mem_of_insert {t t' : Users} {identity username password_hash : Text}
    {email : Option Text} {is_admin created_at : Int} {u : User}
    (inserted : t.insert identity username password_hash email is_admin created_at = some t')
    (member : u ∈ t.rows) : u ∈ t'.rows := by
  unfold insert at inserted
  split at inserted
  · cases inserted
    exact List.mem_append_left _ member
  · cases inserted

theorem mem_of_by_identity {t : Users} {identity : Text} {u : User}
    (found : t.by_identity identity = some u) : u ∈ t.rows ∧ u.identity = identity :=
  ⟨List.mem_of_find?_eq_some found, by simpa using List.find?_some found⟩

end Users

namespace Db

/-- `delete_user`'s transaction: the user's shares go, their devices lose their owner,
and the row goes. -/
def delete_user (db : Db) (id : Int) : Db where
  users := db.users.delete id
  devices := db.devices.update (fun d => decide (d.owner_id = some id))
    (fun d => { d with owner_id := none }) fun _ => rfl
  authorized_users := db.authorized_users.delete fun s => decide (s.user_id = id)

/-- Is there a user with this id (the foreign key of an owner or a share)? -/
def user_exists (db : Db) (id : Int) : Bool := db.users.rows.any fun u => decide (u.id = id)

/-- `UPDATE devices SET owner_id = ? WHERE dongle_id = ?`, and with `unowned` also
`AND owner_id IS NULL`; refused when no such user exists and a row would change. -/
def set_owner (db : Db) (dongle : Text) (owner : Int) (unowned : Bool) : Option Db :=
  let hit (d : Device) : Bool := d.dongle_id = dongle && (!unowned || d.owner_id = none)
  if db.devices.rows.any hit && !db.user_exists owner then none
  else some { db with
    devices := db.devices.update hit (fun d => { d with owner_id := some owner }) fun _ => rfl }

/-- `INSERT OR IGNORE INTO authorized_users`.  A missing `created_at` is a `NOT NULL`
violation, which `OR IGNORE` skips silently; a missing user or device is refused. -/
def share (db : Db) (user_id : Int) (dongle : Text) (created_at : Option Int) : Option Db :=
  match created_at with
  | none => some db
  | some created_at =>
      if db.user_exists user_id && (db.devices.get? dongle).isSome then
        some { db with
          authorized_users := db.authorized_users.insertIfAbsent
            { user_id, device_dongle_id := dongle, created_at } }
      else none

end Db

end HomeConnect.Accounts
