/-
# Accounts.Integrity -- owners and shares refer to users and devices there are

The foreign keys of `devices.owner_id` and `authorized_users`, over every run of account
requests: each owner and each share names a user there is, each share a device there is
(`references_hold`).  The users' ids are an `AUTOINCREMENT` key, so the id of a deleted
user is never given out again; together with the keys, nothing of that user comes back,
whatever their requests under way still do (`deleted_stay_gone`).

`Evolves` says what one statement may do to the tables.
-/
import HomeConnect.Accounts.Sessions

namespace HomeConnect.Accounts.Sessions

open HomeConnect.Theory

set_option autoImplicit false

structure Referential (db : Db) : Prop where
  owners : ∀ d ∈ db.devices.rows, ∀ id, d.owner_id = some id → db.user_exists id = true
  users : ∀ a ∈ db.authorized_users.rows, db.user_exists a.user_id = true
  devices : ∀ a ∈ db.authorized_users.rows, (db.devices.get? a.device_dongle_id).isSome = true

/-- The id was given out, and its user is gone. -/
def Retired (id : Int) (db : Db) : Prop :=
  id ≤ db.users.sequence ∧ db.user_exists id = false

/-- What a statement may do to the tables. -/
structure Evolves (db db' : Db) : Prop where
  whole : Referential db → Referential db'
  retired : ∀ id, Retired id db → Retired id db'

theorem Evolves.refl (db : Db) : Evolves db db := ⟨id, fun _ gone => gone⟩

theorem user_exists_iff {db : Db} {id : Int} :
    db.user_exists id = true ↔ id ∈ db.users.rows.map User.id := by
  simp [Db.user_exists, List.any_eq_true]

/-- The same users, and devices under the same names with owners there are. -/
theorem Evolves.of_devices {db db' : Db} (ids : db'.users.rows.map User.id = db.users.rows.map User.id)
    (sequence : db'.users.sequence = db.users.sequence)
    (owners : ∀ d ∈ db'.devices.rows, ∀ id, d.owner_id = some id →
      db.user_exists id = true ∨ ∃ e ∈ db.devices.rows, e.owner_id = some id)
    (names : ∀ k, (db.devices.get? k).isSome = true → (db'.devices.get? k).isSome = true)
    (shares : ∀ a ∈ db'.authorized_users.rows, a ∈ db.authorized_users.rows ∨
      (db.user_exists a.user_id = true ∧ (db.devices.get? a.device_dongle_id).isSome = true)) :
    Evolves db db' := by
  have same : ∀ id, db'.user_exists id = db.user_exists id := by
    intro id
    rw [Bool.eq_iff_iff, user_exists_iff, user_exists_iff, ids]
  refine ⟨fun whole => ⟨fun d member id owned => ?_, fun a member => ?_, fun a member => ?_⟩,
    fun id gone => ?_⟩
  · rw [same]
    rcases owners d member id owned with there | ⟨e, old, owned'⟩
    · exact there
    · exact whole.owners e old id owned'
  · rw [same]
    rcases shares a member with old | new
    · exact whole.users a old
    · exact new.1
  · apply names
    rcases shares a member with old | new
    · exact whole.devices a old
    · exact new.2
  · rw [Retired, sequence, same]
    exact gone

theorem Evolves.of_users {db : Db} {users : Users}
    (ids : users.rows.map User.id = db.users.rows.map User.id)
    (sequence : users.sequence = db.users.sequence) : Evolves db { db with users } :=
  Evolves.of_devices ids sequence (fun d member _ owned => .inr ⟨d, member, owned⟩)
    (fun _ found => found) fun _ member => .inl member

/-! ## Each statement -/

theorem insert_evolves {db : Db} {users : Users} {identity username password_hash : Text}
    {email : Option Text} {is_admin created_at : Int}
    (inserted : db.users.insert identity username password_hash email is_admin created_at = some users) :
    Evolves db { db with users } := by
  have shape : users.rows.map User.id = db.users.rows.map User.id ++ [db.users.sequence + 1] ∧
      users.sequence = db.users.sequence + 1 := by
    unfold Users.insert at inserted
    split at inserted
    · cases inserted
      exact ⟨by simp, rfl⟩
    · cases inserted
  obtain ⟨ids, sequence⟩ := shape
  have exists_iff : ∀ i, Db.user_exists { db with users } i = true ↔
      db.user_exists i = true ∨ i = db.users.sequence + 1 := by
    intro i
    rw [user_exists_iff, user_exists_iff, ids, List.mem_append, List.mem_singleton]
  refine ⟨fun whole => ⟨?_, ?_, whole.devices⟩, fun i gone => ⟨?_, ?_⟩⟩
  · exact fun d member i owned => (exists_iff i).2 (.inl (whole.owners d member i owned))
  · exact fun a member => (exists_iff _).2 (.inl (whole.users a member))
  · have bound := gone.1
    change i ≤ users.sequence
    omega
  · have bound := gone.1
    rw [Bool.eq_false_iff, ne_eq, exists_iff, gone.2]
    rintro (there | fresh)
    · cases there
    · omega

theorem delete_user_evolves (db : Db) (id : Int) : Evolves db (db.delete_user id) := by
  have exists_iff : ∀ i, (db.delete_user id).user_exists i = true ↔ db.user_exists i = true ∧ i ≠ id := by
    intro i
    simp only [user_exists_iff, Db.delete_user, List.mem_map, Users.mem_delete]
    constructor
    · rintro ⟨u, ⟨member, other⟩, rfl⟩
      exact ⟨⟨u, member, rfl⟩, other⟩
    · rintro ⟨⟨u, member, rfl⟩, other⟩
      exact ⟨u, ⟨member, other⟩, rfl⟩
  refine ⟨fun whole => ⟨fun d member i owned => ?_, fun a member => ?_, fun a member => ?_⟩,
    fun i gone => ⟨gone.1, ?_⟩⟩
  · obtain ⟨e, old, same⟩ := List.mem_map.1 member
    rw [exists_iff]
    split at same
    · cases same
      cases owned
    · next other =>
        cases same
        refine ⟨whole.owners d old i owned, ?_⟩
        rintro rfl
        exact other (decide_eq_true owned)
  · obtain ⟨old, other⟩ := Table.mem_delete.1 member
    rw [exists_iff]
    exact ⟨whole.users a old, of_decide_eq_false other⟩
  · have old := (Table.mem_delete.1 member).1
    rw [Db.delete_user, Table.get?_update, Option.isSome_map]
    exact whole.devices a old
  · rw [Bool.eq_false_iff, ne_eq, exists_iff]
    rintro ⟨there, -⟩
    rw [gone.2] at there
    cases there

theorem set_owner_evolves {db db' : Db} {dongle : Text} {id : Int} {unowned : Bool}
    (written : db.set_owner dongle id unowned = some db') : Evolves db db' := by
  unfold Db.set_owner at written
  dsimp only at written
  split at written
  · cases written
  · next allowed =>
      cases written
      refine Evolves.of_devices rfl rfl (fun d member i owned => ?_) (fun k found => ?_)
        fun a member => .inl member
      · obtain ⟨e, old, same⟩ := List.mem_map.1 member
        split at same
        · next hit =>
            cases same
            cases owned
            left
            by_contra none
            refine allowed ?_
            rw [Bool.not_eq_true] at none
            rw [none]
            simp only [Bool.not_false, Bool.and_true, List.any_eq_true]
            exact ⟨e, old, hit⟩
        · cases same
          exact .inr ⟨d, old, owned⟩
      · rw [Table.get?_update, Option.isSome_map]
        exact found

theorem share_evolves {db db' : Db} {dongle : Text} {id : Int} {created_at : Option Int}
    (written : db.share id dongle created_at = some db') : Evolves db db' := by
  cases created_at with
  | none =>
      cases written
      exact .refl db
  | some created_at =>
      unfold Db.share at written
      dsimp only at written
      split at written
      · next there =>
          cases written
          rw [Bool.and_eq_true] at there
          refine Evolves.of_devices rfl rfl (fun d member _ owned => .inr ⟨d, member, owned⟩)
            (fun _ found => found) fun a member => ?_
          rcases Table.mem_insertIfAbsent.1 member with old | ⟨rfl, -⟩
          · exact .inl old
          · exact .inr there
      · cases written

theorem register_evolves (db : Db) (dongle_id public_key : Text) :
    Evolves db { db with devices := register db.devices dongle_id public_key } := by
  refine Evolves.of_devices rfl rfl (fun d member i owned => .inr ?_) (fun k found => ?_)
    fun a member => .inl member
  · have read := Table.get?_eq_some.2 ⟨member, rfl⟩
    rw [register, Table.get?_upsert] at read
    split at read
    · cases before : db.devices.get? d.dongle_id with
      | none =>
          rw [before] at read
          cases read
          cases owned
      | some e =>
          rw [before] at read
          cases read
          exact ⟨e, (Table.get?_eq_some.1 before).1, owned⟩
    · exact ⟨d, (Table.get?_eq_some.1 read).1, owned⟩
  · change ((register db.devices dongle_id public_key).get? k).isSome = true
    rw [register, Table.get?_upsert]
    split
    · rfl
    · exact found

theorem user_evolves {β : Type} (f : UserOp β) (o : Outcome) (db : Db) :
    Evolves db (f.exec o db).2 := by
  cases o with
  | failed => cases f <;> exact .refl db
  | ok =>
      cases f with
      | user_by_identity identity => exact .refl db
      | admin_count => exact .refl db
      | update identity is_admin email =>
          refine Evolves.of_users ?_ rfl
          rw [Users.set_admin, List.map_map]
          refine List.map_congr_left fun u _ => ?_
          simp only [Function.comp]
          split <;> rfl
      | delete id => exact delete_user_evolves db id
      | insert =>
          simp only [UserOp.exec]
          split
          · next inserted => exact insert_evolves inserted
          · exact .refl db

theorem pair_evolves {β : Type} (f : PairOp β) (db : Db) : Evolves db (f.exec () db).2 := by
  cases f with
  | load_device dongle => exact .refl db
  | set_owner dongle id unowned =>
      simp only [PairOp.exec]
      split
      · next written => exact set_owner_evolves written
      · exact .refl db
  | share id dongle created_at =>
      simp only [PairOp.exec]
      split
      · next written => exact share_evolves written
      · exact .refl db

theorem exec_evolves {crypto : Crypto} {β : Type} (f : AccountOp β) (o : Outcome) (s : Service) :
    Evolves s.db (f.exec crypto o s).2.db := by
  cases f with
  | user f => exact user_evolves f o s.db
  | pair f =>
      cases o with
      | failed => exact .refl _
      | ok => exact pair_evolves f s.db
  | set_password identity hash =>
      cases o with
      | failed => exact .refl _
      | ok =>
          refine Evolves.of_users ?_ rfl
          rw [set_password, List.map_map]
          refine List.map_congr_left fun u _ => ?_
          simp only [Function.comp]
          split <;> rfl
  | register_device dongle public_key =>
      cases o with
      | failed => exact .refl _
      | ok => exact register_evolves s.db dongle public_key
  | verify_password row password =>
      simp only [AccountOp.exec]
      split <;> exact .refl _
  | encode claims =>
      simp only [AccountOp.exec]
      split <;> exact .refl _
  | decode_device device alg token =>
      simp only [AccountOp.exec]
      split <;> exact .refl _
  | _ => cases o <;> exact .refl _

/-! ## Every run -/

variable {crypto : Crypto}

/-- What one event may do to the tables. -/
theorem step_evolves {p p' : Pool Service AccountTask} {e : Pool.Event AccountAct Outcome}
    (stepped : (rules crypto).system.step p e = some p') : Evolves p.shared.db p'.shared.db := by
  obtain ⟨a, s, ts, rfl, acted, rfl⟩ | ⟨i, o, t, s, t', rfl, _, turned, rfl⟩ :=
    Pool.Rules.step_cases stepped
  · cases a with
    | arrive call => cases acted; exact .refl _
    | tick now => cases acted; exact .refl _
  · obtain ⟨β, f, k, -, rfl, -⟩ := Task.turn_cases turned
    exact exec_evolves f o p.shared

/-- **References hold.**  In every state reached, each owner and each share names a user there
is, and each share a device there is. -/
theorem references_hold (crypto : Crypto) (s : Service) (whole : Referential s.db)
    (p : Pool Service AccountTask)
    (reached : (rules crypto).system.Reach System.free ⟨s, []⟩ p) : Referential p.shared.db :=
  reached.invariant (I := fun p => Referential p.shared.db) whole
    fun _ _ _ holds _ stepped => (step_evolves stepped).whole holds

/-- **Deleted users stay gone.**  From a state in which a user is gone whose id was given out,
no run brings anything of that id back: no user, no owner and no share, whatever is still
under way. -/
theorem deleted_stay_gone (crypto : Crypto) (s : Service) (whole : Referential s.db)
    (p p' : Pool Service AccountTask)
    (reached : (rules crypto).system.Reach System.free ⟨s, []⟩ p) (id : Int)
    (given : id ≤ p.shared.db.users.sequence) (gone : ∀ u ∈ p.shared.db.users.rows, u.id ≠ id)
    (later : (rules crypto).system.Reach System.free p p') :
    (∀ u ∈ p'.shared.db.users.rows, u.id ≠ id) ∧
      (∀ d ∈ p'.shared.db.devices.rows, d.owner_id ≠ some id) ∧
      ∀ a ∈ p'.shared.db.authorized_users.rows, a.user_id ≠ id := by
  have retired : Retired id p.shared.db := by
    refine ⟨given, ?_⟩
    rw [Bool.eq_false_iff, ne_eq, user_exists_iff, List.mem_map]
    rintro ⟨u, member, same⟩
    exact gone u member same
  have held := references_hold crypto s whole p' (reached.trans later)
  have still : Retired id p'.shared.db :=
    later.invariant (I := fun p => Retired id p.shared.db) retired
      fun _ _ _ holds _ stepped => (step_evolves stepped).retired id holds
  have absent : ¬ p'.shared.db.user_exists id = true := Bool.eq_false_iff.1 still.2
  refine ⟨fun u member same => ?_, fun d member owned => ?_, fun a member same => ?_⟩
  · exact absent (user_exists_iff.2 (same ▸ List.mem_map_of_mem member))
  · exact absent (held.owners d member id owned)
  · exact absent (same ▸ held.users a member)

/-! ## Poles -/

private theorem registered_whole : Referential registered.db := by
  have owners : ∀ d ∈ registered.db.devices.rows,
      d.owner_id.all registered.db.user_exists = true := by decide
  refine ⟨fun d member id owned => ?_, by decide, by decide⟩
  have known := owners d member
  rw [owned] at known
  exact known

private def deletion : List (Pool.Event AccountAct Outcome) :=
  [calls (.login "ana" "1") none, calls (.login "bob" "2") none, .turn 0 .ok, .turn 0 .ok,
    .turn 0 .ok, .turn 0 .ok, .turn 1 .ok, .turn 1 .ok, .turn 1 .ok, .turn 1 .ok,
    calls (.pairing (.claim_device "beef" 5)) (some "h.b-2"), .turn 2 .ok, .turn 2 .ok,
    .turn 2 .ok, calls (.users (.delete "b-2")) (some "h.a-1"), .turn 3 .ok, .turn 3 .ok,
    .turn 3 .ok, .turn 3 .ok, .turn 3 .ok]

/-- Ana deletes Bob while he claims a device: the claim goes on, and leaves nothing of his. -/
theorem deleted_stay_gone_bob : ∃ p p' : Pool Service AccountTask,
    (rules desk).system.Reach System.free ⟨registered, []⟩ p ∧
      (rules desk).system.replay p [.turn 2 .ok, .turn 2 .ok] = some p' ∧
      ∀ d ∈ p'.shared.db.devices.rows, d.owner_id ≠ some 2 := by
  have run : ∃ p p', (rules desk).system.replay ⟨registered, []⟩ deletion = some p ∧
      (rules desk).system.replay p [.turn 2 .ok, .turn 2 .ok] = some p' ∧
      2 ≤ p.shared.db.users.sequence ∧ ∀ u ∈ p.shared.db.users.rows, u.id ≠ 2 := by
    refine ⟨_, _, rfl, rfl, ?_, ?_⟩ <;> decide
  obtain ⟨p, p', replayed, rest, given, gone⟩ := run
  have reached := System.reach_of_replay replayed
  exact ⟨p, p', reached, rest, (deleted_stay_gone desk registered registered_whole p p' reached 2
    given gone (System.reach_of_replay rest)).2.1⟩

end HomeConnect.Accounts.Sessions
