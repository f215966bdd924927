/-
# Accounts.LastAdmin -- when the system keeps an admin

`update_user` and `delete_user` count the admins in one statement and write in another,
and look at the target only once, so two admins who demote (or delete) each other at the
same time both pass the check: `mutual_demotion_leaves_no_admin`.

`Apart` rules out such overlaps: no flag is taken from an admin while another request, its
reads behind it, is about to take another's.  In every run whose statements meet it there is
an admin throughout (`admin_remains`).  What carries the proof is that a request about to
take a flag has seen that there is another admin (`ready_handle`), and that this stays so
until its own write.
-/
import HomeConnect.Accounts.Users

namespace HomeConnect.Accounts

open HomeConnect.Theory

set_option autoImplicit false

def HasAdmin (db : Db) : Prop := ∃ u ∈ db.users.rows, u.is_admin = 1

/-! ## Taking the flag -/

/-- The statement takes the admin flag from this row, if the row has it. -/
def UserOp.takes {β : Type} : UserOp β → User → Bool
  | .update identity is_admin _, u => is_admin ≠ 1 && u.identity = identity
  | .delete id, u => u.id = id
  | _, _ => false

/-- The next statement takes the flag from this row. -/
def takes (prog : Prog UserOp (AppResult Unit)) (u : User) : Bool :=
  match prog with
  | .ret _ => false
  | .op f _ => f.takes u

/-- Each of two programs is about to take the flag from an admin, and not from the same. -/
def rivals (db : Db) (prog prog' : Prog UserOp (AppResult Unit)) : Bool :=
  db.users.rows.any fun u => db.users.rows.any fun v =>
    u.is_admin = 1 && v.is_admin = 1 && takes prog u && takes prog' v && u ≠ v

/-- No flag is taken from an admin while another request is about to take another's, unless
there are three admins at least. -/
def Apart (p : Pool Db UserTask) : Pool.Event Call Outcome → Bool
  | .turn i .ok =>
      match p.tasks[i]? with
      | some t => (p.tasks.all fun m => !rivals p.shared t.prog m.prog) || 3 ≤ p.shared.users.admin_count
      | none => true
  | _ => true

theorem takes_of_apart {p : Pool Db UserTask} {i : Nat} {t m : UserTask} {u v : User}
    (apart : Apart p (.turn i .ok) = true) (found : p.tasks[i]? = some t) (member : m ∈ p.tasks)
    (hu : u ∈ p.shared.users.rows) (hv : v ∈ p.shared.users.rows) (admin : u.is_admin = 1) (admin' : v.is_admin = 1)
    (own : takes t.prog u = true) (other : takes m.prog v = true) :
    u = v ∨ 3 ≤ p.shared.users.admin_count := by
  simp only [Apart, found, Bool.or_eq_true, List.all_eq_true, decide_eq_true_eq] at apart
  refine apart.imp_left fun none => ?_
  by_contra distinct
  have rival : rivals p.shared t.prog m.prog = true := by
    refine List.any_eq_true.2 ⟨u, hu, List.any_eq_true.2 ⟨v, hv, ?_⟩⟩
    simp [admin, admin', own, other, distinct]
  have := none m member
  simp [rival] at this

/-! ## Counting admins -/

namespace Users

variable {t : Users}

def admins (t : Users) : List User := t.rows.filter fun u => decide (u.is_admin = 1)

theorem mem_admins {u : User} : u ∈ t.admins ↔ u ∈ t.rows ∧ u.is_admin = 1 := by
  simp [admins]

theorem admin_count_eq (t : Users) : t.admin_count = t.admins.length := by
  rw [admin_count, admins, List.countP_eq_length_filter]

theorem nodup_admins (t : Users) : t.admins.Nodup := (List.Nodup.of_map _ t.ids).filter _

/-- With more admins than a list names there is one it does not name. -/
theorem exists_admin_not_mem {named : List User} (more : (named.length : Int) < t.admin_count) :
    ∃ u ∈ t.admins, u ∉ named := by
  by_contra none
  have all : t.admins ⊆ named := by
    intro u member
    by_contra other
    exact none ⟨u, member, other⟩
  have bound := (List.subperm_of_subset t.nodup_admins all).length_le
  rw [admin_count_eq] at more
  omega

end Users

/-! ## One statement -/

section Exec

variable {β : Type} {f : UserOp β} {db : Db} {u v : User}

/-- A statement takes the flag from one row at most. -/
theorem UserOp.takes_one (hu : u ∈ db.users.rows) (hv : v ∈ db.users.rows) (first : f.takes u = true)
    (second : f.takes v = true) : u = v := by
  cases f with
  | update identity is_admin email =>
      simp only [UserOp.takes, Bool.and_eq_true, decide_eq_true_eq] at first second
      exact Users.eq_of_identity hu hv (first.2.trans second.2.symm)
  | delete id =>
      simp only [UserOp.takes, decide_eq_true_eq] at first second
      exact Users.eq_of_id hu hv (first.trans second.symm)
  | _ => cases first

/-- An admin the statement does not take the flag from is one afterwards. -/
theorem admin_kept (member : u ∈ db.users.rows) (admin : u.is_admin = 1) (spared : f.takes u = false) :
    ∃ u' ∈ (f.exec .ok db).2.users.rows, u'.is_admin = 1 ∧ u'.id = u.id ∧ u'.identity = u.identity := by
  cases f with
  | update identity is_admin email =>
      refine ⟨_, Users.mem_set_admin.2 ⟨u, member, rfl⟩, ?_⟩
      by_cases hit : u.identity = identity
      · rw [if_pos hit]
        have given : is_admin = 1 := by simpa [UserOp.takes, hit] using spared
        exact ⟨given, rfl, rfl⟩
      · rw [if_neg hit]
        exact ⟨admin, rfl, rfl⟩
  | delete id =>
      exact ⟨u, Users.mem_delete.2 ⟨member, by simpa [UserOp.takes] using spared⟩, admin, rfl, rfl⟩
  | insert identity username password_hash email is_admin created_at =>
      refine ⟨u, ?_, admin, rfl, rfl⟩
      simp only [UserOp.exec]
      split
      · rename_i users inserted
        exact Users.mem_of_insert inserted member
      · exact member
  | _ => exact ⟨u, member, admin, rfl, rfl⟩

/-- A statement that takes a flag makes no admin. -/
theorem admin_before (taken : f.takes u = true) (member : v ∈ (f.exec .ok db).2.users.rows)
    (admin : v.is_admin = 1) : v ∈ db.users.rows ∧ f.takes v = false := by
  cases f with
  | update identity is_admin email =>
      simp only [UserOp.takes, Bool.and_eq_true, decide_eq_true_eq] at taken
      obtain ⟨w, old, rfl⟩ := Users.mem_set_admin.1 member
      by_cases hit : w.identity = identity
      · rw [if_pos hit] at admin
        exact absurd admin taken.1
      · rw [if_neg hit]
        exact ⟨old, by simp [UserOp.takes, hit]⟩
  | delete id =>
      obtain ⟨old, other⟩ := Users.mem_delete.1 member
      exact ⟨old, by simpa [UserOp.takes] using other⟩
  | _ => cases taken

@[simp] theorem exec_failed (f : UserOp β) (db : Db) : (f.exec .failed db).2 = db := by
  cases f <;> rfl

end Exec

/-! ## What a request has seen -/

/-- If the next statement takes the flag from an admin, there is another. -/
def Covered (db : Db) (prog : Prog UserOp (AppResult Unit)) : Prop :=
  ∀ u ∈ db.users.rows, u.is_admin = 1 → takes prog u = true →
    ∃ v ∈ db.users.rows, v.is_admin = 1 ∧ v.id ≠ u.id

/-- Whatever its statements find, the program takes a flag only where it has just seen that
there is another admin. -/
def Checks : Prog UserOp (AppResult Unit) → Prop
  | .ret _ => True
  | .op f k => ∀ o db, Covered (f.exec o db).2 (k (f.exec o db).1) ∧ Checks (k (f.exec o db).1)

structure Ready (db : Db) (prog : Prog UserOp (AppResult Unit)) : Prop where
  covered : Covered db prog
  checks : Checks prog

section Ready

variable {db : Db}

theorem ready_ret (r : AppResult Unit) : Ready db (.ret r) := ⟨nofun, trivial⟩

/-- The last statement of a handler. -/
theorem ready_write {f : UserOp (AppResult Unit)} (covered : Covered db (.op f .ret)) :
    Ready db (Request.perform f).run :=
  ⟨covered, fun _ _ => ⟨nofun, trivial⟩⟩

theorem ready_by_identity {identity : Text} {rest : User → Request UserOp Unit}
    (after : ∀ db target, target ∈ db.users.rows → target.identity = identity → Ready db (rest target).run) :
    Ready db (user_by_identity identity >>= rest).run := by
  have run : (user_by_identity identity >>= rest).run = .op (.user_by_identity identity) fun
      | .ok (some target) => (rest target).run
      | .ok none => .ret (.error (.NotFound "unknown user"))
      | .error e => .ret (.error e) := by
    rw [user_by_identity, bind_assoc, Request.run_perform_bind]
    congr 1
    funext r
    rcases r with e | (_ | target) <;> rfl
  rw [run]
  refine ⟨nofun, fun o db => ?_⟩
  cases o with
  | failed => exact ⟨(ready_ret _).covered, trivial⟩
  | ok =>
      simp only [UserOp.exec]
      cases found : db.users.by_identity identity with
      | none => exact ⟨(ready_ret _).covered, trivial⟩
      | some target =>
          obtain ⟨member, is⟩ := Users.mem_of_by_identity found
          have ready := after db target member is
          exact ⟨ready.covered, ready.checks⟩

/-- A request that is refused when there is one admin has seen two. -/
theorem ready_admin_count {e : AppError} {rest : Request UserOp Unit}
    (after : ∀ db, 2 ≤ db.users.admin_count → Ready db rest.run) :
    Ready db (Request.perform .admin_count >>= fun n => if n ≤ 1 then throw e else rest).run := by
  rw [Request.run_perform_bind]
  refine ⟨nofun, fun o db => ?_⟩
  cases o with
  | failed => exact ⟨(ready_ret _).covered, trivial⟩
  | ok =>
      simp only [UserOp.exec]
      split
      · exact ⟨(ready_ret _).covered, trivial⟩
      · rename_i more
        have ready := after db (by omega)
        exact ⟨ready.covered, ready.checks⟩

/-- With two admins, every statement is covered. -/
theorem covered_of_two (two : 2 ≤ db.users.admin_count) (prog : Prog UserOp (AppResult Unit)) :
    Covered db prog := by
  intro u member _ _
  have more : (([u] : List User).length : Int) < db.users.admin_count := by
    simp only [List.length_singleton]
    omega
  obtain ⟨v, admin, other⟩ := Users.exists_admin_not_mem more
  obtain ⟨row, flagged⟩ := Users.mem_admins.1 admin
  refine ⟨v, row, flagged, fun same => other ?_⟩
  exact List.mem_singleton.2 (Users.eq_of_id row member same)

/-- The rows of a target that is no admin lose no flag. -/
theorem covered_of_plain {target : User} (member : target ∈ db.users.rows) (plain : target.is_admin = 0)
    {f : UserOp (AppResult Unit)} (hits : ∀ u, f.takes u = true → u.identity = target.identity ∨ u.id = target.id)
    (k : AppResult Unit → Prog UserOp (AppResult Unit)) : Covered db (.op f k) := by
  intro u row admin taken
  have same : u = target := by
    rcases hits u taken with identity | id
    · exact Users.eq_of_identity row member identity
    · exact Users.eq_of_id row member id
  rw [same, plain] at admin
  cases admin

theorem ready_update (caller : User) (identity : Text) (req : UpdateUserReq) :
    Ready db (update_user caller identity req).run := by
  unfold update_user require_admin
  by_cases plain_caller : caller.is_admin = 0
  · rw [if_pos plain_caller, Request.throw_bind]
    exact ready_ret _
  rw [if_neg plain_caller, pure_bind]
  refine ready_by_identity fun db target member is => ?_
  dsimp only
  split
  · simp only [Request.throw_bind]
    exact ready_admin_count fun db two => ready_write (covered_of_two two _)
  · rename_i harmless
    refine ready_write ?_
    by_cases flagged : target.is_admin = 0
    · refine covered_of_plain member flagged (fun u taken => .inl ?_) _
      simp only [UserOp.takes, Bool.and_eq_true, decide_eq_true_eq] at taken
      rw [taken.2, is]
    · -- the target stays an admin
      intro u row admin taken
      have given : req.is_admin.getD (decide (target.is_admin ≠ 0)) = true := by simpa [flagged] using harmless
      simp only [takes, UserOp.takes, given, if_true] at taken
      cases taken

theorem ready_delete (caller : User) (identity : Text) :
    Ready db (delete_user caller identity).run := by
  unfold delete_user require_admin
  by_cases plain_caller : caller.is_admin = 0
  · rw [if_pos plain_caller, Request.throw_bind]
    exact ready_ret _
  rw [if_neg plain_caller, pure_bind]
  refine ready_by_identity fun db target member is => ?_
  dsimp only
  split
  · rw [Request.throw_bind]
    exact ready_ret _
  split
  · simp only [Request.throw_bind]
    exact ready_admin_count fun db two => ready_write (covered_of_two two _)
  · rename_i plain
    refine ready_write (covered_of_plain member (not_not.1 plain) (fun u taken => .inr ?_) _)
    simpa [UserOp.takes] using taken

theorem ready_create (caller : User) (fresh : Fresh) (req : CreateUserReq) :
    Ready db (create_user caller fresh req).run := by
  unfold create_user create_user_row
  dsimp only
  by_cases plain_caller : caller.is_admin = 0
  · rw [if_pos plain_caller, Request.throw_bind]
    exact ready_ret _
  rw [if_neg plain_caller]
  by_cases short : (decide (Text.trim req.username = []) || decide (Text.byte_len req.password < 6)) = true
  · rw [if_pos short, Request.throw_bind]
    exact ready_ret _
  · rw [if_neg short]
    exact ready_write fun u _ _ taken => nomatch taken

/-- Every request checks before it takes a flag. -/
theorem ready_handle (caller : User) (req : UserRequest) : Ready db (req.handle caller).run := by
  cases req with
  | update identity req => exact ready_update caller identity req
  | delete identity => exact ready_delete caller identity
  | create fresh req => exact ready_create caller fresh req

end Ready

/-! ## Every run -/

/-- A statement that is covered leaves an admin. -/
theorem HasAdmin.exec {β : Type} {db : Db} {f : UserOp β} {k : β → Prog UserOp (AppResult Unit)}
    (admin : HasAdmin db) (covered : Covered db (.op f k)) : HasAdmin (f.exec .ok db).2 := by
  obtain ⟨u, member, flagged⟩ := admin
  by_cases taken : f.takes u = true
  · obtain ⟨v, row, flagged', other⟩ := covered u member flagged taken
    have spared : f.takes v = false := by
      by_contra also
      exact other (congrArg User.id (UserOp.takes_one row member (Bool.not_eq_false _ ▸ also) taken))
    obtain ⟨v', row', flagged', _⟩ := admin_kept row flagged' spared
    exact ⟨v', row', flagged'⟩
  · obtain ⟨u', row', flagged', _⟩ := admin_kept member flagged (Bool.not_eq_true _ ▸ taken)
    exact ⟨u', row', flagged'⟩

/-- A statement of one request keeps what another has seen. -/
theorem Covered.exec {β : Type} {db : Db} {f : UserOp β} {prog : Prog UserOp (AppResult Unit)}
    (admin : HasAdmin db) (covered : Covered db prog)
    (apart : ∀ u ∈ db.users.rows, ∀ v ∈ db.users.rows, u.is_admin = 1 → v.is_admin = 1 → f.takes u = true →
      takes prog v = true → u = v ∨ 3 ≤ db.users.admin_count) :
    Covered (f.exec .ok db).2 prog := by
  intro v row flagged taken
  -- another admin that was there and keeps its flag is another admin
  have enough : ∀ w ∈ db.users.rows, w.is_admin = 1 → f.takes w = false → w.id ≠ v.id →
      ∃ w' ∈ (f.exec .ok db).2.users.rows, w'.is_admin = 1 ∧ w'.id ≠ v.id := by
    intro w member admin spared other
    obtain ⟨w', row', flagged', same, _⟩ := admin_kept member admin spared
    exact ⟨w', row', flagged', same ▸ other⟩
  by_cases takes_some : ∃ u ∈ db.users.rows, u.is_admin = 1 ∧ f.takes u = true
  · obtain ⟨u, member, flagged', own⟩ := takes_some
    obtain ⟨old, spared⟩ := admin_before own row flagged
    have distinct : u ≠ v := by
      rintro rfl
      rw [spared] at own
      cases own
    have three := (apart u member v old flagged' flagged own taken).resolve_left distinct
    have more : (([u, v] : List User).length : Int) < db.users.admin_count := by
      simp only [List.length_cons, List.length_nil]
      omega
    obtain ⟨w, third, neither⟩ := Users.exists_admin_not_mem more
    obtain ⟨row_w, flagged_w⟩ := Users.mem_admins.1 third
    simp only [List.mem_cons, List.not_mem_nil, or_false, not_or] at neither
    refine enough w row_w flagged_w ?_ fun same => neither.2 (Users.eq_of_id row_w old same)
    by_contra also
    exact neither.1 (UserOp.takes_one row_w member (Bool.not_eq_false _ ▸ also) own)
  · have spared : ∀ u ∈ db.users.rows, u.is_admin = 1 → f.takes u = false := by
      intro u member flagged'
      by_contra also
      exact takes_some ⟨u, member, flagged', Bool.not_eq_false _ ▸ also⟩
    obtain ⟨a, member, flagged_a⟩ := admin
    by_cases same : a.id = v.id
    · -- `v` was an admin before
      obtain ⟨a', row', _, id, identity⟩ := admin_kept member flagged_a (spared a member flagged_a)
      have is : a' = v := Users.eq_of_id row' row (id.trans same)
      have taken_a : takes prog a = true := by
        rw [← taken, ← is]
        cases prog with
        | ret r => rfl
        | op g k => cases g <;> simp [takes, UserOp.takes, id, identity]
      obtain ⟨w, row_w, flagged_w, other⟩ := covered a member flagged_a taken_a
      exact enough w row_w flagged_w (spared w row_w flagged_w) (same ▸ other)
    · exact enough a member flagged_a (spared a member flagged_a) same

/-- **An admin remains.**  In every run of user requests in which no flag is taken from an
admin while another request is about to take another's, every table reached has an admin. -/
theorem admin_remains (db : Db) (admin : HasAdmin db) (p : Pool Db UserTask)
    (reached : userRules.system.Reach (fun p e => Apart p e = true) ⟨db, []⟩ p) :
    HasAdmin p.shared := by
  have both : HasAdmin p.shared ∧ ∀ t ∈ p.tasks, Ready p.shared t.prog := by
    refine Pool.Rules.Reach.owned (J := fun db (t : UserTask) => Ready db t.prog) reached
      ⟨admin, fun t member => (List.not_mem_nil member).elim⟩ ?_ ?_
    · intro p call db' ts admin _ _ arrived
      obtain ⟨caller, _, same⟩ := Option.map_eq_some_iff.1 arrived
      cases same
      refine ⟨admin, fun t member => ?_, fun t _ ready => ready⟩
      rw [List.mem_singleton.1 member]
      exact ready_handle caller call.request
    · intro p i o t db' t' admin each apart found turned
      obtain ⟨β, f, k, next, rfl, rfl⟩ := Task.turn_cases turned
      have own := each t (List.mem_of_getElem? found)
      rw [next] at own
      have after : Ready (f.exec o p.shared).2 (k (f.exec o p.shared).1) :=
        ⟨(own.checks o p.shared).1, (own.checks o p.shared).2⟩
      cases o with
      | failed =>
          rw [exec_failed] at after ⊢
          exact ⟨admin, after, fun m _ ready => ready⟩
      | ok =>
          refine ⟨admin.exec own.covered, after, fun m member ready => ⟨?_, ready.checks⟩⟩
          refine ready.covered.exec admin fun u hu v hv flagged flagged' taken taken' => ?_
          have ours : takes t.prog u = true := by rw [next]; exact taken
          exact takes_of_apart apart found member hu hv flagged flagged' ours taken'
  exact both.1

/-! ## Poles -/

private def two_admins : Db where
  users :=
    { rows := [{ id := 1, identity := "a", username := "alice", is_admin := 1 },
        { id := 2, identity := "b", username := "bob", is_admin := 1 }]
      sequence := 2
      ids := by decide
      identities := by decide
      usernames := by decide
      given := by decide }
  devices := Table.empty
  authorized_users := Table.empty

private def demote (caller target : Text) : Pool.Event Call Outcome :=
  .act ⟨caller, .update target ⟨some false, none⟩⟩

private theorem two_admins_hasAdmin : HasAdmin two_admins :=
  ⟨_, List.mem_cons_self, rfl⟩

/-- Alice demotes Bob while Bob demotes Alice: both count two admins before either
writes. -/
theorem mutual_demotion_leaves_no_admin : ¬ ∀ db : Db, HasAdmin db → ∀ p : Pool Db UserTask,
    userRules.system.Reach System.free ⟨db, []⟩ p → HasAdmin p.shared := by
  intro claim
  have run : ∃ p, userRules.system.replay ⟨two_admins, []⟩
      [demote "a" "b", demote "b" "a", .turn 0 .ok, .turn 1 .ok, .turn 0 .ok, .turn 1 .ok,
        .turn 0 .ok, .turn 1 .ok] = some p ∧ p.shared.users.admin_count = 0 := by
    refine ⟨_, rfl, ?_⟩
    decide
  obtain ⟨p, replayed, none⟩ := run
  obtain ⟨u, member, flagged⟩ :=
    claim two_admins two_admins_hasAdmin p (System.reach_of_replay replayed)
  have listed := Users.mem_admins.2 ⟨member, flagged⟩
  rw [Users.admin_count_eq] at none
  have empty : p.shared.users.admins = [] := List.eq_nil_of_length_eq_zero (by omega)
  rw [empty] at listed
  cases listed

/-- The same two requests, the second counting after the first has written: it is
refused, and Alice stays. -/
theorem admin_remains_one_refused : ∃ p : Pool Db UserTask,
    userRules.system.Reach (fun p e => Apart p e = true) ⟨two_admins, []⟩ p ∧
      HasAdmin p.shared ∧ Task.answers p.tasks =
        [(⟨"a", .update "b" ⟨some false, none⟩⟩, .ok ()),
         (⟨"b", .update "a" ⟨some false, none⟩⟩,
           .error (.BadRequest "cannot remove the last admin"))] := by
  have run : ∃ p : Pool Db UserTask,
      (userRules.system.guard fun p e => Apart p e = true).replay ⟨two_admins, []⟩
      [demote "a" "b", demote "b" "a", .turn 0 .ok, .turn 1 .ok, .turn 0 .ok, .turn 0 .ok,
        .turn 1 .ok] = some p ∧ Task.answers p.tasks =
        [(⟨"a", .update "b" ⟨some false, none⟩⟩, .ok ()),
         (⟨"b", .update "a" ⟨some false, none⟩⟩,
           .error (.BadRequest "cannot remove the last admin"))] := by
    refine ⟨_, rfl, ?_⟩
    decide
  obtain ⟨p, replayed, answered⟩ := run
  have reached := System.reach_of_replay_guard replayed
  exact ⟨p, reached, admin_remains two_admins two_admins_hasAdmin p reached, answered⟩

end HomeConnect.Accounts
