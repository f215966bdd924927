/-
# Retention.Settles -- what a pass leaves, and that the next one finds nothing to do

A pass deletes by three rules in turn, and each may delete what another looks at.  By
itself it ends with all of them met (`Met`): nothing past the cutoff, no device above its
count, the store within its cap or empty of routes, and no movie without a route.  Where
they are met a pass changes nothing at all, so a second pass right after the first is idle
(`pass_settles`).

Later deletions cannot undo a rule: they take routes away and nothing else the rules look
at (`Fewer`).
-/
import HomeConnect.Drives.Poles
import HomeConnect.Retention.AgeRule
import HomeConnect.Retention.StorageCap

namespace HomeConnect.Retention

open HomeConnect.Theory HomeConnect.Storage HomeConnect.Drives HomeConnect.Media

set_option autoImplicit false

/-- What the policy asks of the store. -/
structure Met (policy : Policy) (w : World) : Prop where
  age : policy.days > 0 → ∀ r ∈ w.db.routes.rows, older_than (cutoff w.now policy.days) r = false
  count : policy.max_drives > 0 → ∀ device ∈ w.db.accounts.devices.rows,
    (device_routes device.dongle_id w.db).length ≤ policy.max_drives.toNat
  orphans : orphans w = []
  storage : policy.max_gb > 0 → storage_bytes w ≤ cap_bytes policy ∨ w.db.routes.rows = []

/-- Routes were taken away; the devices and the clock are the same. -/
structure Fewer (w w' : World) : Prop where
  accounts : w'.db.accounts = w.db.accounts
  now : w'.now = w.now
  routes : w'.db.routes.rows.Sublist w.db.routes.rows

variable {env : Env} {policy : Policy} {w w' : World}

theorem Fewer.refl (w : World) : Fewer w w := ⟨rfl, rfl, List.Sublist.refl _⟩

theorem Fewer.trans {w'' : World} (first : Fewer w w') (second : Fewer w' w'') : Fewer w w'' :=
  ⟨second.accounts.trans first.accounts, second.now.trans first.now,
    second.routes.trans first.routes⟩

theorem fewer_of_removed {writes : List Write} (removed : Removed env writes w w') : Fewer w w' :=
  ⟨removed.same.accounts, removed.same.now, by rw [removed.same.routes]⟩

variable (env) in
theorem fewer_of_delete_route (name : Text) (w : World) :
    Fewer w (alone env (delete_route name) w).2 := by
  cases split : Text.split_once '|' name with
  | none =>
      rw [delete_route_alone_none split]
      exact .refl w
  | some p =>
      obtain ⟨dongle, ts⟩ := p
      obtain ⟨cleaned, removed, ran⟩ := delete_route_alone env split w
      rw [ran]
      exact (fewer_of_removed removed).trans ⟨rfl, rfl, List.filter_sublist⟩

variable (env) in
theorem fewer_of_deletes {α : Type} (f : α → Text) (xs : List α) (w : World) :
    Fewer w (alone env (xs.forM fun x => delete_route (f x)) w).2 := by
  induction xs generalizing w with
  | nil => exact .refl w
  | cons x rest ih =>
      have ran : alone env ((x :: rest).forM fun x => delete_route (f x)) w =
          alone env (rest.forM fun x => delete_route (f x)) (alone env (delete_route (f x)) w).2 :=
        alone_bind_ok (delete_route_ok (f x) w)
      rw [ran]
      exact (fewer_of_delete_route env (f x) w).trans (ih _)

/-! ## The rules -/

theorem age_of_fewer (fewer : Fewer w w')
    (age : ∀ r ∈ w.db.routes.rows, older_than (cutoff w.now policy.days) r = false) :
    ∀ r ∈ w'.db.routes.rows, older_than (cutoff w'.now policy.days) r = false := by
  rw [fewer.now]
  exact fun r row => age r (fewer.routes.subset row)

theorem count_of_fewer (fewer : Fewer w w')
    (count : ∀ device ∈ w.db.accounts.devices.rows,
      (device_routes device.dongle_id w.db).length ≤ policy.max_drives.toNat) :
    ∀ device ∈ w'.db.accounts.devices.rows,
      (device_routes device.dongle_id w'.db).length ≤ policy.max_drives.toNat := by
  rw [fewer.accounts]
  intro device row
  exact (fewer.routes.filter _).length_le.trans (count device row)

/-- With everything beyond the cap gone, no more than the cap are left. -/
theorem count_of_marked {n : Int} {dongle : Text} {names : List Text} {db db' : Storage.Db}
    (marked : ∀ r ∈ beyond_cap n dongle db, r.fullname ∈ names)
    (rows : db'.routes.rows = db.routes.rows.filter fun r => decide (r.fullname ∉ names)) :
    (device_routes dongle db').length ≤ n.toNat := by
  have left : device_routes dongle db' =
      (device_routes dongle db).filter fun r => decide (r.fullname ∉ names) := by
    rw [device_routes, device_routes, rows, List.filter_filter, List.filter_filter]
    refine List.filter_congr fun r _ => ?_
    rw [Bool.and_comm]
  have perm : (ranked dongle db).Perm (device_routes dongle db) := List.perm_insertionSort _ _
  have parts : (within_cap n dongle db ++ beyond_cap n dongle db) = ranked dongle db :=
    List.take_append_drop _ _
  have none : (beyond_cap n dongle db).countP (fun r => decide (r.fullname ∉ names)) = 0 := by
    rw [List.countP_eq_zero]
    intro r dropped
    simpa using marked r dropped
  rw [left, ← List.countP_eq_length_filter, ← perm.countP_eq, ← parts, List.countP_append, none,
    Nat.add_zero]
  refine List.countP_le_length.trans ?_
  rw [within_cap, List.length_take]
  exact Nat.min_le_left _ _

variable (env) in
/-- What the pass marks covers both rules. -/
theorem marked_covers (policy : Policy) (w : World) :
    ∃ names, alone env (to_delete policy) w = (.ok names, w) ∧
      (∀ name ∈ names, ∃ r ∈ w.db.routes.rows, r.fullname = name) ∧
      (policy.days > 0 → ∀ r ∈ w.db.routes.rows,
        older_than (cutoff w.now policy.days) r = true → r.fullname ∈ names) ∧
      (policy.max_drives > 0 → ∀ device ∈ w.db.accounts.devices.rows,
        ∀ r ∈ beyond_cap policy.max_drives device.dongle_id w.db, r.fullname ∈ names) := by
  obtain ⟨names, chosen, exist⟩ := marked_alone env policy w
  obtain ⟨old, by_age, aged⟩ : ∃ old, alone env (past_cutoff policy) w = (.ok old, w) ∧
      (policy.days > 0 → ∀ r ∈ w.db.routes.rows,
        older_than (cutoff w.now policy.days) r = true → r.fullname ∈ old) := by
    by_cases days : policy.days > 0
    · rw [past_cutoff, if_pos days]
      exact ⟨_, alone_select _ _, fun _ r row old => List.mem_map_of_mem (List.mem_filter.2 ⟨row, old⟩)⟩
    · rw [past_cutoff, if_neg days]
      exact ⟨[], rfl, fun days' => (days days').elim⟩
  obtain ⟨above, by_count, counted⟩ : ∃ above, alone env (past_caps policy) w = (.ok above, w) ∧
      (policy.max_drives > 0 → ∀ device ∈ w.db.accounts.devices.rows,
        ∀ r ∈ beyond_cap policy.max_drives device.dongle_id w.db, r.fullname ∈ above) := by
    by_cases capped : policy.max_drives > 0
    · exact ⟨_, past_caps_alone capped w, fun _ device row r dropped =>
        List.mem_flatMap.2 ⟨device, row, List.mem_map_of_mem dropped⟩⟩
    · rw [past_caps, if_neg capped]
      exact ⟨[], rfl, fun capped' => (capped capped').elim⟩
  have ran : alone env (to_delete policy) w = (.ok (name_set (old ++ above)), w) := by
    rw [to_delete, alone_bind_ok by_age, alone_bind_ok by_count]
    rfl
  rw [ran] at chosen
  cases chosen
  have mem : ∀ name, name ∈ name_set (old ++ above) ↔ name ∈ old ∨ name ∈ above := by
    intro name
    rw [name_set, List.mem_insertionSort, List.mem_dedup, List.mem_append]
  refine ⟨_, ran, exist, fun days r row old => ?_, fun capped device row r dropped => ?_⟩
  · exact (mem _).2 (.inl (aged days r row old))
  · exact (mem _).2 (.inr (counted capped device row r dropped))

/-- Reclaimed movies are gone. -/
theorem orphans_of_reclaimed (filed : Filed w.db)
    (removed : Removed env ((orphans w).flatMap reclaim_writes) w w') : ∀ m, ¬ OrphanMovie w' m := by
  rintro m ⟨row, without⟩
  obtain ⟨old, kept⟩ := (removed.movies m).1 row
  have orphan : OrphanMovie w m := by
    refine ⟨old, fun has => without ?_⟩
    unfold HasRoute
    rw [removed.same.routes]
    exact has
  obtain ⟨⟨dongle, ts⟩, split⟩ := Text.split_once_of_mem (filed.separated m old)
  refine kept m.fullname m.cam (mem_reclaim_writes.2 ?_) rfl
  exact ⟨m.id, mem_orphans.2 ⟨m, orphan, rfl⟩, dongle, ts, split, .inr rfl⟩

theorem orphans_eq_nil : orphans w = [] ↔ ∀ m, ¬ OrphanMovie w m := by
  rw [List.eq_nil_iff_forall_not_mem]
  constructor
  · exact fun none m orphan => none m.id (mem_orphans.2 ⟨m, orphan, rfl⟩)
  · rintro none o listed
    obtain ⟨m, orphan, -⟩ := mem_orphans.1 listed
    exact none m orphan

/-! ## A pass -/

variable (env) in
/-- The rules but for the storage cap. -/
theorem prune_marked_meets (policy : Policy) (w : World)
    (named : ∀ r ∈ w.db.routes.rows, '|' ∈ r.fullname) (filed : Filed w.db) :
    ∃ count w', alone env (prune_marked policy) w = (.ok count, w') ∧ Fewer w w' ∧ Filed w'.db ∧
      (policy.days > 0 → ∀ r ∈ w'.db.routes.rows,
        older_than (cutoff w'.now policy.days) r = false) ∧
      (policy.max_drives > 0 → ∀ device ∈ w'.db.accounts.devices.rows,
        (device_routes device.dongle_id w'.db).length ≤ policy.max_drives.toNat) ∧
      ∀ m, ¬ OrphanMovie w' m := by
  obtain ⟨names, chosen, exist, aged, counted⟩ := marked_covers env policy w
  have separated : ∀ name ∈ names, '|' ∈ name := by
    intro name listed
    obtain ⟨r, row, rfl⟩ := exist name listed
    exact named r row
  obtain ⟨w₁, deleted, rows⟩ := rows_of_deletes env separated w
  have gone : RoutesGone env names w w₁ := by
    obtain ⟨w', ran, gone⟩ := routes_gone_all env separated w
    rw [deleted] at ran
    cases ran
    exact gone
  have fewer : Fewer w w₁ := by
    have := fewer_of_deletes env id names w
    rwa [show alone env (names.forM fun name => delete_route (id name)) w = _ from deleted] at this
  have attempts : Attempts env ((orphans w₁).forM reclaim) ((orphans w₁).flatMap reclaim_writes) :=
    Attempts.forM fun o _ => attempts_reclaim o
  have removed : Removed env ((orphans w₁).flatMap reclaim_writes) w₁
      (((orphans w₁).flatMap reclaim_writes).foldl (applied env) w₁) := by
    refine removed_foldl (fun s listed => ?_) w₁
    obtain ⟨o, _, dongle, ts, _, rfl | rfl⟩ := mem_reclaim_writes.1 listed
    · trivial
    · trivial
  have filed₁ := filed_of_gone gone filed
  have later := fewer_of_removed removed
  refine ⟨names.length, _, ?_, fewer.trans later, ?_, fun days => ?_, fun capped => ?_,
    orphans_of_reclaimed filed₁ removed⟩
  · rw [prune_marked, alone_bind_ok chosen, alone_bind_ok deleted, alone_bind_ok (alone_select _ _),
      alone_bind_ok (attempts w₁)]
    rfl
  · exact ⟨fun m row => filed₁.separated m ((removed.movies m).1 row).1,
      fun m row => filed₁.cameras m ((removed.movies m).1 row).1⟩
  · refine age_of_fewer later fun r row => ?_
    rw [rows, List.mem_filter, decide_eq_true_eq] at row
    rw [fewer.now, ← Bool.not_eq_true]
    exact fun old => row.2 (aged days r row.1 old)
  · refine count_of_fewer later fun device row => ?_
    rw [fewer.accounts] at row
    exact count_of_marked (fun r dropped => counted capped device row r dropped) rows

/-- Where the rules are met a pass changes nothing. -/
theorem idle_of_met (met : Met policy w) (rounds : Nat) :
    alone env (run_once policy rounds) w = (.ok 0, w) := by
  have by_age : alone env (past_cutoff policy) w = (.ok [], w) := by
    by_cases days : policy.days > 0
    · have none : w.db.routes.rows.filter (older_than (cutoff w.now policy.days)) = [] := by
        rw [List.filter_eq_nil_iff]
        exact fun r row => by simp [met.age days r row]
      rw [past_cutoff, if_pos days, alone_select, none]
      rfl
    · rw [past_cutoff, if_neg days]
      rfl
  have by_count : alone env (past_caps policy) w = (.ok [], w) := by
    by_cases capped : policy.max_drives > 0
    · have none : (w.db.accounts.devices.rows.flatMap fun device =>
          (beyond_cap policy.max_drives device.dongle_id w.db).map Route.fullname) = [] := by
        rw [List.flatMap_eq_nil_iff]
        intro device row
        rw [List.map_eq_nil_iff, beyond_cap, List.drop_eq_nil_iff, ranked, List.length_insertionSort]
        exact met.count capped device row
      rw [past_caps_alone capped, none]
    · rw [past_caps, if_neg capped]
      rfl
  have pruned : alone env (prune_marked policy) w = (.ok 0, w) := by
    have chosen : alone env (to_delete policy) w = (.ok [], w) := by
      rw [to_delete, alone_bind_ok by_age, alone_bind_ok by_count]
      rfl
    have nothing : alone env (([] : List Text).forM delete_route) w = (.ok (), w) := rfl
    have reclaimed : alone env ((orphans w).forM reclaim) w = (.ok (), w) := by
      rw [met.orphans]
      rfl
    rw [prune_marked, alone_bind_ok chosen, alone_bind_ok nothing,
      alone_bind_ok (alone_select _ _), alone_bind_ok reclaimed]
    rfl
  rw [run_once, alone_bind_ok pruned]
  by_cases capped : policy.max_gb > 0
  · have idle : ¬ storage_bytes w > cap_bytes policy ∨ oldest w.db = none := by
      refine (met.storage capped).imp Nat.not_lt.2 fun empty => ?_
      rw [oldest, empty]
      rfl
    rw [if_pos capped, alone_bind_ok (storage_loop_idle idle rounds)]
    rfl
  · rw [if_neg capped]
    rfl

/-- **A pass settles.**  By itself, a pass with as many rounds as there are routes leaves every
rule of the policy met, and the next one deletes nothing and changes nothing. -/
theorem pass_settles (env : Env) (policy : Policy) (w : World)
    (named : ∀ r ∈ w.db.routes.rows, '|' ∈ r.fullname) (filed : Filed w.db) (rounds : Nat)
    (enough : w.db.routes.rows.length ≤ rounds) :
    Met policy (alone env (run_once policy rounds) w).2 ∧
      ∀ rounds', alone env (run_once policy rounds') (alone env (run_once policy rounds) w).2 =
        (.ok 0, (alone env (run_once policy rounds) w).2) := by
  suffices met : Met policy (alone env (run_once policy rounds) w).2 from
    ⟨met, fun rounds' => idle_of_met met rounds'⟩
  obtain ⟨marked, w₁, pruned, fewer, filed₁, age, count, no_orphan⟩ :=
    prune_marked_meets env policy w named filed
  rw [run_once, alone_bind_ok pruned]
  by_cases capped : policy.max_gb > 0
  · have named₁ : ∀ r ∈ w₁.db.routes.rows, '|' ∈ r.fullname := fun r row =>
      named r (fewer.routes.subset row)
    obtain ⟨gone, minimal, ends⟩ := storage_loop_minimal env (cap_bytes policy) w₁ named₁
    have short : w₁.db.routes.rows.length ≤ rounds := fewer.routes.length_le.trans enough
    have ran : alone env (if policy.max_gb > 0 then do
        let more ← storage_loop (cap_bytes policy) rounds
        pure (marked + more)
      else pure marked) w₁ = (.ok (marked + gone.length), after_deleting env gone w₁) := by
      rw [if_pos capped, alone_bind_ok (ends rounds short)]
      rfl
    rw [ran]
    have separated : ∀ name, HasRoute w₁ name → '|' ∈ name := by
      intro name has
      obtain ⟨r, found⟩ := Option.isSome_iff_exists.1 has
      obtain ⟨row, rfl⟩ := Table.get?_eq_some.1 found
      exact named₁ r row
    obtain ⟨names, removed, there⟩ := storage_gone env (cap_bytes policy) rounds w₁ separated
    rw [ends rounds short] at removed
    have later : Fewer w₁ (after_deleting env gone w₁) := fewer_of_deletes env Route.fullname gone w₁
    refine ⟨fun days => age_of_fewer later (age days), fun caps => count_of_fewer later (count caps),
      ?_, fun _ => minimal.ended⟩
    rw [orphans_eq_nil]
    exact fun m orphan => no_orphan m ((orphans_of_gone removed there filed₁ m).1 orphan)
  · rw [if_neg capped]
    exact ⟨age, count, orphans_eq_nil.2 no_orphan, fun capped' => (capped capped').elim⟩

/-! ## Poles -/

/-- An old drive, two of one day, and a movie of none. -/
private def crowded : World :=
  { one_device { dongle_id := "d" } with
    db.routes :=
      ((Table.single { fullname := "d|c", device_dongle_id := "d", created_at := 86400009 }).insertIfAbsent
        { fullname := "d|b", device_dongle_id := "d", created_at := 86400008 }).insertIfAbsent
        { fullname := "d|a", device_dongle_id := "d", created_at := 1 }
    db.movies := .single { fullname := "d|z", cam := "qcamera", seg_count := 1 }
    blobs := (Table.single ⟨plain_env.path (.movie "d" "z" "qcamera"), [1, 2]⟩).insertIfAbsent
      ⟨plain_env.path (.segment "d" "c" 0 "qlog.bz2"), [3]⟩
    now := 86402000 }

/-- One day, one drive and two bytes: the newest drive is left. -/
theorem pass_settles_crowded :
    (alone plain_env (run_once ⟨1, 1, 2 / 1000000000⟩ 3) crowded).2.db.routes.rows.length = 1 ∧
      ∀ rounds', alone plain_env (run_once ⟨1, 1, 2 / 1000000000⟩ rounds')
          (alone plain_env (run_once ⟨1, 1, 2 / 1000000000⟩ 3) crowded).2 =
        (.ok 0, (alone plain_env (run_once ⟨1, 1, 2 / 1000000000⟩ 3) crowded).2) :=
  ⟨by decide +kernel, (pass_settles plain_env ⟨1, 1, 2 / 1000000000⟩ crowded (by decide)
    ⟨by decide, by decide⟩ 3 (by decide)).2⟩

end HomeConnect.Retention
