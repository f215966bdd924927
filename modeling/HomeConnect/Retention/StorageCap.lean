/-
# Retention.StorageCap -- how much the storage loop deletes

Each round of the loop measures both directories, files of no route included, and deletes
the route that sorts first while that is above the cap.  What it measures need not shrink;
the number of routes does, so the loop ends, and it stops at the first measurement within
the cap or without a route left (`storage_cap_minimal`).
-/
import HomeConnect.Drives.Poles
import HomeConnect.Retention.Orphans

namespace HomeConnect.Retention

open HomeConnect.Theory HomeConnect.Storage HomeConnect.Drives

set_option autoImplicit false

/-- After the routes have been deleted in this order. -/
def after_deleting (env : Env) (gone : List Route) (w : World) : World :=
  (alone env (gone.forM fun r => delete_route r.fullname) w).2

/-- The routes deleted are the first ones, no more of them than it takes. -/
structure Minimal (env : Env) (cap : Nat) (w : World) (gone : List Route) : Prop where
  few : gone.length ≤ w.db.routes.rows.length
  parted : (gone ++ (after_deleting env gone w).db.routes.rows).Perm w.db.routes.rows
  in_order : gone.Pairwise oldest_first
  before_rest : ∀ d ∈ gone, ∀ r ∈ (after_deleting env gone w).db.routes.rows, oldest_first d r
  /-- Before each deletion the store was above the cap. -/
  above : ∀ i < gone.length, cap < storage_bytes (after_deleting env (gone.take i) w)
  ended : storage_bytes (after_deleting env gone w) ≤ cap ∨ (after_deleting env gone w).db.routes.rows = []

variable {env : Env} {cap : Nat} {w : World}

theorem after_deleting_cons (r : Route) (gone : List Route) :
    after_deleting env (r :: gone) w =
      after_deleting env gone (alone env (delete_route r.fullname) w).2 := by
  have cons : alone env ((r :: gone).forM fun r => delete_route r.fullname) w =
      alone env (gone.forM fun r => delete_route r.fullname) (alone env (delete_route r.fullname) w).2 :=
    alone_bind_ok (delete_route_ok r.fullname w)
  rw [after_deleting, cons, ← after_deleting]

/-- A route and those left when it is deleted are all there were. -/
theorem perm_of_delete_route {r : Route} (member : r ∈ w.db.routes.rows) (named : '|' ∈ r.fullname) :
    (r :: (alone env (delete_route r.fullname) w).2.db.routes.rows).Perm w.db.routes.rows := by
  obtain ⟨⟨dongle, ts⟩, split⟩ := Text.split_once_of_mem named
  obtain ⟨cleaned, removed, ran⟩ := delete_route_alone env split w
  have left : (alone env (delete_route r.fullname) w).2.db.routes.rows =
      w.db.routes.rows.filter fun r' => !decide (r'.fullname = r.fullname) := by
    rw [ran, ← removed.same.routes]
    rfl
  have nodup : w.db.routes.rows.Nodup := .of_map _ w.db.routes.nodup
  rw [left, List.perm_ext_iff_of_nodup _ nodup]
  · intro r'
    by_cases same : r'.fullname = r.fullname
    · have is : r' = r ↔ r' ∈ w.db.routes.rows :=
        ⟨fun is => is ▸ member, fun row => Table.eq_of_key row member same⟩
      simp [same, is]
    · have other : r' ≠ r := fun is => same (by rw [is])
      simp [same, other]
  · exact List.nodup_cons.2 ⟨by simp, nodup.filter _⟩

theorem after_deleting_nil (env : Env) (w : World) : after_deleting env [] w = w := by
  show (alone env (pure PUnit.unit) w).2 = w
  rw [alone_pure]

theorem routes_of_oldest_none {db : Db} (none : oldest db = none) : db.routes.rows = [] := by
  unfold oldest at none
  have perm := List.perm_insertionSort oldest_first db.routes.rows
  rw [List.head?_eq_none_iff.1 none] at perm
  exact perm.symm.eq_nil

/-- Nothing to do. -/
theorem minimal_nil (idle : ¬ storage_bytes w > cap ∨ oldest w.db = none) : Minimal env cap w [] := by
  have unchanged := after_deleting_nil env w
  constructor
  · exact Nat.zero_le _
  · rw [unchanged]
    exact List.Perm.refl _
  · exact List.Pairwise.nil
  · intro d listed
    exact absurd listed List.not_mem_nil
  · intro i short
    exact absurd short (Nat.not_lt_zero i)
  · rw [unchanged]
    exact idle.imp Nat.not_lt.1 routes_of_oldest_none

/-- One more round. -/
theorem Minimal.cons {r : Route} {gone : List Route} (first : oldest w.db = some r)
    (named : '|' ∈ r.fullname) (above : storage_bytes w > cap)
    (rest : Minimal env cap (alone env (delete_route r.fullname) w).2 gone) :
    Minimal env cap w (r :: gone) := by
  obtain ⟨member, least⟩ := Ranking.least_of_head oldest_first first
  have one : (r :: (alone env (delete_route r.fullname) w).2.db.routes.rows).Perm w.db.routes.rows :=
    perm_of_delete_route member named
  have subset : ∀ r' ∈ (alone env (delete_route r.fullname) w).2.db.routes.rows, oldest_first r r' :=
    fun r' left => least r' (one.subset (List.mem_cons_of_mem _ left))
  constructor
  · rw [List.length_cons, ← one.length_eq, List.length_cons]
    exact Nat.succ_le_succ rest.few
  · rw [after_deleting_cons, List.cons_append]
    exact (rest.parted.cons r).trans one
  · refine List.pairwise_cons.2 ⟨fun d listed => ?_, rest.in_order⟩
    exact subset d (rest.parted.subset (List.mem_append_left _ listed))
  · rw [after_deleting_cons]
    intro d listed r' left
    rcases List.mem_cons.1 listed with rfl | later
    · exact subset r' (rest.parted.subset (List.mem_append_right _ left))
    · exact rest.before_rest d later r' left
  · intro i short
    cases i with
    | zero => exact above
    | succ i =>
        rw [List.take_succ_cons, after_deleting_cons]
        exact rest.above i (Nat.lt_of_succ_lt_succ short)
  · rw [after_deleting_cons]
    exact rest.ended

variable (env cap) in
/-- The loop by itself: with as many rounds as there are routes it has ended. -/
theorem storage_loop_minimal (w : World) (named : ∀ r ∈ w.db.routes.rows, '|' ∈ r.fullname) :
    ∃ gone, Minimal env cap w gone ∧ ∀ rounds ≥ w.db.routes.rows.length,
      alone env (storage_loop cap rounds) w = (.ok gone.length, after_deleting env gone w) := by
  obtain ⟨n, bound⟩ : ∃ n, w.db.routes.rows.length ≤ n := ⟨_, le_rfl⟩
  induction n generalizing w with
  | zero =>
      have none : oldest w.db = none := by
        rw [oldest, List.eq_nil_of_length_eq_zero (Nat.le_zero.1 bound)]
        rfl
      exact ⟨[], minimal_nil (.inr none), fun rounds _ => storage_loop_idle (.inr none) rounds⟩
  | succ n ih =>
      cases first : oldest w.db with
      | none => exact ⟨[], minimal_nil (.inr first), fun rounds _ => storage_loop_idle (.inr first) rounds⟩
      | some r =>
          by_cases above : storage_bytes w > cap
          · have member := (Ranking.least_of_head oldest_first first).1
            obtain ⟨fewer, subset⟩ := routes_of_delete_route env member (named r member)
            obtain ⟨gone, minimal, ends⟩ := ih (alone env (delete_route r.fullname) w).2
              (fun r' left => named r' (subset r' left)) (by omega)
            refine ⟨r :: gone, minimal.cons first (named r member) above, fun rounds enough => ?_⟩
            obtain ⟨more, rfl⟩ : ∃ more, rounds = more + 1 := ⟨rounds - 1, by omega⟩
            rw [storage_loop_deletes above first, alone_bind_ok (ends more (by omega)), after_deleting_cons]
            rfl
          · exact ⟨[], minimal_nil (.inl above), fun rounds _ => storage_loop_idle (.inl above) rounds⟩

/-- The storage cap of a pass: whatever was marked before, the loop ends within as many
rounds as there are routes, and deletes the oldest routes until the store is within the cap
or no route is left. -/
theorem storage_cap_minimal (env : Env) (policy : Policy) (capped : policy.max_gb > 0) (w : World)
    (named : ∀ r ∈ w.db.routes.rows, '|' ∈ r.fullname) :
    ∃ marked w₁ gone, alone env (prune_marked policy) w = (.ok marked, w₁) ∧
      Minimal env (cap_bytes policy) w₁ gone ∧
      ∀ rounds ≥ w₁.db.routes.rows.length,
        alone env (run_once policy rounds) w = (.ok (marked + gone.length), after_deleting env gone w₁) := by
  have separated : ∀ name, HasRoute w name → '|' ∈ name := by
    intro name has
    obtain ⟨r, found⟩ := Option.isSome_iff_exists.1 has
    obtain ⟨row, rfl⟩ := Table.get?_eq_some.1 found
    exact named r row
  obtain ⟨marked, w₁, w₂, there, gone, removed, pruned⟩ := prune_marked_alone env policy w separated
  have named₂ : ∀ r ∈ w₂.db.routes.rows, '|' ∈ r.fullname := by
    intro r row
    have has : HasRoute w₁ r.fullname := by
      rw [removed.same.routes] at row
      exact has_route_of_row row
    obtain ⟨writes, first, _⟩ := gone
    exact separated _ ((first.routes _).1 has).1
  obtain ⟨gone, minimal, ends⟩ := storage_loop_minimal env (cap_bytes policy) w₂ named₂
  refine ⟨marked.length, w₂, gone, pruned, minimal, fun rounds enough => ?_⟩
  rw [run_once, alone_bind_ok pruned, if_pos capped, alone_bind_ok (ends rounds enough)]
  rfl

/-! ## Pole -/

/-- Two drives, and a file of each. -/
private def full_store : World :=
  { one_device { dongle_id := "d" } with
    db.routes :=
      (Table.single { fullname := "d|b", device_dongle_id := "d", created_at := 2 }).insertIfAbsent
        { fullname := "d|a", device_dongle_id := "d", created_at := 1 }
    blobs := (Table.single ⟨plain_env.path (.segment "d" "a" 0 "qlog.bz2"), [1, 2]⟩).insertIfAbsent
      ⟨plain_env.path (.segment "d" "b" 0 "qlog.bz2"), [3]⟩
    now := 86402000 }

private theorem full_store_named : ∀ r ∈ full_store.db.routes.rows, '|' ∈ r.fullname := by
  decide

/-- One byte is kept: that of the later drive. -/
theorem storage_cap_minimal_one_byte : ∃ marked w₁ gone,
    alone plain_env (prune_marked ⟨0, 0, 1 / 1000000000⟩) full_store = (.ok marked, w₁) ∧
      Minimal plain_env 1 w₁ gone ∧
      ∀ rounds ≥ w₁.db.routes.rows.length,
        alone plain_env (run_once ⟨0, 0, 1 / 1000000000⟩ rounds) full_store =
          (.ok (marked + gone.length), after_deleting plain_env gone w₁) := by
  have cap : cap_bytes ⟨0, 0, 1 / 1000000000⟩ = 1 := by decide +kernel
  have ends := storage_cap_minimal plain_env ⟨0, 0, 1 / 1000000000⟩ (by decide +kernel) full_store
    full_store_named
  rwa [cap] at ends

end HomeConnect.Retention
