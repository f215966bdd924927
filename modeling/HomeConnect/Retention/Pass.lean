/-
# Retention.Pass -- one pass of the retention task

`run_once` marks the routes past the age cutoff and those beyond a device's count cap,
deletes them, reclaims movies without a route, and then deletes the route that sorts
first, one at a time, while the store is over the storage cap.

The storage loop of the source has no bound of its own; `storage_loop` takes a number of
rounds, and `storage_loop_ends` says how many are enough for it to end by itself.
-/
import HomeConnect.Retention.DeleteRoute
import HomeConnect.Theory.Ranking

namespace HomeConnect.Retention

open HomeConnect.Theory HomeConnect.Storage HomeConnect.Drives HomeConnect.Media

set_option autoImplicit false

structure Policy where
  days : Int
  max_drives : Int
  max_gb : Rat
deriving DecidableEq, Repr

abbrev start_time (r : Route) : Int := r.aggregates.start_time_utc_millis

/-! ## Age cutoff -/

/-- Integer arithmetic wraps at 64 bits. -/
def wrap_i64 (n : Int) : Int := n.bmod (2 ^ 64)

def cutoff (now days : Int) : Int := wrap_i64 (now - wrap_i64 (days * 86400000))

/-- `WHERE (start > 0 AND start < ?) OR (start = 0 AND created_at < ?)`. -/
def older_than (cutoff : Int) (r : Route) : Bool :=
  decide ((start_time r > 0 ∧ start_time r < cutoff) ∨ (start_time r = 0 ∧ r.created_at < cutoff))

def past_cutoff (policy : Policy) : Request Op (List Text) :=
  if policy.days > 0 then
    select fun w =>
      (w.db.routes.rows.filter (older_than (cutoff w.now policy.days))).map Route.fullname
  else pure []

/-! ## Per-device drive count cap -/

/-- `ORDER BY start_time_utc_millis DESC, created_at DESC`. -/
def newest_first (a b : Route) : Prop :=
  start_time b < start_time a ∨ (start_time a = start_time b ∧ b.created_at ≤ a.created_at)

instance : DecidableRel newest_first := fun _ _ => inferInstanceAs (Decidable (_ ∨ _))

instance : Std.Total newest_first where
  total a b := by
    unfold newest_first
    omega

instance : IsTrans Route newest_first where
  trans a b c ab bc := by
    unfold newest_first at *
    omega

def device_routes (dongle : Text) (db : Storage.Db) : List Route :=
  db.routes.rows.filter fun r => decide (r.device_dongle_id = dongle)

def ranked (dongle : Text) (db : Storage.Db) : List Route :=
  (device_routes dongle db).insertionSort newest_first

/-- The drives the cap keeps, and those it does not (`LIMIT -1 OFFSET n`). -/
def within_cap (n : Int) (dongle : Text) (db : Storage.Db) : List Route :=
  (ranked dongle db).take n.toNat

def beyond_cap (n : Int) (dongle : Text) (db : Storage.Db) : List Route :=
  (ranked dongle db).drop n.toNat

def beyond_caps (n : Int) : List Text → Request Op (List Text)
  | [] => pure []
  | dongle :: rest => do
      let rows ← select fun w => (beyond_cap n dongle w.db).map Route.fullname
      let more ← beyond_caps n rest
      pure (rows ++ more)

def past_caps (policy : Policy) : Request Op (List Text) := do
  if policy.max_drives > 0 then
    let devices ← select fun w => w.db.accounts.devices.rows.map Accounts.Device.dongle_id
    beyond_caps policy.max_drives devices
  else
    pure []

/-- A `BTreeSet` of names, in order. -/
def name_set (names : List Text) : List Text := names.dedup.insertionSort (· ≤ ·)

/-- The routes marked by age or by count. -/
def to_delete (policy : Policy) : Request Op (List Text) := do
  let old ← past_cutoff policy
  let above ← past_caps policy
  pure (name_set (old ++ above))

/-! ## Orphaned movies -/

/-- Movies whose route no longer exists. -/
def orphans (w : World) : List (Text × Text) :=
  (w.db.movies.rows.filter fun m => (w.db.routes.get? m.fullname).isNone).map Movie.id

def reclaim (orphan : Text × Text) : Request Op Unit :=
  match Text.split_once '|' orphan.1 with
  | some (dongle, ts) => delete_movie dongle ts orphan.2
  | none => pure ()

/-! ## Storage cap -/

/-- Total bytes stored under the blobs and transcode directories. -/
def storage_bytes (w : World) : Nat := w.blobs.size + w.transcode.size

/-- `(max_gb * 1e9) as u64`. -/
def cap_bytes (policy : Policy) : Nat := min (policy.max_gb * 1000000000).floor.toNat (2 ^ 64 - 1)

/-- `ORDER BY start_time_utc_millis ASC, created_at ASC`. -/
def oldest_first (a b : Route) : Prop :=
  start_time a < start_time b ∨ (start_time a = start_time b ∧ a.created_at ≤ b.created_at)

instance : DecidableRel oldest_first := fun _ _ => inferInstanceAs (Decidable (_ ∨ _))

instance : Std.Total oldest_first where
  total a b := by
    unfold oldest_first
    omega

instance : IsTrans Route oldest_first where
  trans a b c ab bc := by
    unfold oldest_first at *
    omega

def oldest (db : Storage.Db) : Option Route := (db.routes.rows.insertionSort oldest_first).head?

/-- One round of the loop; says whether a route was deleted. -/
def storage_round (cap : Nat) : Request Op Bool := do
  let used ← Request.unwrap_or (select storage_bytes) 0
  if used > cap then
    match ← select fun w => (oldest w.db).map Route.fullname with
    | some name => do
        delete_route name
        pure true
    | none => pure false
  else
    pure false

/-- Delete the oldest remaining routes until under the cap; returns how many. -/
def storage_loop (cap : Nat) : Nat → Request Op Nat
  | 0 => pure 0
  | rounds + 1 => do
      if ← storage_round cap then
        let more ← storage_loop cap rounds
        pure (more + 1)
      else
        pure 0

/-! ## The pass -/

/-- Age, count and orphans; returns how many routes were deleted. -/
def prune_marked (policy : Policy) : Request Op Nat := do
  let marked ← to_delete policy
  marked.forM delete_route
  let orphaned ← select orphans
  orphaned.forM reclaim
  pure marked.length

/-- Run one retention pass.  Returns the number of routes deleted. -/
def run_once (policy : Policy) (rounds : Nat) : Request Op Nat := do
  let deleted ← prune_marked policy
  if policy.max_gb > 0 then
    let more ← storage_loop (cap_bytes policy) rounds
    pure (deleted + more)
  else
    pure deleted

variable {env : Env}

/-! ## What is marked -/

theorem beyond_caps_alone (n : Int) (dongles : List Text) (w : World) :
    alone env (beyond_caps n dongles) w =
      (.ok (dongles.flatMap fun dongle => (beyond_cap n dongle w.db).map Route.fullname), w) := by
  induction dongles with
  | nil => rfl
  | cons dongle rest ih =>
      rw [beyond_caps, alone_bind_ok (alone_select _ _), alone_bind_ok ih]
      rfl

/-- The count cap marks what is beyond it on each device. -/
theorem past_caps_alone {policy : Policy} (capped : policy.max_drives > 0) (w : World) :
    alone env (past_caps policy) w =
      (.ok (w.db.accounts.devices.rows.flatMap fun device =>
        (beyond_cap policy.max_drives device.dongle_id w.db).map Route.fullname), w) := by
  rw [past_caps, if_pos capped, alone_bind_ok (alone_select _ _), beyond_caps_alone,
    List.flatMap_map]

/-! ## The storage loop ends -/

/-- By itself `delete_route` succeeds. -/
theorem delete_route_ok (name : Text) (w : World) :
    alone env (delete_route name) w = (.ok (), (alone env (delete_route name) w).2) := by
  cases split : Text.split_once '|' name with
  | none => rw [delete_route_alone_none split]
  | some p =>
      obtain ⟨dongle, ts⟩ := p
      obtain ⟨cleaned, _, ran⟩ := delete_route_alone env split w
      rw [ran]

/-- Over the cap, a round deletes the route that sorts first. -/
theorem storage_round_deletes {cap : Nat} {w : World} {r : Route} (above : storage_bytes w > cap)
    (first : oldest w.db = some r) :
    alone env (storage_round cap) w = (.ok true, (alone env (delete_route r.fullname) w).2) := by
  have used : alone env (Request.unwrap_or (select storage_bytes) 0) w = (.ok (storage_bytes w), w) :=
    alone_unwrap_or 0 (alone_select storage_bytes w)
  rw [storage_round, alone_bind_ok used, if_pos above, alone_bind_ok (alone_select _ _), first]
  exact alone_bind_ok (delete_route_ok r.fullname w)

/-- Under the cap, or without a route, it does nothing. -/
theorem storage_round_idle {cap : Nat} {w : World}
    (idle : ¬ storage_bytes w > cap ∨ oldest w.db = none) :
    alone env (storage_round cap) w = (.ok false, w) := by
  have used : alone env (Request.unwrap_or (select storage_bytes) 0) w = (.ok (storage_bytes w), w) :=
    alone_unwrap_or 0 (alone_select storage_bytes w)
  rw [storage_round, alone_bind_ok used]
  by_cases above : storage_bytes w > cap
  · rcases idle with under | none
    · exact absurd above under
    · rw [if_pos above, alone_bind_ok (alone_select _ _), none]
      rfl
  · rw [if_neg above]
    rfl

/-- Deleting a route takes its row away and adds none. -/
theorem routes_of_delete_route (env : Env) {r : Route} {w : World} (member : r ∈ w.db.routes.rows)
    (named : '|' ∈ r.fullname) :
    (alone env (delete_route r.fullname) w).2.db.routes.rows.length < w.db.routes.rows.length ∧
      ∀ r' ∈ (alone env (delete_route r.fullname) w).2.db.routes.rows, r' ∈ w.db.routes.rows := by
  obtain ⟨⟨dongle, ts⟩, split⟩ := Text.split_once_of_mem named
  obtain ⟨cleaned, removed, ran⟩ := delete_route_alone env split w
  have left : (alone env (delete_route r.fullname) w).2.db.routes.rows =
      w.db.routes.rows.filter fun r' => !decide (r'.fullname = r.fullname) := by
    rw [ran, ← removed.same.routes]
    rfl
  rw [left]
  refine ⟨?_, fun r' kept => (List.mem_filter.1 kept).1⟩
  rw [List.length_filter_lt_length_iff_exists]
  exact ⟨r, member, by simp⟩

theorem storage_loop_idle {cap : Nat} {w : World}
    (idle : ¬ storage_bytes w > cap ∨ oldest w.db = none) (rounds : Nat) :
    alone env (storage_loop cap rounds) w = (.ok 0, w) := by
  cases rounds with
  | zero => rfl
  | succ rounds =>
      rw [storage_loop, alone_bind_ok (storage_round_idle idle)]
      rfl

theorem storage_loop_deletes {cap : Nat} {w : World} {r : Route} (above : storage_bytes w > cap)
    (first : oldest w.db = some r) (rounds : Nat) :
    alone env (storage_loop cap (rounds + 1)) w =
      alone env (storage_loop cap rounds >>= fun more => pure (more + 1))
        (alone env (delete_route r.fullname) w).2 := by
  rw [storage_loop, alone_bind_ok (storage_round_deletes above first), if_pos rfl]

/-- **The loop ends.**  After as many rounds as there are routes, more change nothing. -/
theorem storage_loop_ends (cap : Nat) (rounds more : Nat) (w : World)
    (named : ∀ r ∈ w.db.routes.rows, '|' ∈ r.fullname) (enough : w.db.routes.rows.length ≤ rounds) :
    alone env (storage_loop cap (rounds + more)) w = alone env (storage_loop cap rounds) w := by
  induction rounds generalizing w with
  | zero =>
      have empty : w.db.routes.rows = [] := List.eq_nil_of_length_eq_zero (by omega)
      have none : oldest w.db = none := by
        rw [oldest, empty]
        rfl
      rw [storage_loop_idle (.inr none), storage_loop_idle (.inr none)]
  | succ rounds ih =>
      cases first : oldest w.db with
      | none => rw [storage_loop_idle (.inr first), storage_loop_idle (.inr first)]
      | some r =>
          by_cases above : storage_bytes w > cap
          · have member := (Ranking.least_of_head oldest_first first).1
            obtain ⟨fewer, subset⟩ := routes_of_delete_route env member (named r member)
            rw [Nat.succ_add, storage_loop_deletes above first, storage_loop_deletes above first,
              alone_bind, alone_bind,
              ih _ (fun r' kept => named r' (subset r' kept)) (by omega)]
          · rw [storage_loop_idle (.inl above), storage_loop_idle (.inl above)]

end HomeConnect.Retention
