/-
# Retention.Newest -- when retention keeps the newest drives

The age rule dates a drive by its start, or by `created_at` when it has none (no GPS fix).
The count cap and the storage cap sort by start alone, so a drive without a start sorts as
the oldest of all, however new it is: with a cap of one drive, a drive just recorded without
a fix is deleted and an older one kept (`drive_without_fix_deleted`).

`Misplaced d k` says that the order has `d` for older than `k` although it is newer.  Both
caps keep the newest exactly when no misplaced pair is parted by the limit, and no drive
that sorts first is misplaced when the storage loop chooses (`newest_kept_iff`).
-/
import HomeConnect.Drives.Poles
import HomeConnect.Retention.Pass

namespace HomeConnect.Retention

open HomeConnect.Theory HomeConnect.Storage HomeConnect.Drives

set_option autoImplicit false

/-! ## What a drive's age is -/

/-- A drive's time, as the age rule has it: its start, or else when it was created. -/
def drive_time (r : Route) : Int := if start_time r > 0 then start_time r else r.created_at

/-- The drive has no start, and is newer than one that sorts as newer. -/
def Misplaced (d k : Route) : Prop :=
  start_time d ≤ 0 ∧ start_time d < start_time k ∧ drive_time k < d.created_at

/-- Only a misplaced drive is newer than one that sorts as newer. -/
theorem newer_iff_misplaced {d k : Route} (sorted : newest_first k d) :
    drive_time k < drive_time d ↔ Misplaced d k := by
  unfold Misplaced
  constructor
  · intro newer
    rcases sorted with larger | ⟨tie, created⟩
    · by_cases h : start_time d > 0
      · have h' : start_time k > 0 := by omega
        simp only [drive_time, h, h', if_true] at newer
        omega
      · refine ⟨by omega, larger, ?_⟩
        rwa [show drive_time d = d.created_at from if_neg h] at newer
    · unfold drive_time at newer
      rw [tie] at newer
      split at newer <;> omega
  · rintro ⟨none, _, newer⟩
    rwa [show drive_time d = d.created_at from if_neg (by omega)]

theorem drive_time_of_tied {a b : Route} (tied : Ranking.Tied newest_first a b) :
    start_time a = start_time b ∧ a.created_at = b.created_at := by
  obtain ⟨ab, ba⟩ := tied
  unfold newest_first at ab ba
  omega

theorem Misplaced.congr {d d' k k' : Route} (tiedD : Ranking.Tied newest_first d d')
    (tiedK : Ranking.Tied newest_first k k') (misplaced : Misplaced d k) : Misplaced d' k' := by
  obtain ⟨startD, createdD⟩ := drive_time_of_tied tiedD
  obtain ⟨startK, createdK⟩ := drive_time_of_tied tiedK
  unfold Misplaced drive_time at *
  rwa [← startD, ← startK, ← createdD, ← createdK]

/-! ## Keeping the newest -/

/-- The worlds in which a round of the storage loop starts. -/
inductive Rounds (env : Env) (cap : Nat) (w : World) : World → Prop
  | start : Rounds env cap w w
  | next {w' w'' : World} : Rounds env cap w w' →
      alone env (storage_round cap) w' = (.ok true, w'') → Rounds env cap w w''

theorem Rounds.head {env : Env} {cap : Nat} {w w' w'' : World}
    (first : alone env (storage_round cap) w = (.ok true, w')) (rest : Rounds env cap w' w'') :
    Rounds env cap w w'' := by
  induction rest with
  | start => exact .next .start first
  | next _ stepped ih => exact .next ih stepped

/-- The loop leaves a world that some number of rounds leads to. -/
theorem rounds_of_storage_loop (env : Env) (cap rounds : Nat) (w : World) :
    Rounds env cap w (alone env (storage_loop cap rounds) w).2 := by
  induction rounds generalizing w with
  | zero => exact .start
  | succ rounds ih =>
      cases first : oldest w.db with
      | none =>
          rw [storage_loop_idle (.inr first)]
          exact .start
      | some r =>
          by_cases above : storage_bytes w > cap
          · rw [storage_loop_deletes above first, alone_bind]
            have more := ih (alone env (delete_route r.fullname) w).2
            have stepped := Rounds.head (storage_round_deletes above first) more
            split
            · exact stepped
            · exact stepped
          · rw [storage_loop_idle (.inl above)]
            exact .start

/-- Where the storage loop starts. -/
def before_storage (env : Env) (policy : Policy) (w : World) : World :=
  (alone env (prune_marked policy) w).2

structure NewestKept (env : Env) (policy : Policy) (w : World) : Prop where
  /-- Nothing the count cap deletes is newer than anything of the device's it keeps. -/
  count_cap : policy.max_drives > 0 → ∀ device ∈ w.db.accounts.devices.rows,
    ∀ d ∈ beyond_cap policy.max_drives device.dongle_id w.db,
    ∀ k ∈ within_cap policy.max_drives device.dongle_id w.db, ¬ drive_time k < drive_time d
  /-- What the storage loop deletes is never newer than anything that remains. -/
  storage_cap : policy.max_gb > 0 → ∀ w',
    Rounds env (cap_bytes policy) (before_storage env policy w) w' →
    storage_bytes w' > cap_bytes policy → ∀ d, oldest w'.db = some d →
    ∀ r ∈ w'.db.routes.rows, ¬ drive_time r < drive_time d

/-- Where the orders and the ages agree, as far as the caps look. -/
structure Agreeing (env : Env) (policy : Policy) (w : World) : Prop where
  /-- Fewer than the cap sort before `k`, and more than the cap up to `d`. -/
  count_cap : policy.max_drives > 0 → ∀ device ∈ w.db.accounts.devices.rows,
    ∀ d ∈ device_routes device.dongle_id w.db, ∀ k ∈ device_routes device.dongle_id w.db,
    Misplaced d k →
    ¬ (Ranking.before newest_first (device_routes device.dongle_id w.db) k <
        policy.max_drives.toNat ∧
      policy.max_drives.toNat < Ranking.upTo newest_first (device_routes device.dongle_id w.db) d)
  storage_cap : policy.max_gb > 0 → ∀ w',
    Rounds env (cap_bytes policy) (before_storage env policy w) w' →
    storage_bytes w' > cap_bytes policy → ∀ d ∈ w'.db.routes.rows,
    (∀ r ∈ w'.db.routes.rows, oldest_first d r) → ∀ r ∈ w'.db.routes.rows, ¬ Misplaced d r

/-- The count cap, for one device. -/
theorem count_cap_iff (n : Int) (dongle : Text) (db : Storage.Db) :
    (∀ d ∈ beyond_cap n dongle db, ∀ k ∈ within_cap n dongle db,
        ¬ drive_time k < drive_time d) ↔
      ∀ d ∈ device_routes dongle db, ∀ k ∈ device_routes dongle db, Misplaced d k →
        ¬ (Ranking.before newest_first (device_routes dongle db) k < n.toNat ∧
          n.toNat < Ranking.upTo newest_first (device_routes dongle db) d) := by
  have apart := Ranking.left_out_never_beats_iff newest_first (device_routes dongle db) n.toNat
    fun d d' k k' tiedD tiedK => Misplaced.congr tiedD tiedK
  rw [← apart]
  have sorted := List.pairwise_insertionSort newest_first (device_routes dongle db)
  rw [← List.take_append_drop n.toNat (List.insertionSort newest_first _)] at sorted
  have across := (List.pairwise_append.1 sorted).2.2
  constructor
  · intro never d hd k hk misplaced
    exact never d hd k hk ((newer_iff_misplaced (across k hk d hd)).2 misplaced)
  · intro never d hd k hk newer
    exact never d hd k hk ((newer_iff_misplaced (across k hk d hd)).1 newer)

/-- One choice of the storage loop. -/
theorem storage_cap_iff (db : Storage.Db) :
    (∀ d, oldest db = some d → ∀ r ∈ db.routes.rows, ¬ drive_time r < drive_time d) ↔
      ∀ d ∈ db.routes.rows, (∀ r ∈ db.routes.rows, oldest_first d r) →
        ∀ r ∈ db.routes.rows, ¬ Misplaced d r := by
  have first := Ranking.head_iff oldest_first db.routes.rows
    (P := fun d => ∀ r ∈ db.routes.rows, ¬ drive_time r < drive_time d)
    (by
      rintro a b ⟨ab, ba⟩ never r member newer
      unfold oldest_first at ab ba
      refine never r member ?_
      unfold drive_time at newer ⊢
      have startAB : start_time a = start_time b := by omega
      have createdAB : a.created_at = b.created_at := by omega
      rwa [startAB, createdAB])
  rw [oldest, first]
  constructor
  · intro every d member least r hr misplaced
    exact every d member least r hr ((newer_iff_misplaced (by
      have le := least r hr
      unfold oldest_first at le
      unfold newest_first
      omega)).2 misplaced)
  · intro every d member least r hr newer
    exact every d member least r hr ((newer_iff_misplaced (by
      have le := least r hr
      unfold oldest_first at le
      unfold newest_first
      omega)).1 newer)

/-- **The newest drives are kept** exactly where the orders and the ages agree; and the rounds
they are about are those of the loop. -/
theorem newest_kept_iff (env : Env) (policy : Policy) (w : World) :
    (NewestKept env policy w ↔ Agreeing env policy w) ∧
      ∀ rounds, Rounds env (cap_bytes policy) (before_storage env policy w)
        (alone env (storage_loop (cap_bytes policy) rounds) (before_storage env policy w)).2 := by
  refine ⟨?_, fun rounds => rounds_of_storage_loop env _ rounds _⟩
  constructor
  · rintro ⟨count, storage⟩
    refine ⟨fun capped device member => ?_, fun capped w' reached above => ?_⟩
    · exact (count_cap_iff _ _ _).1 (count capped device member)
    · exact (storage_cap_iff _).1 (storage capped w' reached above)
  · rintro ⟨count, storage⟩
    refine ⟨fun capped device member => ?_, fun capped w' reached above => ?_⟩
    · exact (count_cap_iff _ _ _).2 (count capped device member)
    · exact (storage_cap_iff _).2 (storage capped w' reached above)

/-- A drive with a fix, and a newer one without. -/
private def driven : Route :=
  { fullname := fullname "d" "s", device_dongle_id := "d",
    aggregates := { start_time_utc_millis := 1000 }, created_at := 2000 }

private def without_fix : Route :=
  { fullname := fullname "d" "t", device_dongle_id := "d", created_at := 5000 }

private def two_drives : World :=
  { one_device { dongle_id := "d" } with db.routes := ⟨[driven, without_fix], by decide⟩ }

/-- With a cap of one drive, the newer of the two is deleted. -/
theorem drive_without_fix_deleted :
    ¬ ∀ (env : Env) (policy : Policy) (w : World), NewestKept env policy w := by
  intro claim
  have kept := (claim plain_env ⟨0, 1, 0⟩ two_drives).count_cap (by decide)
    { dongle_id := "d" } List.mem_cons_self
  have deleted : without_fix ∈ beyond_cap 1 "d" two_drives.db := by decide
  have spared : driven ∈ within_cap 1 "d" two_drives.db := by decide
  exact kept _ deleted _ spared (by decide)

end HomeConnect.Retention
