/-
# Retention.AgeRule -- what the age limit deletes

With the count cap and the storage cap off, a pass deletes by age alone.  Zero days means
no limit.  For every other limit whose cutoff is a 64-bit time, exactly the drives older
than `now - days` are deleted (`age_rule`), dated by their start, or by `created_at` when
the start is zero; a drive with a negative start is never deleted.

A limit so large that `now - days` leaves 64 bits gives a wrapped cutoff, in the future,
and the pass deletes every dated drive: the second half of `age_limits_not_exact`.
-/
import HomeConnect.Drives.Poles
import HomeConnect.Retention.Orphans

namespace HomeConnect.Retention

open HomeConnect.Theory HomeConnect.Storage HomeConnect.Drives

set_option autoImplicit false

/-- What `set_retention` checks before it saves a policy. -/
def check_policy (p : Policy) : AppResult Unit :=
  if p.days < 0 ∨ p.max_drives < 0 ∨ p.max_gb < 0 then .error (.BadRequest "values must be >= 0")
  else .ok ()

/-- A drive's time for the age rule; a negative start is none. -/
def age_time (r : Route) : Option Int :=
  if start_time r > 0 then some (start_time r)
  else if start_time r = 0 then some r.created_at
  else none

/-- The drive's time is before `now - days`, in unbounded integers. -/
def Expired (now days : Int) (r : Route) : Prop :=
  ∃ time, age_time r = some time ∧ time < now - days * 86400000

theorem expired_iff_of_time {now days time : Int} {r : Route} (found : age_time r = some time) :
    time < now - days * 86400000 ↔ Expired now days r := by
  constructor
  · intro before
    exact ⟨time, found, before⟩
  · rintro ⟨t, same, before⟩
    rw [found] at same
    cases same
    exact before

theorem not_expired_of_none {now days : Int} {r : Route} (found : age_time r = none) :
    ¬ Expired now days r := by
  rintro ⟨t, same, _⟩
  rw [found] at same
  cases same

instance (now days : Int) (r : Route) : Decidable (Expired now days r) :=
  match found : age_time r with
  | some _ => decidable_of_iff _ (expired_iff_of_time found)
  | none => .isFalse (not_expired_of_none found)

/-- The drives a pass leaves when it deletes those of the rows that are chosen. -/
structure Deletes (env : Env) (policy : Policy) (rounds : Nat) (w : World) (chosen : Route → Bool) :
    Prop where
  count : (alone env (run_once policy rounds) w).1 = .ok (w.db.routes.rows.countP chosen)
  rows : (alone env (run_once policy rounds) w).2.db.routes.rows =
    w.db.routes.rows.filter fun r => !chosen r

/-- The time is one of 64 bits. -/
def InRange (n : Int) : Prop := -2 ^ 63 ≤ n ∧ n < 2 ^ 63

/-! ## The cutoff -/

/-- Wrapped arithmetic gives the cutoff whenever it is a 64-bit time. -/
theorem cutoff_in_range {now days : Int} (fits : InRange (now - days * 86400000)) :
    cutoff now days = now - days * 86400000 := by
  obtain ⟨least, most⟩ := fits
  unfold cutoff wrap_i64
  rw [Int.sub_bmod_bmod]
  apply Int.bmod_eq_of_le_mul_two
  · omega
  · omega

theorem older_than_iff {now days : Int} (fits : InRange (now - days * 86400000)) (r : Route) :
    older_than (cutoff now days) r = true ↔ Expired now days r := by
  rw [cutoff_in_range fits]
  unfold older_than Expired age_time
  rw [decide_eq_true_eq]
  by_cases positive : start_time r > 0
  · have nonzero : start_time r ≠ 0 := by omega
    simp [positive, nonzero]
  · by_cases zero : start_time r = 0
    · simp [zero]
    · simp [positive, zero]

/-- A larger limit expires fewer drives. -/
theorem Expired.mono {now days days' : Int} {r : Route} (larger : days ≤ days')
    (expired : Expired now days' r) : Expired now days r := by
  obtain ⟨time, dated, before⟩ := expired
  refine ⟨time, dated, ?_⟩
  omega

/-! ## The pass -/

section Pass

variable (env : Env) {w : World}

/-- Deleting routes by name takes their rows away. -/
theorem rows_of_deletes {names : List Text} (separated : ∀ name ∈ names, '|' ∈ name) (w : World) :
    ∃ w', alone env (names.forM delete_route) w = (.ok (), w') ∧
      w'.db.routes.rows = w.db.routes.rows.filter fun r => decide (r.fullname ∉ names) := by
  induction names generalizing w with
  | nil =>
      refine ⟨w, rfl, ?_⟩
      simp
  | cons name rest ih =>
      obtain ⟨⟨dongle, ts⟩, split⟩ := Text.split_once_of_mem (separated name List.mem_cons_self)
      obtain ⟨cleaned, removed, ran⟩ := delete_route_alone env split w
      obtain ⟨w', others, rows⟩ :=
        ih (fun n member => separated n (List.mem_cons_of_mem _ member)) (without_rows name cleaned)
      refine ⟨w', ?_, ?_⟩
      · change alone env (delete_route name >>= fun _ => rest.forM delete_route) w = _
        rw [alone_bind_ok ran]
        exact others
      · have first : (without_rows name cleaned).db.routes.rows =
            w.db.routes.rows.filter fun r => !decide (r.fullname = name) := by
          rw [← removed.same.routes]
          rfl
        rw [rows, first, List.filter_filter]
        apply List.filter_congr
        intro r _
        by_cases own : r.fullname = name
        · simp [own]
        · simp [own]

/-- With the count cap off, the marked drives are those past the cutoff. -/
theorem marked_by_age (policy : Policy) (uncapped : policy.max_drives = 0) (w : World) :
    ∃ chosen : Route → Bool, (∀ r, chosen r =
        decide (policy.days > 0 ∧ older_than (cutoff w.now policy.days) r = true)) ∧
      alone env (to_delete policy) w =
        (.ok (name_set ((w.db.routes.rows.filter chosen).map Route.fullname)), w) := by
  refine ⟨_, fun _ => rfl, ?_⟩
  have uncounted : alone env (past_caps policy) w = (.ok [], w) := by
    rw [past_caps, if_neg (by omega)]
    rfl
  by_cases limited : policy.days > 0
  · have by_age : alone env (past_cutoff policy) w =
        (.ok ((w.db.routes.rows.filter (older_than (cutoff w.now policy.days))).map
          Route.fullname), w) := by
      rw [past_cutoff, if_pos limited]
      exact alone_select _ _
    rw [to_delete, alone_bind_ok by_age, alone_bind_ok uncounted, List.append_nil]
    simp [limited]
  · have by_age : alone env (past_cutoff policy) w = (.ok [], w) := by
      rw [past_cutoff, if_neg limited]
      rfl
    rw [to_delete, alone_bind_ok by_age, alone_bind_ok uncounted]
    simp [limited, name_set]

/-- Names of rows are different, so the set has one for each. -/
theorem length_name_set {names : List Text} (distinct : names.Nodup) :
    (name_set names).length = names.length := by
  rw [name_set, List.length_insertionSort, distinct.dedup]

/-- A pass with the caps off deletes the drives past the cutoff. -/
theorem pass_by_age (policy : Policy) (uncapped : policy.max_drives = 0)
    (unbounded : policy.max_gb = 0) (rounds : Nat)
    (named : ∀ r ∈ w.db.routes.rows, '|' ∈ r.fullname) :
    Deletes env policy rounds w fun r =>
      decide (policy.days > 0 ∧ older_than (cutoff w.now policy.days) r = true) := by
  obtain ⟨chosen, is, marked⟩ := marked_by_age env policy uncapped w
  have same : (fun r => decide (policy.days > 0 ∧
      older_than (cutoff w.now policy.days) r = true)) = chosen := by
    funext r
    exact (is r).symm
  rw [same]
  have member : ∀ name, name ∈ name_set ((w.db.routes.rows.filter chosen).map Route.fullname) ↔
      ∃ r ∈ w.db.routes.rows, chosen r = true ∧ r.fullname = name := by
    intro name
    rw [name_set, List.mem_insertionSort, List.mem_dedup, List.mem_map]
    simp only [List.mem_filter, and_assoc]
  obtain ⟨w₁, deleted, rows⟩ := rows_of_deletes env (fun name listed => by
    obtain ⟨r, row, _, rfl⟩ := (member name).1 listed
    exact named r row) w
  have attempts : Attempts env ((orphans w₁).forM reclaim) ((orphans w₁).flatMap reclaim_writes) :=
    Attempts.forM fun o _ => attempts_reclaim o
  have removed : Removed env ((orphans w₁).flatMap reclaim_writes) w₁
      (((orphans w₁).flatMap reclaim_writes).foldl (applied env) w₁) := by
    refine removed_foldl (fun s listed => ?_) w₁
    obtain ⟨o, _, dongle, ts, _, rfl | rfl⟩ := mem_reclaim_writes.1 listed
    · trivial
    · trivial
  have distinct : ((w.db.routes.rows.filter chosen).map Route.fullname).Nodup :=
    w.db.routes.nodup.sublist (List.filter_sublist.map _)
  have count : (name_set ((w.db.routes.rows.filter chosen).map Route.fullname)).length =
      w.db.routes.rows.countP chosen := by
    rw [length_name_set distinct, List.length_map, List.countP_eq_length_filter]
  have ran : alone env (run_once policy rounds) w =
      (.ok (w.db.routes.rows.countP chosen),
        ((orphans w₁).flatMap reclaim_writes).foldl (applied env) w₁) := by
    have pruned : alone env (prune_marked policy) w =
        (.ok (w.db.routes.rows.countP chosen),
          ((orphans w₁).flatMap reclaim_writes).foldl (applied env) w₁) := by
      rw [prune_marked, alone_bind_ok marked, alone_bind_ok deleted,
        alone_bind_ok (alone_select _ _), alone_bind_ok (attempts w₁), count]
      rfl
    rw [run_once, alone_bind_ok pruned, if_neg (by rw [unbounded]; exact lt_irrefl 0)]
    rfl
  refine ⟨by rw [ran], ?_⟩
  rw [ran, removed.same.routes, rows]
  apply List.filter_congr
  intro r row
  -- A row is marked by its own name, and no other row has it.
  have marks : r.fullname ∈ name_set ((w.db.routes.rows.filter chosen).map Route.fullname) ↔
      chosen r = true := by
    rw [member]
    constructor
    · rintro ⟨r', row', marked, name⟩
      rw [← Table.eq_of_key row' row name]
      exact marked
    · intro marked
      exact ⟨r, row, marked, rfl⟩
  cases h : chosen r
  · simp [marks, h]
  · simp [marks, h]

end Pass

/-- **The age rule.**  With the caps off, zero days delete nothing; a positive limit with
a 64-bit cutoff deletes exactly the expired drives; and of two such limits the larger
deletes nothing that the smaller keeps. -/
theorem age_rule (env : Env) (w : World) (named : ∀ r ∈ w.db.routes.rows, '|' ∈ r.fullname)
    (policy : Policy) (accepted : check_policy policy = .ok ()) (uncapped : policy.max_drives = 0)
    (unbounded : policy.max_gb = 0) (rounds : Nat) :
    (policy.days = 0 → Deletes env policy rounds w fun _ => false) ∧
      (policy.days ≠ 0 → InRange (w.now - policy.days * 86400000) →
        Deletes env policy rounds w (fun r => decide (Expired w.now policy.days r)) ∧
        ∀ days, policy.days ≤ days → InRange (w.now - days * 86400000) →
          ∀ r ∈ (alone env (run_once policy rounds) w).2.db.routes.rows,
            r ∈ (alone env (run_once { policy with days } rounds) w).2.db.routes.rows) := by
  have nonneg : ¬ policy.days < 0 := by
    intro negative
    rw [check_policy, if_pos (.inl negative)] at accepted
    cases accepted
  have deletes : ∀ days, days > 0 → InRange (w.now - days * 86400000) →
      Deletes env { policy with days } rounds w fun r => decide (Expired w.now days r) := by
    intro days positive fits
    have pass := pass_by_age env { policy with days } uncapped unbounded rounds named
    have same : (fun r => decide (days > 0 ∧ older_than (cutoff w.now days) r = true)) =
        fun r => decide (Expired w.now days r) := by
      funext r
      apply decide_eq_decide.2
      rw [older_than_iff fits, and_iff_right positive]
    rw [← same]
    exact pass
  refine ⟨?_, ?_⟩
  · intro unlimited
    have pass := pass_by_age env policy uncapped unbounded rounds named
    have none : (fun r => decide (policy.days > 0 ∧
        older_than (cutoff w.now policy.days) r = true)) = fun _ => false := by
      funext r
      simp [unlimited]
    rwa [none] at pass
  · intro limited fits
    have positive : policy.days > 0 := by omega
    have shorter := deletes policy.days positive fits
    refine ⟨shorter, ?_⟩
    intro days larger fits' r kept
    have longer := deletes days (by omega) fits'
    rw [shorter.rows, List.mem_filter] at kept
    rw [longer.rows, List.mem_filter]
    refine ⟨kept.1, ?_⟩
    simp only [Bool.not_eq_true', decide_eq_false_iff_not] at kept ⊢
    intro expired
    exact kept.2 (expired.mono larger)

/-! ## Poles -/

private def old_drive : Route :=
  { fullname := "d|s", device_dongle_id := "d", aggregates := { start_time_utc_millis := 1000 } }

/-- A day and a bit after its only drive. -/
private def next_day : World :=
  { one_device { dongle_id := "d" } with
    db.routes := .single old_drive
    now := 86402000 }

private theorem next_day_named : ∀ r ∈ next_day.db.routes.rows, '|' ∈ r.fullname := by
  intro r member
  rw [List.mem_singleton.1 member]
  decide

/-- Zero days keep a drive of the past, and a limit whose cutoff wraps deletes one that
is not that old. -/
theorem age_limits_not_exact :
    (¬ ∀ (env : Env) (w : World), (∀ r ∈ w.db.routes.rows, '|' ∈ r.fullname) → ∀ policy : Policy,
      check_policy policy = .ok () → policy.max_drives = 0 → policy.max_gb = 0 → ∀ rounds,
        Deletes env policy rounds w fun r => decide (Expired w.now policy.days r)) ∧
    ¬ ∀ (env : Env) (w : World), (∀ r ∈ w.db.routes.rows, '|' ∈ r.fullname) → ∀ policy : Policy,
      check_policy policy = .ok () → policy.max_drives = 0 → policy.max_gb = 0 → ∀ rounds,
        0 < policy.days → Deletes env policy rounds w fun r => decide (Expired w.now policy.days r) := by
  constructor
  · intro claim
    have count := (claim plain_env next_day next_day_named ⟨0, 0, 0⟩ rfl rfl rfl 0).count
    have kept : (alone plain_env (run_once ⟨0, 0, 0⟩ 0) next_day).1 = .ok 0 := by decide
    have one : next_day.db.routes.rows.countP
        (fun r => decide (Expired next_day.now 0 r)) = 1 := by decide
    rw [kept, one] at count
    cases count
  · intro claim
    have count := (claim plain_env next_day next_day_named ⟨106751991169, 0, 0⟩ rfl rfl rfl 0
      (by decide)).count
    have deleted : (alone plain_env (run_once ⟨106751991169, 0, 0⟩ 0) next_day).1 = .ok 1 := by
      decide
    have young : next_day.db.routes.rows.countP
        (fun r => decide (Expired next_day.now 106751991169 r)) = 0 := by decide
    rw [deleted, young] at count
    cases count

/-- A limit of one day deletes the drive. -/
theorem age_rule_one_day : (alone plain_env (run_once ⟨1, 0, 0⟩ 0) next_day).1 = .ok 1 := by
  have deletes := ((age_rule plain_env next_day next_day_named ⟨1, 0, 0⟩ rfl rfl rfl 0).2
    (by decide) ⟨by decide, by decide⟩).1
  rw [deletes.count]
  decide

end HomeConnect.Retention
