/-
# Drives.Stats -- driving statistics, from the samples to a user's totals

`telemetry_stats` integrates speed over the gaps between the samples of a segment,
`recompute_route` adds a route's segments up and `my_stats` a user's routes; maximum speeds
are not added but maximised.  Autonomy and the average speed are quotients of the sums.

`Totals.Physical` holds of the sums at each level: what was driven engaged is a part of what
was driven, and no distance is longer than the time at the maximum speed.  It makes the
quotients what they say they are (`stats_bounded`).
-/
import HomeConnect.Drives.Ingest
import Mathlib.Algebra.Order.BigOperators.Group.List
import Mathlib.Algebra.BigOperators.Ring.List
import Mathlib.Tactic.Linarith

namespace HomeConnect.Drives

open HomeConnect.Theory HomeConnect.Storage

set_option autoImplicit false

/-! ## Ignore rules -/

structure Condition where
  field : Text
  op : Text
  value : Rat
deriving DecidableEq, Repr

structure Rule where
  conditions : List Condition
deriving DecidableEq, Repr

/-- Hide zero-movement records, as long as the rules have never been configured. -/
def DEFAULT_RULES : List Rule := [{ conditions := [{ field := "miles", op := "lt", value := 1 / 10 }] }]

/-- `of_json` reads a saved list of rules; what is no such list reads as an empty one. -/
def load_rules (of_json : Text → List Rule) : Request Op (List Rule) := do
  match ← setting "ignore_rules" with
  | some s => pure (of_json s)
  | none => pure DEFAULT_RULES

def cond_matches (c : Condition) (miles minutes : Rat) : Bool :=
  let lhs : Option Rat :=
    if c.field = "miles" then some miles else if c.field = "minutes" then some minutes else none
  match lhs with
  | none => false
  | some lhs =>
      if c.op = "lt" then decide (lhs < c.value)
      else if c.op = "le" then decide (lhs ≤ c.value)
      else if c.op = "gt" then decide (lhs > c.value)
      else if c.op = "ge" then decide (lhs ≥ c.value)
      else false

/-- Is a drive with these metrics ignored by the rules? -/
def is_ignored (rules : List Rule) (miles minutes : Rat) : Bool :=
  rules.any fun r => !r.conditions.isEmpty && r.conditions.all fun c => cond_matches c miles minutes

/-! ## The figures -/

def MPH_PER_MS : Rat := 1 / MPH_TO_MS

def autonomy (engaged_m telem_m : Rat) : Rat := if telem_m > 0 then 100 * engaged_m / telem_m else 0

def avg_speed (telem_m drive_s : Rat) : Rat :=
  if drive_s > 0 then telem_m / drive_s * MPH_PER_MS else 0

/-- The derived drive stats of a route. -/
structure DriveStats where
  autonomy : Rat
  engaged_miles : Rat
  telem_miles : Rat
  drive_seconds : Rat
  engaged_seconds : Rat
  max_speed : Rat
  avg_speed : Rat
deriving DecidableEq, Repr

/-- The statistics in `route_json`. -/
def drive_stats (r : Aggregates) : DriveStats where
  autonomy := Drives.autonomy r.engaged_meters r.telem_meters
  engaged_miles := r.engaged_meters / METERS_PER_MILE
  telem_miles := r.telem_meters / METERS_PER_MILE
  drive_seconds := r.drive_seconds
  engaged_seconds := r.engaged_seconds
  max_speed := r.max_speed
  avg_speed := Drives.avg_speed r.telem_meters r.drive_seconds

structure UserStats where
  routes : Nat
  miles : Rat
  drive_hours : Rat
  engaged_miles : Rat
  autonomy : Rat
  disengagements : Int
  disengagements_per_100mi : Rat
  max_speed : Rat
  avg_speed : Rat
  hard_brake : Int
  hard_accel : Int
deriving DecidableEq, Repr

/-- The routes that the rules don't drop. -/
def counted (rules : List Rule) (rows : List Aggregates) : List Aggregates :=
  rows.filter fun r => !is_ignored rules r.length (r.drive_seconds / 60)

/-- What `my_stats` makes of the rows it selects. -/
def user_stats (rules : List Rule) (rows : List Aggregates) : UserStats :=
  let rows := counted rules rows
  let drive_s := (rows.map Aggregates.drive_seconds).sum
  let engaged_m := (rows.map Aggregates.engaged_meters).sum
  let telem_m := (rows.map Aggregates.telem_meters).sum
  let disengage := (rows.map Aggregates.disengage_count).sum
  let engaged_mi := engaged_m / METERS_PER_MILE
  { routes := rows.length
    miles := (rows.map Aggregates.length).sum
    drive_hours := drive_s / 3600
    engaged_miles := engaged_mi
    autonomy := Drives.autonomy engaged_m telem_m
    disengagements := disengage
    disengagements_per_100mi := if engaged_mi > 0 then (disengage : Rat) / engaged_mi * 100 else 0
    max_speed := (rows.map Aggregates.max_speed).foldl max 0
    avg_speed := Drives.avg_speed telem_m drive_s
    hard_brake := (rows.map Aggregates.hard_brake_count).sum
    hard_accel := (rows.map Aggregates.hard_accel_count).sum }

/-- `SELECT dongle_id FROM devices WHERE owner_id = ? OR ? = 1 UNION SELECT device_dongle_id
FROM authorized_users WHERE user_id = ?`. -/
def is_users (db : Storage.Db) (user : Accounts.User) (dongle : Text) : Bool :=
  ((db.accounts.devices.get? dongle).any fun d => decide (d.owner_id = some user.id) || user.is_admin = 1) ||
    (db.accounts.authorized_users.get? (user.id, dongle)).isSome

/-- The rows of `my_stats`: the user's routes that have a qlog. -/
def stats_rows (db : Storage.Db) (user : Accounts.User) : List Aggregates :=
  (db.routes.rows.filter fun r =>
    decide (r.aggregates.maxqlog ≠ -1) && is_users db user r.device_dongle_id).map Route.aggregates

/-- GET /v1/me/stats. -/
def my_stats (of_json : Text → List Rule) (user : Accounts.User) : Request Op UserStats := do
  let rows ← Request.unwrap_or (select fun w => stats_rows w.db user) []
  let rules ← load_rules of_json
  pure (user_stats rules rows)

/-! ## Totals -/

structure Totals where
  engaged_m : Rat
  telem_m : Rat
  engaged_s : Rat
  drive_s : Rat
  max_speed : Rat

/-- Distances in metres, times in seconds and speeds in mph that can be driven. -/
structure Totals.Physical (s : Totals) : Prop where
  engaged_m : 0 ≤ s.engaged_m
  engaged_m_le : s.engaged_m ≤ s.telem_m
  engaged_s : 0 ≤ s.engaged_s
  engaged_s_le : s.engaged_s ≤ s.drive_s
  max_speed : 0 ≤ s.max_speed
  telem_m_le : s.telem_m ≤ s.max_speed * MPH_TO_MS * s.drive_s

def SegStats.totals (s : SegStats) : Totals := ⟨s.engaged_m, s.telem_m, s.engaged_s, s.drive_s, s.max_speed⟩

def segment_totals (s : SegData) : Totals :=
  ⟨s.engaged_meters, s.telem_meters, s.engaged_seconds, s.drive_seconds, s.max_speed⟩

def route_totals (r : Aggregates) : Totals :=
  ⟨r.engaged_meters, r.telem_meters, r.engaged_seconds, r.drive_seconds, r.max_speed⟩

/-- Sums, and the maximum of the speeds. -/
def Totals.all (parts : List Totals) : Totals where
  engaged_m := (parts.map Totals.engaged_m).sum
  telem_m := (parts.map Totals.telem_m).sum
  engaged_s := (parts.map Totals.engaged_s).sum
  drive_s := (parts.map Totals.drive_s).sum
  max_speed := (parts.map Totals.max_speed).foldl max 0

/-! ## Each level keeps them physical -/

theorem mph_positive : 0 < MPH_TO_MS := by
  unfold MPH_TO_MS
  norm_num

/-- The speed so far only grows, and distances stay within it. -/
theorem Totals.Physical.faster {s : Totals} (physical : s.Physical) (speed : Rat) :
    Totals.Physical { s with max_speed := max s.max_speed speed } where
  engaged_m := physical.engaged_m
  engaged_m_le := physical.engaged_m_le
  engaged_s := physical.engaged_s
  engaged_s_le := physical.engaged_s_le
  max_speed := physical.max_speed.trans (le_max_left _ _)
  telem_m_le := by
    refine physical.telem_m_le.trans ?_
    have time : 0 ≤ s.drive_s := physical.engaged_s.trans physical.engaged_s_le
    have speeds : s.max_speed * MPH_TO_MS ≤ max s.max_speed speed * MPH_TO_MS :=
      mul_le_mul_of_nonneg_right (le_max_left _ _) mph_positive.le
    exact mul_le_mul_of_nonneg_right speeds time

/-- A gap driven at no more than the maximum speed, engaged or not. -/
theorem Totals.Physical.drive {s : Totals} (physical : s.Physical) {speed dt : Rat} (forward : 0 ≤ speed)
    (later : 0 ≤ dt) (slower : speed ≤ s.max_speed) (engaged : Bool) :
    Totals.Physical
      { s with
        telem_m := s.telem_m + speed * MPH_TO_MS * dt
        drive_s := s.drive_s + dt
        engaged_m := if engaged then s.engaged_m + speed * MPH_TO_MS * dt else s.engaged_m
        engaged_s := if engaged then s.engaged_s + dt else s.engaged_s } := by
  have dist : 0 ≤ speed * MPH_TO_MS * dt := mul_nonneg (mul_nonneg forward mph_positive.le) later
  have within : speed * MPH_TO_MS * dt ≤ s.max_speed * MPH_TO_MS * dt :=
    mul_le_mul_of_nonneg_right (mul_le_mul_of_nonneg_right slower mph_positive.le) later
  obtain ⟨engaged_m, engaged_m_le, engaged_s, engaged_s_le, max_speed, telem_m_le⟩ := physical
  cases engaged with
  | true =>
      refine ⟨?_, ?_, ?_, ?_, max_speed, ?_⟩
      · exact add_nonneg engaged_m dist
      · exact add_le_add_left engaged_m_le _
      · exact add_nonneg engaged_s later
      · exact add_le_add_left engaged_s_le _
      · show s.telem_m + _ ≤ s.max_speed * MPH_TO_MS * (s.drive_s + dt)
        rw [mul_add]
        exact add_le_add telem_m_le within
  | false =>
      refine ⟨engaged_m, ?_, engaged_s, ?_, max_speed, ?_⟩
      · show s.engaged_m ≤ s.telem_m + _
        linarith
      · show s.engaged_s ≤ s.drive_s + dt
        linarith
      · show s.telem_m + _ ≤ s.max_speed * MPH_TO_MS * (s.drive_s + dt)
        rw [mul_add]
        exact add_le_add telem_m_le within

/-- One sample. -/
theorem physical_step {l : StatsLoop} {x : Telem} (physical : l.s.totals.Physical) (forward : 0 ≤ x.speed) :
    (l.step x).s.totals.Physical := by
  have faster := physical.faster x.speed
  have slower : x.speed ≤ max l.s.max_speed x.speed := le_max_right _ _
  unfold StatsLoop.step
  cases before : l.prev with
  | none => exact faster
  | some p =>
      simp only [StatsLoop.interval]
      split
      case isTrue gap => exact faster.drive forward gap.1.le slower x.engaged
      case isFalse apart => exact faster

theorem physical_telemetry {t : List Telem} (forward : ∀ x ∈ t, 0 ≤ x.speed) :
    (telemetry_stats t).totals.Physical := by
  have run : ∀ l : StatsLoop, l.s.totals.Physical → (t.foldl StatsLoop.step l).s.totals.Physical := by
    induction t with
    | nil => exact fun l physical => physical
    | cons x t ih =>
        intro l physical
        have rest := ih fun y member => forward y (List.mem_cons_of_mem _ member)
        exact rest _ (physical_step physical (forward x List.mem_cons_self))
  refine run {} ⟨le_rfl, le_rfl, le_rfl, le_rfl, le_rfl, ?_⟩
  show (0 : Rat) ≤ 0 * MPH_TO_MS * 0
  rw [mul_zero]

theorem le_foldl_max {xs : List Rat} {a x : Rat} (among : x ∈ a :: xs) : x ≤ xs.foldl max a := by
  induction xs generalizing a x with
  | nil => exact (List.mem_singleton.1 among).le
  | cons y ys ih =>
      show x ≤ ys.foldl max (max a y)
      rcases List.mem_cons.1 among with rfl | later
      · exact (le_max_left _ _).trans (ih List.mem_cons_self)
      rcases List.mem_cons.1 later with rfl | later
      · exact (le_max_right _ _).trans (ih List.mem_cons_self)
      · exact ih (List.mem_cons_of_mem _ later)

/-- Adding up. -/
theorem Totals.Physical.all {parts : List Totals} (physical : ∀ s ∈ parts, s.Physical) :
    (Totals.all parts).Physical where
  engaged_m := List.sum_nonneg (by simpa using fun s member => (physical s member).engaged_m)
  engaged_m_le := List.sum_le_sum fun s member => (physical s member).engaged_m_le
  engaged_s := List.sum_nonneg (by simpa using fun s member => (physical s member).engaged_s)
  engaged_s_le := List.sum_le_sum fun s member => (physical s member).engaged_s_le
  max_speed := le_foldl_max List.mem_cons_self
  telem_m_le := by
    let top := (parts.map Totals.max_speed).foldl max 0
    have each : ∀ s ∈ parts, s.telem_m ≤ top * MPH_TO_MS * s.drive_s := by
      intro s member
      obtain ⟨_, _, engaged_s, engaged_s_le, _, telem_m_le⟩ := physical s member
      have slower : s.max_speed ≤ top :=
        le_foldl_max (List.mem_cons_of_mem _ (List.mem_map_of_mem member))
      refine telem_m_le.trans ?_
      exact mul_le_mul_of_nonneg_right (mul_le_mul_of_nonneg_right slower mph_positive.le)
        (engaged_s.trans engaged_s_le)
    calc (parts.map Totals.telem_m).sum
        ≤ (parts.map fun s => top * MPH_TO_MS * s.drive_s).sum := List.sum_le_sum each
      _ = top * MPH_TO_MS * (parts.map Totals.drive_s).sum := List.sum_map_mul_left _ _ _

theorem route_totals_aggregate (segs : List Segment) :
    route_totals (aggregate segs) = Totals.all (segs.map fun s => segment_totals s.data) := by
  simp only [route_totals, aggregate, Totals.all, List.map_map]
  rfl

/-! ## The quotients -/

theorem autonomy_bounds {engaged_m telem_m : Rat} (engaged : 0 ≤ engaged_m) (part : engaged_m ≤ telem_m) :
    0 ≤ autonomy engaged_m telem_m ∧ autonomy engaged_m telem_m ≤ 100 := by
  unfold autonomy
  split
  case isTrue driven =>
    constructor
    · exact div_nonneg (mul_nonneg (by norm_num) engaged) driven.le
    · rw [div_le_iff₀ driven]
      linarith
  case isFalse still => exact ⟨le_rfl, by norm_num⟩

theorem avg_speed_le {s : Totals} (physical : s.Physical) : avg_speed s.telem_m s.drive_s ≤ s.max_speed := by
  unfold avg_speed
  split
  case isTrue driven =>
    have mean : s.telem_m / s.drive_s ≤ s.max_speed * MPH_TO_MS := by
      rw [div_le_iff₀ driven]
      exact physical.telem_m_le
    rw [MPH_PER_MS, mul_one_div, div_le_iff₀ mph_positive]
    exact mean
  case isFalse still => exact physical.max_speed

/-! ## All levels -/

/-- A percentage, and an average within the maximum. -/
structure Plausible (percent mean top : Rat) : Prop where
  autonomy : 0 ≤ percent
  autonomy_le : percent ≤ 100
  avg_speed_le : mean ≤ top

theorem plausible_of_physical {s : Totals} (physical : s.Physical) :
    Plausible (autonomy s.engaged_m s.telem_m) (avg_speed s.telem_m s.drive_s) s.max_speed := by
  obtain ⟨low, high⟩ := autonomy_bounds physical.engaged_m physical.engaged_m_le
  exact ⟨low, high, avg_speed_le physical⟩

/-- The totals of the routes that a user's statistics count. -/
def user_totals (rules : List Rule) (rows : List Aggregates) : Totals :=
  Totals.all ((counted rules rows).map route_totals)

theorem user_stats_quotients (rules : List Rule) (rows : List Aggregates) :
    (user_stats rules rows).autonomy =
        autonomy (user_totals rules rows).engaged_m (user_totals rules rows).telem_m ∧
      (user_stats rules rows).avg_speed =
        avg_speed (user_totals rules rows).telem_m (user_totals rules rows).drive_s ∧
      (user_stats rules rows).max_speed = (user_totals rules rows).max_speed := by
  simp only [user_stats, user_totals, Totals.all, List.map_map]
  exact ⟨rfl, rfl, rfl⟩

/-- Driving statistics stay within physical bounds: a segment's, whatever the times of its
samples; a route's, when its segments' do; and a user's, when the routes' do, whatever the
ignore rules. -/
theorem stats_bounded :
    (∀ t : List Telem, (∀ x ∈ t, 0 ≤ x.speed) → (telemetry_stats t).totals.Physical) ∧
    (∀ segs : List Segment, (∀ s ∈ segs, (segment_totals s.data).Physical) →
      (route_totals (aggregate segs)).Physical) ∧
    (∀ r : Aggregates, (route_totals r).Physical →
      Plausible (drive_stats r).autonomy (drive_stats r).avg_speed (drive_stats r).max_speed) ∧
    ∀ (rules : List Rule) (rows : List Aggregates), (∀ r ∈ rows, (route_totals r).Physical) →
      (user_totals rules rows).Physical ∧
      Plausible (user_stats rules rows).autonomy (user_stats rules rows).avg_speed
        (user_stats rules rows).max_speed := by
  refine ⟨fun t forward => physical_telemetry forward, fun segs each => ?_, fun r physical => ?_,
    fun rules rows each => ?_⟩
  · rw [route_totals_aggregate]
    refine .all fun s member => ?_
    obtain ⟨seg, listed, rfl⟩ := List.mem_map.1 member
    exact each seg listed
  · exact plausible_of_physical physical
  · have physical : (user_totals rules rows).Physical := by
      refine .all fun s member => ?_
      obtain ⟨r, listed, rfl⟩ := List.mem_map.1 member
      exact each r (List.mem_filter.1 listed).1
    obtain ⟨percent, average, top⟩ := user_stats_quotients rules rows
    refine ⟨physical, ?_⟩
    rw [percent, average, top]
    exact plausible_of_physical physical

/-- Two seconds of a drive, the second one engaged, and a sample that goes back in time. -/
private def two_seconds : List Telem :=
  [{ t := 0, speed := 30, engaged := false }, { t := 1, speed := 30, engaged := false },
    { t := 2, speed := 60, engaged := true }, { t := 1, speed := 90, engaged := true }]

theorem stats_bounded_two_seconds : (telemetry_stats two_seconds).totals.Physical ∧
    (telemetry_stats two_seconds).drive_s = 2 ∧
    autonomy (telemetry_stats two_seconds).engaged_m (telemetry_stats two_seconds).telem_m = 200 / 3 :=
  ⟨stats_bounded.1 two_seconds (by decide), by decide +kernel, by decide +kernel⟩

end HomeConnect.Drives
