/-
# Drives.Cut -- a log that breaks off

The car is switched off, or the device crashes, and the qlog of the last segment ends in the
middle; the parser takes the messages there are.  What more messages would have done to the
accumulator is to add to it (`Extends`): the series go on where they broke off, an event that
is over stays as it is, and sums and extremes only grow.

So a drive with logs that break off is shown with no more than it had: no longer, no faster and
with no more disengagements or hard brakings, segment by segment and as a whole
(`cut_logs_never_overstate`).
-/
import HomeConnect.Drives.Parse
import HomeConnect.Drives.Stats

namespace HomeConnect.Drives

open HomeConnect.Theory HomeConnect.Storage

set_option autoImplicit false

/-! ## One message more -/

/-- An event as it was when it began. -/
def DriveEvent.opened (e : DriveEvent) : DriveEvent :=
  { e with data := { e.data with end_route_offset_millis := none } }

/-- What more messages do to the accumulator. -/
structure Extends (a b : Accum) : Prop where
  coords : a.coords <+: b.coords
  telemetry : a.telemetry <+: b.telemetry
  thumbnails : a.thumbnails <+: b.thumbnails
  /-- Of the events, only the end of the last one is still open. -/
  events : a.events.map DriveEvent.opened <+: b.events.map DriveEvent.opened
  ended : a.events.dropLast <+: b.events
  total_meters : a.total_meters ≤ b.total_meters
  first_gps : ∀ g, a.first_gps = some g → b.first_gps = some g
  route_base_mono : ∀ m, a.route_base_mono = some m → b.route_base_mono = some m
  has_gps : a.has_gps → b.has_gps
  has_can : a.has_can → b.has_can
  max_temp : a.max_temp ≤ b.max_temp
  max_mem : a.max_mem ≤ b.max_mem
  health : a.has_health → b.has_health ∧ b.min_free ≤ a.min_free

namespace Extends

variable {a b c : Accum}

theorem refl (a : Accum) : Extends a a :=
  ⟨List.prefix_refl _, List.prefix_refl _, List.prefix_refl _, List.prefix_refl _, List.dropLast_prefix _,
    le_rfl, fun _ => id, fun _ => id, id, id, le_rfl, le_rfl, fun known => ⟨known, le_rfl⟩⟩

theorem trans (first : Extends a b) (second : Extends b c) : Extends a c where
  coords := first.coords.trans second.coords
  telemetry := first.telemetry.trans second.telemetry
  thumbnails := first.thumbnails.trans second.thumbnails
  events := first.events.trans second.events
  ended := by
    cases some_event : a.events with
    | nil => exact List.nil_prefix
    | cons e rest =>
        -- what is over in `a` is over in `b`, where there are no fewer events
        have fewer : a.events.length ≤ b.events.length := by
          simpa using first.events.length_le
        have closed : a.events.dropLast <+: b.events.dropLast := by
          apply List.prefix_of_prefix_length_le first.ended (List.dropLast_prefix _)
          simp only [List.length_dropLast]
          omega
        rw [← some_event]
        exact closed.trans second.ended
  total_meters := first.total_meters.trans second.total_meters
  first_gps g is := second.first_gps g (first.first_gps g is)
  route_base_mono m is := second.route_base_mono m (first.route_base_mono m is)
  has_gps known := second.has_gps (first.has_gps known)
  has_can known := second.has_can (first.has_can known)
  max_temp := first.max_temp.trans second.max_temp
  max_mem := first.max_mem.trans second.max_mem
  health known := by
    obtain ⟨there, less⟩ := first.health known
    obtain ⟨there', less'⟩ := second.health there
    exact ⟨there', less'.trans less⟩

end Extends

section Message

variable {fl : Floats} {acc : Accum}

theorem opened_close_last (events : List DriveEvent) (t : Int) :
    (close_last events t).map DriveEvent.opened = events.map DriveEvent.opened := by
  unfold close_last
  cases last : events.getLast? with
  | none =>
      rw [List.getLast?_eq_none_iff] at last
      rw [last]
  | some e =>
      have split : events = events.dropLast ++ [e] := (List.dropLast_append_getLast? e last).symm
      conv_rhs => rw [split]
      rw [List.map_append, List.map_append]
      rfl

theorem dropLast_close_last (events : List DriveEvent) (t : Int) :
    events.dropLast <+: close_last events t := by
  unfold close_last
  cases last : events.getLast? with
  | none =>
      rw [List.getLast?_eq_none_iff] at last
      rw [last]
      exact List.nil_prefix
  | some e => exact List.prefix_append _ _

theorem extends_state_change (t : Rat) (mono : UInt64) : Extends acc (emit_state_change fl acc t mono) := by
  unfold emit_state_change
  dsimp only
  split
  · exact .refl acc
  · refine { Extends.refl acc with events := ?_, ended := ?_ }
    · dsimp only
      rw [List.map_append, opened_close_last]
      exact List.prefix_append _ _
    · exact (dropLast_close_last _ _).trans (List.prefix_append _ _)

/-- Distances are not negative. -/
def Floats.Forward (fl : Floats) : Prop := ∀ a b c d, 0 ≤ fl.haversine_m a b c d

theorem extends_gps (distances : fl.Forward) (gps : Gps) (t : Rat) :
    Extends acc (accumulate_gps fl acc gps t) := by
  unfold accumulate_gps
  split
  · refine { Extends.refl acc with
      coords := List.prefix_append _ _, total_meters := ?_, first_gps := ?_, has_gps := fun _ => rfl }
    · dsimp only
      cases acc.last_pt with
      | none => simp
      | some p => simpa using distances _ _ _ _
    · intro g is
      simp [is]
  · exact .refl acc

theorem extends_car (cs : CarState) (t : Rat) (mono : UInt64) : Extends acc (accumulate_car acc cs t mono) := by
  unfold accumulate_car
  split
  · exact { Extends.refl acc with telemetry := List.prefix_append _ _ }
  · exact .refl acc

/-- Every message only adds. -/
theorem extends_accumulate (distances : fl.Forward) (which : Which) (mono : UInt64) :
    Extends acc (accumulate fl acc which mono) := by
  let base := acc.route_base_mono.getD mono
  have started : Extends acc { acc with route_base_mono := some base } :=
    { Extends.refl acc with
      route_base_mono := by
        intro m is
        simp [base, is] }
  apply started.trans
  unfold accumulate
  dsimp only
  cases which with
  | gpsLocationExternal gps => exact extends_gps distances gps _
  | gpsLocation gps => exact extends_gps distances gps _
  | deviceState ds =>
      refine { Extends.refl _ with max_temp := ?_, max_mem := ?_, health := ?_ }
      · dsimp only
        split
        · rename_i hotter
          exact hotter.le
        · exact le_rfl
      · dsimp only
        split
        · omega
        · exact le_rfl
      · intro known
        refine ⟨rfl, ?_⟩
        dsimp only at known ⊢
        split
        · rename_i less
          simp only [known, Bool.not_true, Bool.false_or, decide_eq_true_eq] at less
          exact less.le
        · exact le_rfl
  | carParams fingerprint => exact { Extends.refl _ with }
  | initData id => exact { Extends.refl _ with }
  | selfdriveState ss =>
      refine .trans ?_ (extends_state_change _ mono)
      exact { Extends.refl _ with }
  | selfdriveStateSP active =>
      cases active with
      | none => exact .refl _
      | some active =>
          refine .trans ?_ (extends_state_change _ mono)
          exact { Extends.refl _ with }
  | driverMonitoringState dm => exact { Extends.refl _ with }
  | carState cs => exact extends_car cs _ mono
  | can => exact { Extends.refl _ with has_can := fun _ => rfl }
  | thumbnail bytes =>
      cases bytes with
      | none => exact .refl _
      | some bytes => exact { Extends.refl _ with thumbnails := List.prefix_append _ _ }
  | liveCalibration rpy => exact .refl _
  | modelV2 m => exact .refl _
  | other => exact .refl _

theorem extends_message (distances : fl.Forward) (m : Message) : Extends acc (accumulate_message fl acc m) := by
  unfold accumulate_message
  cases m.which with
  | none => exact .refl acc
  | some which => exact extends_accumulate distances which m.mono

theorem extends_messages (distances : fl.Forward) (messages : List Message) :
    Extends acc (messages.foldl (accumulate_message fl) acc) := by
  induction messages generalizing acc with
  | nil => exact .refl acc
  | cons m messages ih => exact (extends_message distances m).trans ih

theorem extends_parse (distances : fl.Forward) (kept lost : List Message) :
    Extends (parse_messages fl kept) (parse_messages fl (kept ++ lost)) := by
  unfold parse_messages
  rw [List.foldl_append]
  exact extends_messages distances lost

end Message

/-! ## Statistics -/

/-- No statistic is larger. -/
structure SegStats.AtMost (s s' : SegStats) : Prop where
  engaged_m : s.engaged_m ≤ s'.engaged_m
  telem_m : s.telem_m ≤ s'.telem_m
  engaged_s : s.engaged_s ≤ s'.engaged_s
  drive_s : s.drive_s ≤ s'.drive_s
  max_speed : s.max_speed ≤ s'.max_speed
  disengage : s.disengage ≤ s'.disengage
  hard_brake : s.hard_brake ≤ s'.hard_brake
  hard_accel : s.hard_accel ≤ s'.hard_accel

namespace SegStats.AtMost

theorem refl (s : SegStats) : s.AtMost s :=
  ⟨le_rfl, le_rfl, le_rfl, le_rfl, le_rfl, le_rfl, le_rfl, le_rfl⟩

theorem trans {s s' s'' : SegStats} (first : s.AtMost s') (second : s'.AtMost s'') : s.AtMost s'' :=
  ⟨first.engaged_m.trans second.engaged_m, first.telem_m.trans second.telem_m,
    first.engaged_s.trans second.engaged_s, first.drive_s.trans second.drive_s,
    first.max_speed.trans second.max_speed, first.disengage.trans second.disengage,
    first.hard_brake.trans second.hard_brake, first.hard_accel.trans second.hard_accel⟩

end SegStats.AtMost

theorem atMost_interval (l : StatsLoop) (p : Telem) {x : Telem} (forward : 0 ≤ x.speed) :
    l.s.AtMost (l.interval p x).s := by
  unfold StatsLoop.interval
  dsimp only
  split
  case isTrue gap =>
    have dist : 0 ≤ x.speed * MPH_TO_MS * (x.t - p.t) :=
      mul_nonneg (mul_nonneg forward mph_positive.le) gap.1.le
    refine ⟨?_, ?_, ?_, ?_, le_rfl, le_rfl, ?_, ?_⟩
    · dsimp only
      split <;> linarith
    · dsimp only
      linarith
    · dsimp only
      split <;> linarith
    · dsimp only
      linarith
    · dsimp only
      split <;> omega
    · dsimp only
      split <;> omega
  case isFalse apart => exact .refl _

theorem atMost_step (l : StatsLoop) {x : Telem} (forward : 0 ≤ x.speed) : l.s.AtMost (l.step x).s := by
  have faster : l.s.AtMost { l.s with max_speed := max l.s.max_speed x.speed } :=
    { SegStats.AtMost.refl l.s with max_speed := le_max_left _ _ }
  apply faster.trans
  unfold StatsLoop.step
  dsimp only
  split
  · exact .refl _
  · apply (atMost_interval { l with s := { l.s with max_speed := max l.s.max_speed x.speed } } _ forward).trans
    refine ⟨le_rfl, le_rfl, le_rfl, le_rfl, le_rfl, ?_, le_rfl, le_rfl⟩
    dsimp only
    split <;> omega

/-- The statistics of a series that goes on. -/
theorem atMost_telemetry {t t' : List Telem} (goes_on : t <+: t') (forward : ∀ x ∈ t', 0 ≤ x.speed) :
    (telemetry_stats t).AtMost (telemetry_stats t') := by
  obtain ⟨more, rfl⟩ := goes_on
  unfold telemetry_stats
  rw [List.foldl_append]
  have run : ∀ (xs : List Telem) (l : StatsLoop), (∀ x ∈ xs, 0 ≤ x.speed) →
      l.s.AtMost (xs.foldl StatsLoop.step l).s := by
    intro xs
    induction xs with
    | nil => exact fun l _ => .refl l.s
    | cons x xs ih =>
        intro l forward
        rw [List.forall_mem_cons] at forward
        exact (atMost_step l forward.1).trans (ih (l.step x) forward.2)
  exact run more _ fun x member => forward x (List.mem_append_right _ member)

/-- The car is not heard to move backwards. -/
def Forward (messages : List Message) : Prop :=
  ∀ m ∈ messages, ∀ cs, m.which = some (.carState cs) → 0 ≤ cs.v_ego

theorem forward_message {fl : Floats} {acc : Accum} {m : Message}
    (moves : ∀ cs, m.which = some (.carState cs) → 0 ≤ cs.v_ego) (so_far : ∀ x ∈ acc.telemetry, 0 ≤ x.speed) :
    ∀ x ∈ (accumulate_message fl acc m).telemetry, 0 ≤ x.speed := by
  unfold accumulate_message
  cases which : m.which with
  | none => exact so_far
  | some which' =>
      dsimp only
      unfold accumulate
      dsimp only
      cases which' with
      | carState cs =>
          dsimp only [accumulate_car]
          split
          · intro x member
            rcases List.mem_append.1 member with old | new
            · exact so_far x old
            · rw [List.mem_singleton.1 new]
              exact mul_nonneg (moves cs which) (by norm_num)
          · exact so_far
      | gpsLocationExternal gps =>
          dsimp only [accumulate_gps]
          split <;> exact so_far
      | gpsLocation gps =>
          dsimp only [accumulate_gps]
          split <;> exact so_far
      | selfdriveState ss =>
          dsimp only [emit_state_change]
          split <;> exact so_far
      | selfdriveStateSP active =>
          cases active with
          | none => exact so_far
          | some active =>
              dsimp only [emit_state_change]
              split <;> exact so_far
      | thumbnail bytes => cases bytes <;> exact so_far
      | _ => exact so_far

theorem forward_parse {fl : Floats} {messages : List Message} (moves : Forward messages) :
    ∀ x ∈ (parse_messages fl messages).telemetry, 0 ≤ x.speed := by
  have run : ∀ acc : Accum, (∀ x ∈ acc.telemetry, 0 ≤ x.speed) →
      ∀ x ∈ (messages.foldl (accumulate_message fl) acc).telemetry, 0 ≤ x.speed := by
    induction messages with
    | nil => exact fun acc so_far => so_far
    | cons m messages ih =>
        intro acc so_far
        rw [Forward, List.forall_mem_cons] at moves
        exact ih moves.2 _ (forward_message moves.1 so_far)
  exact run {} fun x member => nomatch member

/-! ## A segment, and a route -/

/-- No sum and no maximum of a segment is larger. -/
structure DataAtMost (d d' : SegData) : Prop where
  miles : d.miles ≤ d'.miles
  engaged_meters : d.engaged_meters ≤ d'.engaged_meters
  telem_meters : d.telem_meters ≤ d'.telem_meters
  engaged_seconds : d.engaged_seconds ≤ d'.engaged_seconds
  drive_seconds : d.drive_seconds ≤ d'.drive_seconds
  max_speed : d.max_speed ≤ d'.max_speed
  disengage_count : d.disengage_count ≤ d'.disengage_count
  hard_brake_count : d.hard_brake_count ≤ d'.hard_brake_count
  hard_accel_count : d.hard_accel_count ≤ d'.hard_accel_count
  max_temp : d.max_temp ≤ d'.max_temp
  max_mem : d.max_mem ≤ d'.max_mem

theorem Extends.data {a b : Accum} (goes_on : Extends a b) (forward : ∀ x ∈ b.telemetry, 0 ≤ x.speed) :
    DataAtMost a.data b.data := by
  obtain ⟨engaged_m, telem_m, engaged_s, drive_s, max_speed, disengage, hard_brake, hard_accel⟩ :=
    atMost_telemetry goes_on.telemetry forward
  have mile : (0 : Rat) ≤ METERS_PER_MILE := by
    unfold METERS_PER_MILE
    norm_num
  exact ⟨div_le_div_of_nonneg_right goes_on.total_meters mile, engaged_m, telem_m, engaged_s, drive_s,
    max_speed, disengage, hard_brake, hard_accel, goes_on.max_temp, goes_on.max_mem⟩

/-- No total and no maximum of a route is larger. -/
structure RouteAtMost (r r' : Aggregates) : Prop where
  length : r.length ≤ r'.length
  engaged_meters : r.engaged_meters ≤ r'.engaged_meters
  telem_meters : r.telem_meters ≤ r'.telem_meters
  engaged_seconds : r.engaged_seconds ≤ r'.engaged_seconds
  drive_seconds : r.drive_seconds ≤ r'.drive_seconds
  max_speed : r.max_speed ≤ r'.max_speed
  disengage_count : r.disengage_count ≤ r'.disengage_count
  hard_brake_count : r.hard_brake_count ≤ r'.hard_brake_count
  hard_accel_count : r.hard_accel_count ≤ r'.hard_accel_count
  max_temp : r.max_temp ≤ r'.max_temp
  max_mem : r.max_mem ≤ r'.max_mem

theorem foldl_max_le {ι κ : Type} [LinearOrder κ] {f g : ι → κ} {l : List ι} (each : ∀ i ∈ l, f i ≤ g i)
    {a b : κ} (start : a ≤ b) : (l.map f).foldl max a ≤ (l.map g).foldl max b := by
  induction l generalizing a b with
  | nil => exact start
  | cons i l ih =>
      rw [List.forall_mem_cons] at each
      exact ih each.2 (max_le_max start each.1)

theorem max_mem_le {ι : Type} {f g : ι → Int} {l : List ι} (each : ∀ i ∈ l, f i ≤ g i) :
    ((l.map f).max?).getD 0 ≤ ((l.map g).max?).getD 0 := by
  cases l with
  | nil => exact le_rfl
  | cons i l =>
      rw [List.forall_mem_cons] at each
      simp only [List.map_cons, List.max?_cons', Option.getD_some]
      exact foldl_max_le each.2 each.1

/-- A route's row is no larger when none of its segments' is. -/
theorem routeAtMost_aggregate {ι : Type} {rows rows' : ι → Segment} {segs : List ι}
    (each : ∀ i ∈ segs, DataAtMost (rows i).data (rows' i).data) :
    RouteAtMost (aggregate (segs.map rows)) (aggregate (segs.map rows')) := by
  refine ⟨?_, ?_, ?_, ?_, ?_, ?_, ?_, ?_, ?_, ?_, ?_⟩ <;> simp only [aggregate, List.map_map]
  · exact List.sum_le_sum fun i member => (each i member).miles
  · exact List.sum_le_sum fun i member => (each i member).engaged_meters
  · exact List.sum_le_sum fun i member => (each i member).telem_meters
  · exact List.sum_le_sum fun i member => (each i member).engaged_seconds
  · exact List.sum_le_sum fun i member => (each i member).drive_seconds
  · exact foldl_max_le (fun i member => (each i member).max_speed) le_rfl
  · exact List.sum_le_sum fun i member => (each i member).disengage_count
  · exact List.sum_le_sum fun i member => (each i member).hard_brake_count
  · exact List.sum_le_sum fun i member => (each i member).hard_accel_count
  · exact foldl_max_le (fun i member => (each i member).max_temp) le_rfl
  · exact max_mem_le fun i member => (each i member).max_mem

/-! ## Model frames -/

theorem frames_message (fl : Floats) (l : ModelLoop) (m : Message) : l.frames <+: (l.step fl m).frames := by
  unfold ModelLoop.step
  dsimp only
  split
  · exact List.prefix_refl _
  · split
    · exact List.prefix_refl _
    · exact List.prefix_append _ _
  · exact List.prefix_refl _

theorem frames_extract (fl : Floats) (kept lost : List Message) :
    (extract_model fl kept).frames <+: (extract_model fl (kept ++ lost)).frames := by
  have run : ∀ (messages : List Message) (l : ModelLoop),
      l.frames <+: (messages.foldl (ModelLoop.step fl) l).frames := by
    intro messages
    induction messages with
    | nil => exact fun l => List.prefix_refl _
    | cons m messages ih => exact fun l => (frames_message fl l m).trans (ih (l.step fl m))
  unfold extract_model
  dsimp only
  rw [List.foldl_append]
  exact run lost _

/-! ## Logs that break off -/

/-- A segment and its log: what there is of it, and what was lost. -/
structure CutLog where
  segment : Segment
  kept : List Message
  lost : List Message

/-- The row of the segment, with what was parsed. -/
def CutLog.row (fl : Floats) (log : CutLog) (messages : List Message) : Segment :=
  { log.segment with data := (parse_messages fl messages).data }

/-- **A drive whose logs break off is never overstated.**  Whatever was lost of whichever logs,
what is parsed of each is the beginning of what the whole log would have given, and neither a
segment's nor the route's totals and maxima are larger than they would have been. -/
theorem cut_logs_never_overstate (fl : Floats) (distances : fl.Forward) (logs : List CutLog)
    (forward : ∀ log ∈ logs, Forward (log.kept ++ log.lost)) :
    (∀ log ∈ logs,
      Extends (parse_messages fl log.kept) (parse_messages fl (log.kept ++ log.lost)) ∧
      (extract_model fl log.kept).frames <+: (extract_model fl (log.kept ++ log.lost)).frames ∧
      DataAtMost (log.row fl log.kept).data (log.row fl (log.kept ++ log.lost)).data) ∧
    RouteAtMost (aggregate (logs.map fun log => log.row fl log.kept))
      (aggregate (logs.map fun log => log.row fl (log.kept ++ log.lost))) := by
  have each : ∀ log ∈ logs,
      DataAtMost (log.row fl log.kept).data (log.row fl (log.kept ++ log.lost)).data :=
    fun log member => (extends_parse distances log.kept log.lost).data (forward_parse (forward log member))
  refine ⟨fun log member => ⟨?_, ?_, each log member⟩, routeAtMost_aggregate each⟩
  · exact extends_parse distances log.kept log.lost
  · exact frames_extract fl log.kept log.lost

/-! ## Poles -/

private def plain_floats : Floats :=
  ⟨fun a b c d => max (a - c) (c - a) + max (b - d) (d - b), id, fun t => (t * 1000).floor⟩

private def fix_north (mono : UInt64) (latitude : Rat) : Message :=
  ⟨mono, some (.gpsLocation ⟨1, true, latitude, 0, 0, 0⟩)⟩

/-- The device dies after the first of two fixes, and the car seems not to have moved. -/
theorem cut_logs_never_overstate_one_fix :
    let log : CutLog := ⟨{ canonical_name := "d|t--0", canonical_route_name := "d|t", number := 0 },
      [fix_north 0 1], [fix_north 1000000000 2]⟩
    RouteAtMost (aggregate [log.row plain_floats log.kept])
        (aggregate [log.row plain_floats (log.kept ++ log.lost)]) ∧
      (parse_messages plain_floats log.kept).total_meters = 0 ∧
      (parse_messages plain_floats (log.kept ++ log.lost)).total_meters = 1 := by
  intro log
  refine ⟨(cut_logs_never_overstate plain_floats ?_ [log] ?_).2, by decide +kernel, by decide +kernel⟩
  · intro a b c d
    have lat : 0 ≤ max (a - c) (c - a) := by
      rcases le_total a c with less | more
      · exact le_max_of_le_right (by linarith)
      · exact le_max_of_le_left (by linarith)
    have lng : 0 ≤ max (b - d) (d - b) := by
      rcases le_total b d with less | more
      · exact le_max_of_le_right (by linarith)
      · exact le_max_of_le_left (by linarith)
    exact add_nonneg lat lng
  · intro l member m inside cs is
    rw [List.mem_singleton.1 member] at inside
    have either : m = fix_north 0 1 ∨ m = fix_north 1000000000 2 := by simpa [log] using inside
    rcases either with rfl | rfl <;> cases is

end HomeConnect.Drives
