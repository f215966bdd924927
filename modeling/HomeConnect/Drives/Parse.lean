/-
# Drives.Parse -- the messages of a log, and what they are folded into

`accumulate` takes one message of a qlog into the `Accum` that `parse_and_store` writes
out; `extract_model` collects the model frames of an rlog.  Decompressing a file and
reading its messages is outside the model: a log is the list of the messages whose root
could be read.  A getter that can fail is an `Option`.

`Env.parse` stands for `parse_messages` of the messages decoded from a file, and
`Env.extract_model` for the serialised `extract_model`.
-/
import HomeConnect.Drives.Aggregate
import Mathlib.Algebra.Order.Field.Rat
import Mathlib.Algebra.Order.Field.Basic
import Mathlib.Data.Rat.Cast.Order

namespace HomeConnect.Drives

open HomeConnect.Theory HomeConnect.Storage

set_option autoImplicit false

/-! ## Log time -/

def saturating_sub (a b : UInt64) : UInt64 := if b ≤ a then a - b else 0

def saturating_add (a b : UInt64) : UInt64 := if a ≤ -1 - b then a + b else -1

/-- Seconds since the log time `base`. -/
def clock (base mono : UInt64) : Rat := ((saturating_sub mono base).toNat : Rat) / 1000000000

theorem toNat_saturating_sub (a b : UInt64) : (saturating_sub a b).toNat = a.toNat - b.toNat := by
  unfold saturating_sub
  split
  · rename_i below
    exact UInt64.toNat_sub_of_le _ _ below
  · rename_i above
    have : ¬ b.toNat ≤ a.toNat := fun le => above (UInt64.le_iff_toNat_le.2 le)
    show (0 : UInt64).toNat = _
    simp only [UInt64.toNat_zero]
    omega

theorem le_saturating_add (a b : UInt64) : a ≤ saturating_add a b := by
  unfold saturating_add
  rw [UInt64.le_iff_toNat_le]
  split
  · rename_i fits
    rw [UInt64.le_iff_toNat_le] at fits
    have top : (-1 - b : UInt64).toNat = 2 ^ 64 - 1 - b.toNat := by
      rw [UInt64.toNat_sub_of_le _ _ (UInt64.le_iff_toNat_le.2 _)]
      · rfl
      · have := b.toNat_lt
        show b.toNat ≤ 2 ^ 64 - 1
        omega
    have := b.toNat_lt
    rw [UInt64.toNat_add]
    omega
  · have := a.toNat_lt
    show a.toNat ≤ 2 ^ 64 - 1
    omega

/-- A later time is not shown earlier, and times up to the base are all shown as 0. -/
theorem clock_le_iff (base a b : UInt64) : clock base a ≤ clock base b ↔ a ≤ b ∨ a ≤ base := by
  have positive : (0 : Rat) < 1000000000 := by decide
  have nanos : clock base a ≤ clock base b ↔ a.toNat - base.toNat ≤ b.toNat - base.toNat := by
    unfold clock
    rw [toNat_saturating_sub, toNat_saturating_sub, div_le_div_iff_of_pos_right positive]
    exact Nat.cast_le
  rw [nanos, UInt64.le_iff_toNat_le, UInt64.le_iff_toNat_le]
  omega

/-! ## Messages -/

structure Gps where
  flags : Nat
  has_fix : Bool
  latitude : Rat
  longitude : Rat
  unix_timestamp_millis : Int
  speed : Rat

structure DeviceState where
  max_temp_c : Rat
  free_space_percent : Rat
  memory_usage_percent : Int

/-- The texts of an `initData`; a text that is no UTF-8 is read as empty. -/
structure InitData where
  git_branch : Option Text
  git_commit : Option Text
  git_remote : Option Text
  device_type : Option Text

inductive AlertStatus
  | normal
  | userPrompt
  | critical

structure SelfdriveState where
  enabled : Bool
  engageable : Bool
  alert_status : Option AlertStatus
  /-- Is the alert's size something other than `None`? -/
  alert_shown : Option Bool

structure DriverMonitoringState where
  is_active_mode : Bool
  face_detected : Bool
  is_distracted : Bool
  awareness_status : Rat

structure CarState where
  v_ego : Rat
  /-- The gear by its name. -/
  gear_shifter : Option Text
  left_blinker : Bool
  right_blinker : Bool
  brake_pressed : Bool
  gas_pressed : Bool
  steering_angle_deg : Rat
  steering_pressed : Bool
  cruise_enabled : Option Bool
  fuel_gauge : Rat
  charging : Bool

structure XYZ where
  x : Option (List Rat)
  y : Option (List Rat)
  z : Option (List Rat)

structure Lead where
  prob : Rat
  x : Option (List Rat)
  y : Option (List Rat)
  v : Option (List Rat)

structure ModelV2 where
  position : Option XYZ
  velocity : Option XYZ
  lane_lines : Option (List XYZ)
  lane_line_probs : Option (List Rat)
  road_edges : Option (List XYZ)
  leads_v3 : Option (List Lead)

inductive Which
  | gpsLocationExternal (gps : Gps)
  | gpsLocation (gps : Gps)
  | deviceState (ds : DeviceState)
  | carParams (car_fingerprint : Option Text)
  | initData (id : InitData)
  | selfdriveState (ss : SelfdriveState)
  /-- `mads.active`, when there is a `mads`. -/
  | selfdriveStateSP (active : Option Bool)
  | driverMonitoringState (dm : DriverMonitoringState)
  | carState (cs : CarState)
  | can
  | thumbnail (bytes : Option Bytes)
  | liveCalibration (rpy_calib : Option (List Rat))
  | modelV2 (m : ModelV2)
  | other

/-- A message whose root could be read; `which` is `none` for a kind that is unknown. -/
structure Message where
  mono : UInt64
  which : Option Which

/-! ## accumulate -/

/-- The floating-point functions the parser uses. -/
structure Floats where
  haversine_m : Rat → Rat → Rat → Rat → Rat
  sqrt : Rat → Rat
  /-- `(t * 1000.0) as i64`. -/
  millis : Rat → Int

def Gps.fix (gps : Gps) : Bool := gps.flags % 2 = 1 || gps.has_fix

def alert_level (ss : SelfdriveState) : Int :=
  let status : Int :=
    match ss.alert_status with
    | some .userPrompt => 1
    | some .critical => 2
    | _ => 0
  if ss.alert_shown.getD false && !ss.engageable then max status 1 else status

/-- Close the interval of the last event. -/
def close_last (events : List DriveEvent) (at_millis : Int) : List DriveEvent :=
  match events.getLast? with
  | none => []
  | some e =>
      events.dropLast ++ [{ e with data := { e.data with end_route_offset_millis := some at_millis } }]

/-- A "state" event when the engagement or the alert level changes. -/
def emit_state_change (fl : Floats) (acc : Accum) (t : Rat) (mono : UInt64) : Accum :=
  let engaged := acc.cur_engaged || acc.cur_lat
  let cur := (engaged, acc.cur_alert)
  if acc.last_state = some cur then acc
  else
    let route_offset_millis := fl.millis t
    let data : StateData :=
      { enabled := engaged, lat := acc.cur_lat, long := acc.cur_engaged, alert_status := acc.cur_alert }
    { acc with
      events := close_last acc.events route_offset_millis ++
        [{ kind := "state", time := mono, route_offset_millis, data }]
      last_state := some cur }

def accumulate_gps (fl : Floats) (acc : Accum) (gps : Gps) (t : Rat) : Accum :=
  if gps.fix then
    let fix := (gps.latitude, gps.longitude, gps.unix_timestamp_millis)
    let dist :=
      match acc.last_pt with
      | some (plat, plng) => fl.haversine_m plat plng gps.latitude gps.longitude
      | none => 0
    { acc with
      has_gps := true
      first_gps := some (acc.first_gps.getD fix)
      last_gps := some fix
      total_meters := acc.total_meters + dist
      last_pt := some (gps.latitude, gps.longitude)
      coords := acc.coords ++
        [{ t, lat := gps.latitude, lng := gps.longitude, speed := gps.speed, dist }] }
  else acc

/-- The sample of a `carState`, with what was last heard from the other services. -/
def sample (acc : Accum) (cs : CarState) (t : Rat) : Telem where
  t := t
  speed := cs.v_ego * (2236936 / 1000000)
  gear := cs.gear_shifter.getD "unknown"
  lb := cs.left_blinker
  rb := cs.right_blinker
  brake := cs.brake_pressed
  gas := cs.gas_pressed
  steer := cs.steering_angle_deg
  steer_override := cs.steering_pressed
  engaged := acc.cur_engaged || acc.cur_lat
  lat := acc.cur_lat
  long := acc.cur_engaged
  cruise := cs.cruise_enabled.getD false
  soc := cs.fuel_gauge * 100
  charging := cs.charging
  dm_aware := if acc.cur_dm_active then acc.cur_dm_aware else -1
  dm_distracted := acc.cur_dm_active && acc.cur_dm_distracted
  dm_face := acc.cur_dm_active && acc.cur_dm_face

/-- Downsampled to 4 Hz, and not before the engagement state has been seen. -/
def accumulate_car (acc : Accum) (cs : CarState) (t : Rat) (mono : UInt64) : Accum :=
  if acc.seen_selfdrive && decide (saturating_add acc.last_telem_mono 250000000 ≤ mono) then
    { acc with
      last_telem_mono := mono
      telemetry := acc.telemetry ++ [sample acc cs t] }
  else acc

def accumulate (fl : Floats) (acc : Accum) (which : Which) (mono : UInt64) : Accum :=
  let base := acc.route_base_mono.getD mono
  let acc := { acc with route_base_mono := some base }
  let t := clock base mono
  match which with
  | .gpsLocationExternal gps | .gpsLocation gps => accumulate_gps fl acc gps t
  | .deviceState ds =>
      { acc with
        max_temp := if acc.max_temp < ds.max_temp_c then ds.max_temp_c else acc.max_temp
        min_free := if !acc.has_health || decide (ds.free_space_percent < acc.min_free)
          then ds.free_space_percent else acc.min_free
        max_mem := if acc.max_mem < ds.memory_usage_percent then ds.memory_usage_percent else acc.max_mem
        has_health := true }
  | .carParams fingerprint => { acc with car_fingerprint := fingerprint.getD acc.car_fingerprint }
  | .initData id =>
      { acc with
        git_branch := id.git_branch.getD acc.git_branch
        git_commit := id.git_commit.getD acc.git_commit
        git_remote := id.git_remote.getD acc.git_remote
        device_type := id.device_type.getD acc.device_type }
  | .selfdriveState ss =>
      emit_state_change fl
        { acc with cur_engaged := ss.enabled, seen_selfdrive := true, cur_alert := alert_level ss } t mono
  | .selfdriveStateSP none => acc
  | .selfdriveStateSP (some active) =>
      emit_state_change fl { acc with cur_lat := active, seen_selfdrive := true } t mono
  | .driverMonitoringState dm =>
      { acc with
        cur_dm_active := dm.is_active_mode
        cur_dm_face := dm.face_detected
        cur_dm_distracted := dm.is_distracted
        cur_dm_aware := dm.awareness_status }
  | .carState cs => accumulate_car acc cs t mono
  | .can => { acc with has_can := true }
  | .thumbnail none => acc
  | .thumbnail (some bytes) => { acc with thumbnails := acc.thumbnails ++ [bytes] }
  | .liveCalibration _ | .modelV2 _ | .other => acc

/-- A message of an unknown kind is skipped. -/
def accumulate_message (fl : Floats) (acc : Accum) (m : Message) : Accum :=
  match m.which with
  | none => acc
  | some which => accumulate fl acc which m.mono

/-- The loop of `parse_and_store`. -/
def parse_messages (fl : Floats) (messages : List Message) : Accum :=
  messages.foldl (accumulate_message fl) {}

/-! ## extract_model -/

structure ModelXY where
  x : List Rat := []
  y : List Rat := []
  z : List Rat := []

structure ModelLead where
  x : Rat
  y : Rat
  v : Rat

structure ModelFrame where
  t : Rat
  path : ModelXY
  speed : List Rat
  lanes : List ModelXY
  edges : List ModelXY
  lead : Option ModelLead

structure ModelArtifact where
  rpy : Rat × Rat × Rat := (0, 0, 0)
  frames : List ModelFrame := []

def FRAME_STEP : Nat := 4
def PT_STEP : Nat := 3

/-- Every `step`-th element, from the first on. -/
def step_by {α : Type} (step : Nat) (l : List α) : List α :=
  (l.zipIdx.filter fun p => p.2 % step = 0).map Prod.fst

def flist (r : Option (List Rat)) (step : Nat) : List Rat := step_by (max step 1) (r.getD [])

def xy (d : XYZ) (step : Nat) : ModelXY where
  x := flist d.x step
  y := flist d.y step
  z := flist d.z step

def speed_norm (fl : Floats) (d : XYZ) (step : Nat) : List Rat :=
  ((flist d.x step).zip ((flist d.y step).zip (flist d.z step))).map fun p =>
    fl.sqrt (p.1 * p.1 + p.2.1 * p.2.1 + p.2.2 * p.2.2)

def lead_of (m : ModelV2) : Option ModelLead := do
  let l ← (← m.leads_v3).head?
  if l.prob < 1 / 2 then none
  else
    let first (r : Option (List Rat)) : Option Rat := r.bind List.head?
    let x ← first l.x
    some { x, y := (first l.y).getD 0, v := (first l.v).getD 0 }

/-- The lane lines that are probable enough. -/
def lanes_of (m : ModelV2) : List ModelXY :=
  let prob (j : Nat) : Rat := (m.lane_line_probs.bind fun p => p[j]?).getD 1
  (((m.lane_lines.getD []).zipIdx.filter fun p => 1 / 4 < prob p.2).map Prod.fst).map fun ll => xy ll PT_STEP

def frame (fl : Floats) (m : ModelV2) (t : Rat) : ModelFrame where
  t := t
  path := (m.position.map fun p => xy p PT_STEP).getD {}
  speed := (m.velocity.map fun v => speed_norm fl v PT_STEP).getD []
  lanes := lanes_of m
  edges := (m.road_edges.getD []).map fun re => xy re PT_STEP
  lead := lead_of m

/-- The loop variables of `extract_model`. -/
structure ModelLoop where
  base : Option UInt64 := none
  frames : List ModelFrame := []
  rpy : Rat × Rat × Rat := (0, 0, 0)
  idx : Nat := 0

def ModelLoop.step (fl : Floats) (l : ModelLoop) (m : Message) : ModelLoop :=
  let b := l.base.getD m.mono
  let l := { l with base := some b }
  match m.which with
  | some (.liveCalibration (some (r :: p :: y :: _))) => { l with rpy := (r, p, y) }
  | some (.modelV2 v2) =>
      let idx := l.idx + 1
      if idx % FRAME_STEP ≠ 0 then { l with idx }
      else { l with idx, frames := l.frames ++ [frame fl v2 (clock b m.mono)] }
  | _ => l

def extract_model (fl : Floats) (messages : List Message) : ModelArtifact :=
  let l := messages.foldl (ModelLoop.step fl) {}
  { rpy := l.rpy, frames := l.frames }

end HomeConnect.Drives
