/-
# Drives.Aggregate -- what a parsed qlog becomes, and what a route sums up

The pure parts of the parser: the statistics of one segment's telemetry
(`telemetry_stats`), the columns `upsert_segment` binds (`Accum.data`), and the
aggregation of a route's segment rows (`aggregate`).  Decoding a log into an `Accum`,
the JSON and JPEG encoders and the model extraction are parameters (`Env`): nothing
proved over this module depends on what they compute.
-/
import HomeConnect.Storage.World

namespace HomeConnect.Drives

open HomeConnect.Theory HomeConnect.Storage

set_option autoImplicit false

/-! ## A parsed qlog -/

structure Coord where
  t : Rat
  lat : Rat
  lng : Rat
  speed : Rat
  dist : Rat
deriving DecidableEq, Repr

/-- The `data` object of a "state" event; `"state"` in it is `enabled` in words. -/
structure StateData where
  enabled : Bool
  lat : Bool
  long : Bool
  alert_status : Int
  end_route_offset_millis : Option Int := none
deriving DecidableEq, Repr

structure DriveEvent where
  kind : Text
  /-- Log mono time, ns. -/
  time : UInt64
  route_offset_millis : Int
  data : StateData
deriving DecidableEq, Repr

/-- A telemetry sample, synced to the video by `t`. -/
structure Telem where
  t : Rat
  speed : Rat
  gear : Text := "unknown"
  lb : Bool := false
  rb : Bool := false
  brake : Bool := false
  gas : Bool := false
  steer : Rat := 0
  steer_override : Bool := false
  engaged : Bool
  lat : Bool := false
  long : Bool := false
  cruise : Bool := false
  soc : Rat := 0
  charging : Bool := false
  dm_aware : Rat := -1
  dm_distracted : Bool := false
  dm_face : Bool := false
deriving DecidableEq, Repr

structure Accum where
  coords : List Coord := []
  events : List DriveEvent := []
  telemetry : List Telem := []
  last_telem_mono : UInt64 := 0
  thumbnails : List Bytes := []
  total_meters : Rat := 0
  /-- lat, lng, unix ms -/
  first_gps : Option (Rat × Rat × Int) := none
  last_gps : Option (Rat × Rat × Int) := none
  route_base_mono : Option UInt64 := none
  last_pt : Option (Rat × Rat) := none
  car_fingerprint : Text := []
  git_remote : Text := []
  git_branch : Text := []
  git_commit : Text := []
  device_type : Text := []
  has_can : Bool := false
  has_gps : Bool := false
  cur_engaged : Bool := false
  cur_lat : Bool := false
  cur_alert : Int := 0
  cur_dm_active : Bool := false
  cur_dm_face : Bool := false
  cur_dm_distracted : Bool := false
  cur_dm_aware : Rat := 0
  /-- Has the engagement state been read yet? -/
  seen_selfdrive : Bool := false
  max_temp : Rat := 0
  min_free : Rat := 0
  max_mem : Int := 0
  has_health : Bool := false
  last_state : Option (Bool × Int) := none
deriving DecidableEq, Repr

/-- The configuration, and the code outside the model: a hash, the log decoder with the
fold over its messages, and the encoders. -/
structure Env where
  public_url : Text
  /-- Defaults of the runtime toggles. -/
  sync_fullres : Bool := false
  device_autoprune : Bool := false
  movie_enabled : Bool := true
  subs_enabled : Bool := false
  whisper_url : Text := []
  /-- The GPU to encode on; `none` is the CPU. -/
  vaapi_device : Option Text := none
  /-- The first two pairs of hex digits of a key's sha256. -/
  shard : Text → Text × Text
  /-- Decompress a qlog and fold its messages. -/
  parse : Text → Bytes → AppResult Accum
  coords_json : List Coord → Bytes
  events_json : List DriveEvent → Bytes
  telemetry_json : List Telem → Bytes
  build_sprite : List Bytes → Option Bytes
  /-- The cues of the chunks' transcripts on one timeline, and how many there are. -/
  render_vtt : List Bytes → Bytes × Nat := fun _ => ([], 0)
  /-- The `model.json` of an rlog; `none` when it has no model frame. -/
  extract_model : Text → Bytes → Option Bytes

def Env.path (env : Env) (name : BlobName) : BlobPath := path_for env.shard name.key

/-! ## Statistics of one segment -/

structure SegStats where
  engaged_m : Rat := 0
  telem_m : Rat := 0
  engaged_s : Rat := 0
  drive_s : Rat := 0
  max_speed : Rat := 0
  disengage : Int := 0
  hard_brake : Int := 0
  hard_accel : Int := 0
deriving DecidableEq, Repr

def MPH_TO_MS : Rat := 44704 / 100000
def HARD_BRAKE_MS2 : Rat := -3
def HARD_ACCEL_MS2 : Rat := 5 / 2
def METERS_PER_MILE : Rat := 1609344 / 1000

/-- The loop variables of `telemetry_stats`: the statistics so far, the previous sample,
and whether a hard brake or acceleration is going on. -/
structure StatsLoop where
  s : SegStats := {}
  prev : Option Telem := none
  in_brake : Bool := false
  in_accel : Bool := false

/-- Distance, time and rising edges between two samples less than 2 s apart. -/
def StatsLoop.interval (l : StatsLoop) (p x : Telem) : StatsLoop :=
  let dt := x.t - p.t
  if 0 < dt ∧ dt < 2 then
    let v := x.speed * MPH_TO_MS
    let dist := v * dt
    let a := (v - p.speed * MPH_TO_MS) / dt
    let brake : Bool := a ≤ HARD_BRAKE_MS2
    let accel : Bool := HARD_ACCEL_MS2 ≤ a
    { l with
      s := { l.s with
        telem_m := l.s.telem_m + dist
        drive_s := l.s.drive_s + dt
        engaged_m := if x.engaged then l.s.engaged_m + dist else l.s.engaged_m
        engaged_s := if x.engaged then l.s.engaged_s + dt else l.s.engaged_s
        hard_brake := if brake && !l.in_brake then l.s.hard_brake + 1 else l.s.hard_brake
        hard_accel := if accel && !l.in_accel then l.s.hard_accel + 1 else l.s.hard_accel }
      in_brake := brake
      in_accel := accel }
  else l

def StatsLoop.step (l : StatsLoop) (x : Telem) : StatsLoop :=
  let l := { l with s := { l.s with max_speed := max l.s.max_speed x.speed } }
  match l.prev with
  | none => { l with prev := some x }
  | some p =>
      let l := l.interval p x
      let dis := if p.engaged && !x.engaged then l.s.disengage + 1 else l.s.disengage
      { l with s := { l.s with disengage := dis }, prev := some x }

def telemetry_stats (t : List Telem) : SegStats := (t.foldl StatsLoop.step {}).s

/-- The columns `upsert_segment` binds. -/
def Accum.data (acc : Accum) : SegData :=
  let first := acc.first_gps.getD (0, 0, 0)
  let last := acc.last_gps.getD (0, 0, 0)
  let st := telemetry_stats acc.telemetry
  { start_lat := first.1
    start_lng := first.2.1
    start_time_utc_millis := first.2.2
    end_lat := last.1
    end_lng := last.2.1
    end_time_utc_millis := last.2.2
    miles := acc.total_meters / METERS_PER_MILE
    engaged_meters := st.engaged_m
    telem_meters := st.telem_m
    engaged_seconds := st.engaged_s
    drive_seconds := st.drive_s
    max_speed := st.max_speed
    disengage_count := st.disengage
    hard_brake_count := st.hard_brake
    hard_accel_count := st.hard_accel
    max_temp := acc.max_temp
    min_free := if acc.has_health then acc.min_free else -1
    max_mem := acc.max_mem }

/-! ## The aggregation of a route -/

/-- `f64::MAX`. -/
def F64_MAX : Rat := ((2 ^ 1024 - 2 ^ 971 : Int) : Rat)

/-- The largest number of a segment with the property, `-1` without one. -/
def max_of (pred : Segment → Bool) (segs : List Segment) : Int :=
  (((segs.filter pred).map Segment.number).max?).getD (-1)

def min_free_of (segs : List Segment) : Rat :=
  let least := ((segs.map fun s => s.data.min_free).filter fun f => decide (0 ≤ f)).foldl min F64_MAX
  if least = F64_MAX then -1 else least

/-- What `recompute_route` computes from the selected rows. -/
def aggregate (segs : List Segment) : Aggregates :=
  let first := (segs.find? fun s => decide (s.data.start_time_utc_millis ≠ 0)).map Segment.data
  let last := (segs.reverse.find? fun s => decide (s.data.end_time_utc_millis ≠ 0)).map Segment.data
  { start_time_utc_millis := (first.map SegData.start_time_utc_millis).getD 0
    end_time_utc_millis := (last.map SegData.end_time_utc_millis).getD 0
    start_lat := (first.map SegData.start_lat).getD 0
    start_lng := (first.map SegData.start_lng).getD 0
    end_lat := (last.map SegData.end_lat).getD 0
    end_lng := (last.map SegData.end_lng).getD 0
    length := (segs.map fun s => s.data.miles).sum
    segment_numbers := segs.map Segment.number
    segment_start_times := segs.map fun s => s.data.start_time_utc_millis
    segment_end_times := segs.map fun s => s.data.end_time_utc_millis
    maxqcamera := max_of (fun s => decide (s.qcam_url ≠ [])) segs
    maxcamera := max_of (fun s => decide (s.fcam_url ≠ [])) segs
    maxdcamera := max_of (fun s => decide (s.dcam_url ≠ [])) segs
    maxecamera := max_of (fun s => decide (s.ecam_url ≠ [])) segs
    maxqlog := max_of (fun s => decide (s.qlog_url ≠ [])) segs
    maxlog := max_of (fun s => decide (s.rlog_url ≠ [])) segs
    engaged_meters := (segs.map fun s => s.data.engaged_meters).sum
    telem_meters := (segs.map fun s => s.data.telem_meters).sum
    engaged_seconds := (segs.map fun s => s.data.engaged_seconds).sum
    drive_seconds := (segs.map fun s => s.data.drive_seconds).sum
    max_speed := (segs.map fun s => s.data.max_speed).foldl max 0
    disengage_count := (segs.map fun s => s.data.disengage_count).sum
    hard_brake_count := (segs.map fun s => s.data.hard_brake_count).sum
    hard_accel_count := (segs.map fun s => s.data.hard_accel_count).sum
    max_temp := (segs.map fun s => s.data.max_temp).foldl max 0
    min_free := min_free_of segs
    max_mem := ((segs.map fun s => s.data.max_mem).max?).getD 0 }

/-- The aggregate columns equal the aggregation of the route's segment rows. -/
def Fresh (db : Storage.Db) (name : Text) : Prop :=
  db.route_segments name = [] ∨
    (db.routes.get? name).map Route.aggregates = some (aggregate (db.route_segments name))

instance (db : Storage.Db) (name : Text) : Decidable (Fresh db name) :=
  inferInstanceAs (Decidable (_ ∨ _))

end HomeConnect.Drives
