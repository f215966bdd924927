/-
# Storage.World -- the drives database, the files, and everything outside

The rows of the tables that describe drives, and the `World` all drive-handling code
runs over: the database, the blob store, the transcode directory, the files on each
device, the sync queue and the clock.  Real columns are exact rationals.

`World.made` and `World.transcoded` are history: what was ever stored, and for what.
No code reads them.
-/
import HomeConnect.Accounts.Tables
import HomeConnect.Storage.Names
import Mathlib.Data.List.Sort

namespace HomeConnect.Storage

open HomeConnect.Theory

set_option autoImplicit false

/-! ## Rows -/

/-- The columns `upsert_segment` writes from a parsed qlog, with the table's defaults. -/
structure SegData where
  start_lat : Rat := 0
  start_lng : Rat := 0
  end_lat : Rat := 0
  end_lng : Rat := 0
  miles : Rat := 0
  start_time_utc_millis : Int := 0
  end_time_utc_millis : Int := 0
  engaged_meters : Rat := 0
  telem_meters : Rat := 0
  engaged_seconds : Rat := 0
  drive_seconds : Rat := 0
  max_speed : Rat := 0
  disengage_count : Int := 0
  hard_brake_count : Int := 0
  hard_accel_count : Int := 0
  max_temp : Rat := 0
  min_free : Rat := -1
  max_mem : Int := 0
deriving DecidableEq, Repr

/-- The `*_url` columns. -/
inductive UrlCol
  | qcam
  | fcam
  | dcam
  | ecam
  | qlog
  | rlog
deriving DecidableEq, Repr

structure Segment where
  canonical_name : Text
  canonical_route_name : Text
  number : Int
  qcam_url : Text := []
  fcam_url : Text := []
  dcam_url : Text := []
  ecam_url : Text := []
  qlog_url : Text := []
  rlog_url : Text := []
  data : SegData := {}
  created_at : Int := 0
deriving DecidableEq, Repr

namespace Segment

def url (s : Segment) : UrlCol → Text
  | .qcam => s.qcam_url
  | .fcam => s.fcam_url
  | .dcam => s.dcam_url
  | .ecam => s.ecam_url
  | .qlog => s.qlog_url
  | .rlog => s.rlog_url

def set_url (s : Segment) (col : UrlCol) (url : Text) : Segment :=
  match col with
  | .qcam => { s with qcam_url := url }
  | .fcam => { s with fcam_url := url }
  | .dcam => { s with dcam_url := url }
  | .ecam => { s with ecam_url := url }
  | .qlog => { s with qlog_url := url }
  | .rlog => { s with rlog_url := url }

@[simp] theorem set_url_canonical_name (s : Segment) (col : UrlCol) (url : Text) :
    (s.set_url col url).canonical_name = s.canonical_name := by
  cases col <;> rfl

@[simp] theorem set_url_route (s : Segment) (col : UrlCol) (url : Text) :
    (s.set_url col url).canonical_route_name = s.canonical_route_name := by
  cases col <;> rfl

@[simp] theorem set_url_number (s : Segment) (col : UrlCol) (url : Text) :
    (s.set_url col url).number = s.number := by
  cases col <;> rfl

@[simp] theorem set_url_data (s : Segment) (col : UrlCol) (url : Text) :
    (s.set_url col url).data = s.data := by
  cases col <;> rfl

theorem url_set_url (s : Segment) (col c : UrlCol) (url : Text) :
    (s.set_url col url).url c = if c = col then url else s.url c := by
  cases col <;> cases c <;> rfl

end Segment

/-- The columns `recompute_route` writes, with the table's defaults. -/
structure Aggregates where
  start_time_utc_millis : Int := 0
  end_time_utc_millis : Int := 0
  start_lat : Rat := 0
  start_lng : Rat := 0
  end_lat : Rat := 0
  end_lng : Rat := 0
  length : Rat := 0
  segment_numbers : List Int := []
  segment_start_times : List Int := []
  segment_end_times : List Int := []
  maxqcamera : Int := -1
  maxcamera : Int := -1
  maxdcamera : Int := -1
  maxecamera : Int := -1
  maxqlog : Int := -1
  maxlog : Int := -1
  engaged_meters : Rat := 0
  telem_meters : Rat := 0
  engaged_seconds : Rat := 0
  drive_seconds : Rat := 0
  max_speed : Rat := 0
  disengage_count : Int := 0
  hard_brake_count : Int := 0
  hard_accel_count : Int := 0
  max_temp : Rat := 0
  min_free : Rat := -1
  max_mem : Int := 0
deriving DecidableEq, Repr

/-- The platform and git columns of a route. -/
structure RouteMeta where
  platform : Text := []
  git_remote : Text := []
  git_branch : Text := []
  git_commit : Text := []
deriving DecidableEq, Repr

/-- `CASE WHEN ? != '' THEN ? ELSE column END`, for the four columns. -/
def RouteMeta.overwrite (old new : RouteMeta) : RouteMeta where
  platform := if new.platform ≠ [] then new.platform else old.platform
  git_remote := if new.git_remote ≠ [] then new.git_remote else old.git_remote
  git_branch := if new.git_branch ≠ [] then new.git_branch else old.git_branch
  git_commit := if new.git_commit ≠ [] then new.git_commit else old.git_commit

structure Route where
  fullname : Text
  device_dongle_id : Text
  aggregates : Aggregates := {}
  info : RouteMeta := {}
  is_public : Int := 0
  /-- The types this route syncs; `none` inherits the global default. -/
  sync_types : Option Text := none
  created_at : Int := 0
deriving DecidableEq, Repr

structure Movie where
  fullname : Text
  cam : Text
  seg_count : Int
  bytes : Int := 0
  duration : Rat := 0
  built_at : Int := 0
  disabled : Int := 0
deriving DecidableEq, Repr

abbrev Movie.id (m : Movie) : Text × Text := (m.fullname, m.cam)

structure Subs where
  fullname : Text
  seg_count : Int
  cues : Int := 0
  bytes : Int := 0
  built_at : Int := 0
  disabled : Int := 0
deriving DecidableEq, Repr

structure Setting where
  key : Text
  value : Text
deriving DecidableEq, Repr

/-- `INSERT INTO settings … ON CONFLICT DO UPDATE`. -/
def put_setting (settings : Table Setting Setting.key) (key value : Text) : Table Setting Setting.key :=
  settings.upsert ⟨key, value⟩ (fun s => { s with value }) fun _ => rfl

structure Db where
  accounts : Accounts.Db
  settings : Table Setting Setting.key
  routes : Table Route Route.fullname
  segments : Table Segment Segment.canonical_name
  movies : Table Movie Movie.id
  subs : Table Subs Subs.fullname

/-- The rows of a route, `ORDER BY number ASC`. -/
def Db.route_segments (db : Db) (name : Text) : List Segment :=
  (db.segments.rows.filter fun s => decide (s.canonical_route_name = name)).insertionSort
    fun a b => a.number ≤ b.number

/-! ## The sync queue -/

/-- One file to pull or reconcile for a segment. -/
structure QueueItem where
  dongle : Text
  addr : Text
  ts : Text
  seg : Int
  file : Text
deriving DecidableEq, Repr

def QueueItem.name (it : QueueItem) : BlobName := .segment it.dongle it.ts it.seg it.file

/-- The item's `key` field, which is only ever set to this. -/
def QueueItem.key (it : QueueItem) : Text := it.name.key

structure SyncQueue where
  pending : List QueueItem := []
  pending_keys : List Text := []
  /-- key and (route ts, file), for the items being processed. -/
  active : List (Text × Text × Text) := []
deriving DecidableEq, Repr

namespace SyncQueue

/-- Is an item with this key queued or in flight? -/
def holds (q : SyncQueue) (key : Text) : Bool :=
  decide (key ∈ q.pending_keys) || q.active.any fun a => decide (a.1 = key)

/-- One round of the loop of `enqueue`. -/
def push (q : SyncQueue) (it : QueueItem) : SyncQueue :=
  if q.holds it.key then q
  else { q with pending := q.pending ++ [it], pending_keys := it.key :: q.pending_keys }

/-- Add the items that are not already queued or in flight; also says how many. -/
def enqueue (q : SyncQueue) (items : List QueueItem) : Nat × SyncQueue :=
  items.foldl
    (fun acc it => (if acc.2.holds it.key then acc.1 else acc.1 + 1, acc.2.push it)) (0, q)

/-- Take the next item. -/
def next (q : SyncQueue) : Option (QueueItem × SyncQueue) :=
  match q.pending with
  | [] => none
  | it :: rest =>
      some (it,
        { pending := rest
          pending_keys := q.pending_keys.filter fun k => decide (k ≠ it.key)
          active := (it.key, it.ts, it.file) :: q.active.filter fun a => decide (a.1 ≠ it.key) })

/-- Mark an item done. -/
def done (q : SyncQueue) (key : Text) : SyncQueue :=
  { q with active := q.active.filter fun a => decide (a.1 ≠ key) }

/-- How many drives and files are queued or in flight. -/
def stats (q : SyncQueue) : Nat × Nat :=
  ((q.pending.map QueueItem.ts ++ q.active.map fun a => a.2.1).dedup.length,
    q.pending.length + q.active.length)

end SyncQueue

/-! ## The world -/

structure World where
  db : Db
  blobs : Dir BlobPath
  transcode : Dir Text
  /-- The files on the devices, by dongle and absolute path: an address that was recorded for a
  device, or queued with a file of it, is taken to reach it. -/
  remote : Dir (Text × Text)
  sync_queue : SyncQueue := {}
  now : Int := 0
  made : List BlobName := []
  transcoded : List TsName := []

/-- Would an `INSERT` of this segment break the foreign key?  Not when the row is there
already: it is ignored or updated. -/
def World.refuses_segment (w : World) (dongle ts : Text) (seg : Int) : Bool :=
  (w.db.segments.get? (canonical dongle ts seg)).isNone &&
    (w.db.routes.get? (fullname dongle ts)).isNone

end HomeConnect.Storage
