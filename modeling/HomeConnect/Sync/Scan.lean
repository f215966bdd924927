/-
# Sync.Scan -- pulling segment files off the devices

`scan` lists a device's files, compares them with what the database has registered, and
puts the wanted, unregistered ones on the queue; a worker takes one at a time
(`process_item`): a file whose blob is already stored is registered from it, any other
is copied over and ingested.  With auto-prune on, the device's copy is then deleted.

What a scan decides about one line of the listing is `scan_line`; it depends on the
segment rows, the types each route syncs, and nothing else.
-/
import HomeConnect.Drives.Ingest

namespace HomeConnect.Sync

open HomeConnect.Theory HomeConnect.Storage HomeConnect.Drives

set_option autoImplicit false

/-! ## Settings -/

def is_autoprune_enabled (env : Env) : Request Op Bool :=
  toggle "device_autoprune" env.device_autoprune

/-- The selectable data types. -/
def OPTIONAL_TYPES : List Text := ["qcamera", "fcamera", "dcamera", "ecamera", "rlog"]

/-- The tokens of a comma-separated list. -/
def split_types (s : Text) : List Text := (Text.split ',' s).filter fun t => decide (t ≠ [])

/-- The default set of data types: the setting, or else the configuration's. -/
def sync_types (env : Env) : Option Text → List Text
  | some s => split_types s
  | none => if env.sync_fullres then OPTIONAL_TYPES else ["qcamera"]

def get_sync_types (env : Env) : Request Op (List Text) := do
  pure (sync_types env (← setting "sync_types"))

/-! ## What the database has registered -/

/-- What the DB already knows about a segment. -/
structure Reg where
  qcam : Bool := false
  fcam : Bool := false
  dcam : Bool := false
  ecam : Bool := false
  rlog : Bool := false
  qlog_parsed : Bool := false
deriving DecidableEq, Repr

def Reg.of_segment (s : Segment) : Reg where
  qcam := decide (s.qcam_url ≠ [])
  fcam := decide (s.fcam_url ≠ [])
  dcam := decide (s.dcam_url ≠ [])
  ecam := decide (s.ecam_url ≠ [])
  rlog := decide (s.rlog_url ≠ [])
  qlog_parsed := decide (s.qlog_url ≠ [])

/-- Is this remote file already registered in the DB? -/
def registered (reg : Option Reg) (file : Text) : Bool :=
  match reg with
  | none => false
  | some r =>
      if Text.contains file "qlog" then r.qlog_parsed
      else if Text.contains file "qcamera" then r.qcam
      else if Text.contains file "fcamera" then r.fcam
      else if Text.contains file "dcamera" then r.dcam
      else if Text.contains file "ecamera" then r.ecam
      else if Text.contains file "rlog" then r.rlog
      else true

/-- The segment rows whose route's name is like `{dongle}|%`. -/
def registration_rows (dongle : Text) (db : Storage.Db) : List Segment :=
  db.segments.rows.filter fun s => Text.like (dongle ++ "|%") s.canonical_route_name

/-- Each segment's registration state for a dongle, by canonical name. -/
def load_registration (dongle : Text) (db : Storage.Db) : List (Text × Reg) :=
  (registration_rows dongle db).map fun s => (s.canonical_name, Reg.of_segment s)

/-- Every route's override for a dongle, by the route's timestamp; `none` inherits. -/
def load_route_overrides (dongle : Text) (db : Storage.Db) : List (Text × Option (List Text)) :=
  (db.routes.rows.filter fun r => decide (r.device_dongle_id = dongle)).filterMap fun r =>
    (Text.split_once '|' r.fullname).map fun p => (p.2, r.sync_types.map split_types)

/-- A `HashMap` collected from a list: the last entry of a key counts. -/
def lookup {α : Type} (entries : List (Text × α)) (key : Text) : Option α :=
  (entries.reverse.find? fun e => decide (e.1 = key)).map Prod.snd

/-! ## The device's files -/

def REALDATA_DIR : Text := "/data/media/0/realdata"

def remote_path (ts : Text) (seg : Int) (file : Text) : Text :=
  REALDATA_DIR ++ "/" ++ ts ++ "--" ++ Text.decimal seg ++ "/" ++ file

/-- The output of `find {REALDATA_DIR} -maxdepth 2 -type f` on a device. -/
def find_listing (dongle : Text) (files : Dir (Text × Text)) : Text :=
  (files.rows.filter fun f => f.path.1 = dongle &&
    match Text.strip_prefix (REALDATA_DIR ++ "/") f.path.2 with
    | some rest => decide ((Text.split '/' rest).length ≤ 2)
    | none => false).flatMap fun f => f.path.2 ++ ['\n']

/-- Parse a remote realdata file path into `(ts, segment, filename)`. -/
def parse_remote_path (path : Text) : Option (Text × Int × Text) := do
  let rest ← Text.strip_prefix REALDATA_DIR path
  let (dir, file) ← Text.split_once '/' (rest.dropWhile fun c => decide (c = '/'))
  let (ts, seg) ← Text.rsplit_once_dashes dir
  let seg ← Text.parse_i64 seg
  if ts = [] ∨ file = [] then none else some (ts, seg, file)

/-- A path component is safe to embed in a single-quoted shell word. -/
def safe_component (s : Text) : Bool :=
  !s.isEmpty && s.all fun c => c.isAlphanum || c = '.' || c = '_' || c = '-'

/-- A filename's optional data-type token. -/
def file_type (file : Text) : Option Text := OPTIONAL_TYPES.find? fun t => Text.contains file t

/-- Should this file be pulled, given the selected types?  A qlog always is. -/
def wanted (file : Text) (types : List Text) : Bool :=
  if Text.contains file "qlog" then true
  else
    match file_type file with
    | some t => decide (t ∈ types)
    | none => false

/-! ## Scanning -/

structure SyncOpts where
  /-- `none` resolves the types per route; `some` forces them. -/
  types : Option (List Text) := none
  /-- Limit to one route's timestamp. -/
  route : Option Text := none
deriving DecidableEq, Repr

/-- What a scan has read before it goes through the listing. -/
structure ScanState where
  reg : List (Text × Reg)
  global : List Text
  overrides : List (Text × Option (List Text))

/-- The types to sync for a route. -/
def ScanState.types (st : ScanState) (forced : Option (List Text)) (ts : Text) : List Text :=
  match forced with
  | some types => types
  | none => ((lookup st.overrides ts).join).getD st.global

/-- One round of the loop over the listing. -/
def scan_line (device : Accounts.Device) (opts : SyncOpts) (st : ScanState) (line : Text) :
    Option QueueItem :=
  match parse_remote_path (Text.trim line) with
  | none => none
  | some (ts, seg, file) =>
      if opts.route.any fun route => decide (ts ≠ route) then none
      else if !wanted file (st.types opts.types ts) then none
      else if registered (lookup st.reg (canonical device.dongle_id ts seg)) file then none
      else some { dongle := device.dongle_id, addr := device.last_addr, ts, seg, file }

/-- One turn with the queue locked. -/
def with_queue {α : Type} (f : SyncQueue → α × SyncQueue) : Request Op α :=
  ExceptT.mk (.op (.queue f) fun a => .ret (.ok a))

/-- The defaults and overrides are read only when no types are forced. -/
def scan_types (env : Env) (dongle : Text) (opts : SyncOpts) :
    Request Op (List Text × List (Text × Option (List Text))) :=
  match opts.types with
  | some _ => pure ([], [])
  | none => do
      let global ← get_sync_types env
      let overrides ← select fun w => load_route_overrides dongle w.db
      pure (global, overrides)

/-- Enqueue a device's wanted, missing files; returns how many. -/
def scan (env : Env) (device : Accounts.Device) (opts : SyncOpts) : Request Op Nat := do
  Request.err_if (device.last_addr = [])
    (.BadRequest "device address unknown (not seen online yet)")
  let listing ← select fun w => find_listing device.dongle_id w.remote
  let reg ← select fun w => load_registration device.dongle_id w.db
  let (global, overrides) ← scan_types env device.dongle_id opts
  with_queue fun q =>
    q.enqueue ((Text.lines listing).filterMap (scan_line device opts { reg, global, overrides }))

/-! ## Processing the queue -/

/-- Delete the device's copy of a file we hold.  A failure leaves it for next time. -/
def maybe_prune (env : Env) (it : QueueItem) : Request Op Unit := do
  if ← is_autoprune_enabled env then
    if ← blob_exists env it.name then
      if safe_component it.file then
        Request.attempt (.write (.rm it.dongle (remote_path it.ts it.seg it.file)))

/-- `BlobStore::get`. -/
def blob_get (env : Env) (name : BlobName) : Request Op Bytes := do
  match ← select fun w => w.blobs.read (env.path name) with
  | some bytes => pure bytes
  | none => throw (.Other "blob read")

/-- `device_ssh::pull_file` and reading the local copy. -/
def pull_file (addr dongle path : Text) : Request Op Bytes := do
  Request.err_if (addr = []) (.BadRequest "device address unknown (not seen online yet)")
  match ← select fun w => w.remote.read (dongle, path) with
  | some bytes => pure bytes
  | none => throw (.Other "scp failed")

/-- A qlog's bytes are read back; other files need only the URL. -/
def body_on_disk (env : Env) (it : QueueItem) : Request Op Bytes :=
  if Text.contains it.file "qlog" then blob_get env it.name else pure []

/-- On disk but not registered: reconcile without touching the network. -/
def register_on_disk (env : Env) (it : QueueItem) : Request Op Unit := do
  let body ← body_on_disk env it
  register_segment_file env it.dongle it.ts it.seg it.file body

def pull_and_ingest (env : Env) (it : QueueItem) : Request Op Unit := do
  let bytes ← pull_file it.addr it.dongle (remote_path it.ts it.seg it.file)
  ingest_segment_file env it.dongle it.ts it.seg it.file bytes

/-- Prune after success; an error is only logged. -/
def prune_if_ok (env : Env) (it : QueueItem) : AppResult Unit → Request Op Unit
  | .ok () => maybe_prune env it
  | .error _ => pure ()

def process_item (env : Env) (it : QueueItem) : Request Op Unit := do
  if ← blob_exists env it.name then
    prune_if_ok env it (← Request.capture (register_on_disk env it))
  else
    prune_if_ok env it (← Request.capture (pull_and_ingest env it))

/-- `SyncQueue::next`; none when the queue is empty, where the worker waits. -/
def next_item (q : SyncQueue) : Option QueueItem × SyncQueue :=
  match q.next with
  | some (it, q') => (some it, q')
  | none => (none, q)

/-- One round of a worker. -/
def work (env : Env) : Request Op Unit := do
  match ← with_queue next_item with
  | none => pure ()
  | some it =>
      process_item env it
      with_queue fun q => ((), q.done it.key)

end HomeConnect.Sync
