/-
# Drives.Ingest -- storing, parsing and registering segment files

The functions a segment file goes through after it has reached the server, over HTTP or
pulled off the device: `store` keeps the blob; `parse_and_store` (a qlog) writes the
derived artifacts and the segment row, `set_segment_file` (anything else) only the
file's URL; `recompute_route` then re-reads the route's segment rows and writes their
aggregation, as two statements without a transaction.
-/
import HomeConnect.Drives.Statements

namespace HomeConnect.Drives

open HomeConnect.Theory HomeConnect.Storage

set_option autoImplicit false

def select {α : Type} (q : World → α) : Request Op α := Request.perform (.read q)

def execute (s : Write) : Request Op Unit := Request.perform (.write s)

/-- Run ffmpeg, or another outside program, on the given blobs. -/
def encode (inputs : List BlobName) : Request Op (Option Bytes) :=
  ExceptT.mk (.op (.encode inputs) fun r => .ret (.ok r))

/-- `probe_duration`, `0.0` when it fails. -/
def probe_duration : Request Op Rat :=
  ExceptT.mk (.op .probe fun r => .ret (.ok (r.getD 0)))

/-- `BlobStore::exists`: a failed look counts as absent. -/
def blob_exists (env : Env) (name : BlobName) : Request Op Bool :=
  Request.unwrap_or (select fun w => (w.blobs.read (env.path name)).isSome) false

/-! ## settings -/

/-- `settings::get`: unset and unreadable are the same. -/
def setting (key : Text) : Request Op (Option Text) :=
  Request.unwrap_or (select fun w => (w.db.settings.get? key).map Setting.value) none

/-- A runtime toggle with its default. -/
def toggle (key : Text) (default : Bool) : Request Op Bool := do
  match ← setting key with
  | some s => pure (decide (s = "1") || Text.eq_ignore_ascii_case s "true")
  | none => pure default

/-! ## parse -/

/-- File-type → (connectdata type, segment url column). -/
def file_kind (file : Text) : Option (Text × UrlCol) :=
  if Text.contains file "qcamera" then some ("qcam", .qcam)
  else if Text.contains file "fcamera" then some ("fcam", .fcam)
  else if Text.contains file "dcamera" then some ("dcam", .dcam)
  else if Text.contains file "ecamera" then some ("ecam", .ecam)
  else if Text.contains file "qlog" then some ("qlog", .qlog)
  else if Text.contains file "rlog" then some ("rlog", .rlog)
  else none

def connectdata_url (pub ty dongle ts : Text) (seg : Int) (file : Text) : Text :=
  pub ++ "/connectdata/" ++ ty ++ "/" ++ dongle ++ "/" ++ ts ++ "/" ++ Text.decimal seg ++ "/" ++ file

def ensure_route (dongle ts : Text) : Request Op Unit := execute (.insert_route dongle ts)

/-- Set the `*_url` column for one file, creating the rows if they don't exist yet. -/
def set_segment_file (env : Env) (dongle ts : Text) (seg : Int) (file : Text) : Request Op Unit :=
  match file_kind file with
  | none => pure ()
  | some (ty, col) => do
      ensure_route dongle ts
      execute (.insert_segment dongle ts seg)
      execute (.set_url dongle ts seg col (connectdata_url env.public_url ty dongle ts seg file))

def CAMERA_FILES : List Text := ["qcamera.ts", "fcamera.hevc", "dcamera.hevc", "ecamera.hevc"]

/-- Set a camera's url if its blob has been uploaded already. -/
def set_sibling (env : Env) (dongle ts : Text) (seg : Int) (cam : Text) : Request Op Unit := do
  if ← blob_exists env (.segment dongle ts seg cam) then
    set_segment_file env dongle ts seg cam

def upsert_segment (env : Env) (dongle ts : Text) (seg : Int) (file : Text) (acc : Accum) :
    Request Op Unit := do
  ensure_route dongle ts
  execute (.upsert_segment dongle ts seg acc.data)
  set_segment_file env dongle ts seg file
  CAMERA_FILES.forM (set_sibling env dongle ts seg)

/-- Recompute the route aggregate from its segment rows. -/
def recompute_route (dongle ts : Text) : Request Op Unit := do
  let segs ← select fun w => w.db.route_segments (fullname dongle ts)
  if segs.isEmpty then
    pure ()
  else
    execute (.set_aggregates (fullname dongle ts) (aggregate segs))

def write_route_meta (dongle ts : Text) (acc : Accum) : Request Op Unit :=
  execute (.set_meta (fullname dongle ts)
    { platform := acc.car_fingerprint
      git_remote := acc.git_remote
      git_branch := acc.git_branch
      git_commit := acc.git_commit })

/-- The artifacts of a parsed qlog, in the order they are written. -/
def Accum.artifacts (env : Env) (acc : Accum) : List (Text × Bytes) :=
  (if acc.coords.isEmpty then [] else [(("coords.json" : Text), env.coords_json acc.coords)]) ++
  (if acc.events.isEmpty then [] else [(("events.json" : Text), env.events_json acc.events)]) ++
  (if acc.telemetry.isEmpty then [] else [(("telemetry.json" : Text), env.telemetry_json acc.telemetry)]) ++
  (if acc.thumbnails.isEmpty then []
    else ((env.build_sprite acc.thumbnails).map fun sprite => (("sprite.jpg" : Text), sprite)).toList)

/-- A failed write of an artifact is discarded. -/
def put_artifact (dongle ts : Text) (seg : Int) (artifact : Text × Bytes) : Request Op Unit :=
  Request.attempt (.write (.blob_put (.segment dongle ts seg artifact.1) artifact.2))

/-- Keep the device's last-known GPS fresh. -/
def update_last_gps (dongle : Text) (acc : Accum) : Request Op Unit :=
  match acc.last_gps with
  | some (lat, lng, time) => Request.attempt (.write (.set_last_gps dongle lat lng time))
  | none => pure ()

def parse_and_store (env : Env) (dongle ts : Text) (seg : Int) (file : Text) (raw : Bytes) :
    Request Op Unit := do
  let acc ← Request.of_result (env.parse file raw)
  (acc.artifacts env).forM (put_artifact dongle ts seg)
  upsert_segment env dongle ts seg file acc
  recompute_route dongle ts
  write_route_meta dongle ts acc
  update_last_gps dongle acc

def parse_model_and_store (env : Env) (dongle ts : Text) (seg : Int) (file : Text) (raw : Bytes) :
    Request Op Unit :=
  match env.extract_model file raw with
  | none => pure ()
  | some json =>
      Request.map_err (execute (.blob_put (.segment dongle ts seg "model.json") json))
        (.Other "model.json write")

/-! ## ingest -/

/-- The principal of a request: the token's identity, and the row it was matched to. -/
structure Auth where
  identity : Text
  user : Option Accounts.User := none
  device : Option Accounts.Device := none
deriving DecidableEq, Repr

def require_device (auth : Auth) (dongle : Text) : AppResult Unit :=
  match auth.device with
  | some d =>
      if d.dongle_id = dongle ∧ auth.identity = dongle then .ok ()
      else .error (.Forbidden "device/dongle mismatch")
  | none => .error (.Unauthorized "device token required")

def store (env : Env) (dongle : Text) (name : BlobName) (body : Bytes) : Request Op Unit := do
  -- Refuse silent overwrite of an existing upload.
  Request.err_if (← blob_exists env name) (.Forbidden "file already uploaded")
  Request.map_err (execute (.blob_put name body)) (.Other "blob write")
  Request.attempt (.write (.add_server_storage dongle body.length))

/-- Register an already-stored segment file without (re)storing the blob. -/
def register_segment_file (env : Env) (dongle ts : Text) (seg : Int) (file : Text) (body : Bytes) :
    Request Op Unit := do
  if Text.contains file "qlog" then
    parse_and_store env dongle ts seg file body
  else
    set_segment_file env dongle ts seg file
    Request.ignore (recompute_route dongle ts)

def ingest_segment_file (env : Env) (dongle ts : Text) (seg : Int) (file : Text) (body : Bytes) :
    Request Op Unit := do
  store env dongle (.segment dongle ts seg file) body
  register_segment_file env dongle ts seg file body
  -- The rlog carries modelV2: derive the top-down artifact.
  if Text.contains file "rlog" then
    Request.ignore (parse_model_and_store env dongle ts seg file body)

/-- What `upload_driving` does once the body is stored: a qlog is parsed in the
background, anything else registered; an error is only logged. -/
def register_upload (env : Env) (dongle ts : Text) (seg : Int) (file : Text) (body : Bytes) :
    Request Op Unit := do
  if Text.contains file "qlog" then
    parse_and_store env dongle ts seg file body
  else
    set_segment_file env dongle ts seg file
    Request.ignore (recompute_route dongle ts)

/-- `PUT /connectincoming/:dongle/:timestamp/:segment/:file`.  The request is answered
201 whatever becomes of the registration, whose result is returned here. -/
def upload_driving (env : Env) (auth : Auth) (dongle ts : Text) (seg : Int) (file : Text)
    (body : Bytes) : Request Op (AppResult Unit) := do
  Request.of_result (require_device auth dongle)
  store env dongle (.segment dongle ts seg file) body
  Request.capture (register_upload env dongle ts seg file body)

end HomeConnect.Drives
