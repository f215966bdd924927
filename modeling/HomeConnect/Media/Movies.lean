/-
# Media.Movies -- stitched movies, and the sweep that builds them

`sweep` works out once which movies are missing or stale and then builds them one after
the other; a build encodes for minutes, and publishes its output (a rename onto the
movie's blob) and records it without looking at the row again.  `disable` is the user's
delete: it removes the blob and marks the row.  What ffmpeg makes of its inputs is
outside the model.
-/
import HomeConnect.Drives.Footprint

namespace HomeConnect.Media

open HomeConnect.Theory HomeConnect.Storage HomeConnect.Drives

set_option autoImplicit false

def MOVIE_CAMS : List Text := ["qcamera", "fcamera", "dcamera", "ecamera"]

/-- The stored source filename for a camera. -/
def source_file (cam : Text) : Option Text :=
  if cam = "qcamera" then some "qcamera.ts"
  else if cam = "fcamera" then some "fcamera.hevc"
  else if cam = "dcamera" then some "dcamera.hevc"
  else if cam = "ecamera" then some "ecamera.hevc"
  else none

/-- The url column of a camera. -/
def cam_col (cam : Text) : Option UrlCol :=
  if cam = "qcamera" then some .qcam
  else if cam = "fcamera" then some .fcam
  else if cam = "dcamera" then some .dcam
  else if cam = "ecamera" then some .ecam
  else none

def movie_enabled (env : Env) : Request Op Bool := toggle "movie_enabled" env.movie_enabled

/-- `SELECT number … WHERE {col} != '' ORDER BY number`. -/
def numbers_with (col : UrlCol) (name : Text) (w : World) : List Int :=
  ((w.db.route_segments name).filter fun s => decide (s.url col ≠ [])).map Segment.number

/-- Ordered segment numbers for a route that have the given camera present. -/
def segments_with_cam (name cam : Text) : Request Op (List Int) :=
  match cam_col cam with
  | some col => select (numbers_with col name)
  | none => throw (.BadRequest ("unknown camera: " ++ cam))

/-- True if the blob exists and is non-empty. -/
def nonempty (env : Env) (name : BlobName) : Request Op Bool :=
  Request.unwrap_or (select fun w => (w.blobs.read (env.path name)).any fun b => decide (b ≠ []))
    false

/-- The segments' blobs that exist and are non-empty, in order. -/
def usable (env : Env) (dongle ts file : Text) : List Int → Request Op (List BlobName)
  | [] => pure []
  | n :: rest => do
      let found ← nonempty env (.segment dongle ts n file)
      let more ← usable env dongle ts file rest
      pure (if found then .segment dongle ts n file :: more else more)

/-- Record a build outcome; `bytes == 0` marks a failed attempt. -/
def record_movie (name cam : Text) (seg_count bytes : Int) (duration : Rat) : Request Op Unit :=
  Request.attempt (.write (.record_movie name cam seg_count bytes duration))

/-- Record a failed attempt and fail. -/
def movie_failed (name cam : Text) (seg_count : Int) (e : AppError) : Request Op Unit := do
  record_movie name cam seg_count 0 0
  throw e

/-- Encode on the selected GPU, then on the CPU if that fails and movies are still
enabled. -/
def encode_movie (env : Env) (inputs : List BlobName) : Request Op (Option Bytes) := do
  match ← encode inputs with
  | some bytes => pure (some bytes)
  | none => if ← movie_enabled env then encode inputs else pure none

/-- The encoder gave nothing: an abort is left unrecorded, a failure recorded. -/
def movie_not_encoded (env : Env) (name cam : Text) (seg_count : Int) : Request Op Unit := do
  if ← movie_enabled env then
    movie_failed name cam seg_count (.Other ("movie encode failed for " ++ cam))
  else
    throw (.Other "movie build aborted (encoding disabled)")

/-- Rename the encoder's output onto the movie's blob and record it. -/
def publish_movie (env : Env) (dongle ts cam : Text) (seg_count : Int) (output : Bytes) :
    Request Op Unit := do
  Request.map_err (execute (.blob_put (.movie dongle ts cam) output)) (.Other "rename")
  let size ← Request.unwrap_or
    (select fun w => ((w.blobs.read (env.path (.movie dongle ts cam))).map List.length).getD 0) 0
  let duration ← probe_duration
  record_movie (fullname dongle ts) cam seg_count size duration

/-- Encode the usable segments' video with qcamera's audio. -/
def encode_and_publish (env : Env) (dongle ts cam : Text) (seg_count : Int)
    (v_paths : List BlobName) : Request Op Unit := do
  let qsegs ← Request.unwrap_or (segments_with_cam (fullname dongle ts) "qcamera") []
  let a_paths ← usable env dongle ts "qcamera.ts" qsegs
  match ← encode_movie env (v_paths ++ a_paths) with
  | some output => publish_movie env dongle ts cam seg_count output
  | none => movie_not_encoded env (fullname dongle ts) cam seg_count

/-- Build (or rebuild) one camera's movie for a route. -/
def build_movie (env : Env) (dongle ts cam : Text) : Request Op Unit :=
  match source_file cam with
  | none => throw (.BadRequest ("unknown camera: " ++ cam))
  | some src => do
      let segs ← segments_with_cam (fullname dongle ts) cam
      Request.err_if (segs = [])
        (.NotFound ("no " ++ cam ++ " segments for " ++ fullname dongle ts))
      let v_paths ← usable env dongle ts src segs
      if v_paths = [] then
        movie_failed (fullname dongle ts) cam segs.length
          (.NotFound ("no usable " ++ cam ++ " source for " ++ fullname dongle ts))
      else
        encode_and_publish env dongle ts cam segs.length v_paths

/-! ## The sweep -/

/-- A movie that may need building. -/
structure MovieTodo where
  fullname : Text
  dongle : Text
  ts : Text
  cam : Text
  col : UrlCol
deriving DecidableEq, Repr

/-- Segments of a route in the coverage pass, and those that carry a camera. -/
def total_segments (segs : List Segment) (name : Text) : Int :=
  (segs.filter fun s => decide (s.canonical_route_name = name)).length

def camera_segments (segs : List Segment) (name : Text) (col : UrlCol) : Int :=
  (segs.filter fun s => s.canonical_route_name = name && decide (s.url col ≠ [])).length

/-- Is the movie missing or stale?  Disabled and failed ones are not retried. -/
def needs_movie (env : Env) (built : List Movie) (segs : List Segment) (m : MovieTodo) :
    Request Op Bool :=
  let total := total_segments segs m.fullname
  let covered := camera_segments segs m.fullname m.col
  if covered = 0 ∨ covered ≠ total then pure false
  else
    match built.find? fun row => decide (row.id = (m.fullname, m.cam)) with
    | none => pure true
    | some row =>
        if row.disabled = 1 then pure false
        else if row.seg_count = total then
          if row.bytes = 0 then pure false
          else do pure (!(← blob_exists env (.movie m.dongle m.ts m.cam)))
        else pure true

/-- Every camera of every route, in the order of the two loops. -/
def movie_candidates (routes : List (Text × Text)) : List MovieTodo :=
  routes.flatMap fun (name, dongle) =>
    match Text.split_once '|' name with
    | none => []
    | some (_, ts) => MOVIE_CAMS.filterMap fun cam =>
        (cam_col cam).map fun col => { fullname := name, dongle, ts, cam, col }

/-- First pass: gather the movies that need building. -/
def gather_movies (env : Env) (built : List Movie) (segs : List Segment) :
    List MovieTodo → Request Op (List MovieTodo)
  | [] => pure []
  | m :: rest => do
      let needed ← needs_movie env built segs m
      let more ← gather_movies env built segs rest
      pure (if needed then m :: more else more)

/-- Second pass: build them, as long as movies stay enabled. -/
def build_movies (env : Env) : List MovieTodo → Request Op Unit
  | [] => pure ()
  | m :: rest => do
      if ← movie_enabled env then
        Request.ignore (build_movie env m.dongle m.ts m.cam)
        build_movies env rest
      else
        pure ()

def movie_sweep (env : Env) : Request Op Unit := do
  let routes ← select fun w => w.db.routes.rows.map fun r => (r.fullname, r.device_dongle_id)
  let built ← Request.unwrap_or (select fun w => w.db.movies.rows) []
  let segs ← Request.unwrap_or (select fun w => w.db.segments.rows) []
  let todo ← gather_movies env built segs (movie_candidates routes)
  build_movies env todo

/-! ## Deleting -/

/-- Delete a route's movie (blob and row), so that the sweep rebuilds it. -/
def delete_movie (dongle ts cam : Text) : Request Op Unit := do
  Request.attempt (.write (.blob_delete (.movie dongle ts cam)))
  Request.attempt (.write (.delete_movie (fullname dongle ts) cam))

/-- User-delete: remove the blob and mark the row, so that the sweep won't rebuild it. -/
def disable_movie (dongle ts cam : Text) : Request Op Unit := do
  Request.attempt (.write (.blob_delete (.movie dongle ts cam)))
  Request.attempt (.write (.disable_movie (fullname dongle ts) cam))

/-- Delete the blob of a movie's row. -/
def delete_movie_blob (row : Text × Text) : Request Op Unit :=
  match Text.split_once '|' row.1 with
  | some (dongle, ts) => Request.attempt (.write (.blob_delete (.movie dongle ts row.2)))
  | none => pure ()

/-- Re-encode all movies that are not disabled: delete their blobs and rows; returns how
many. -/
def reencode_all : Request Op Nat := do
  let rows ← Request.unwrap_or (select fun w =>
    (w.db.movies.rows.filter fun m => decide (m.disabled = 0)).map Movie.id) []
  rows.forM delete_movie_blob
  Request.attempt (.write .delete_enabled_movies)
  pure rows.length

/-! ## What is ready -/

structure CamStatus where
  cam : Text
  ready : Bool
  disabled : Bool
  bytes : Int
  duration : Rat
deriving DecidableEq, Repr

def cam_status (env : Env) (dongle ts : Text) (rows : List Movie) (cam : Text) : Request Op CamStatus := do
  let row := rows.find? fun m => decide (m.cam = cam)
  let disabled := row.any fun m => decide (m.disabled = 1)
  let ready ←
    if disabled then pure false
    else if row.isSome then blob_exists env (.movie dongle ts cam)
    else pure false
  pure { cam, ready, disabled
         bytes := (row.map Movie.bytes).getD 0
         duration := (row.map Movie.duration).getD 0 }

def cam_statuses (env : Env) (dongle ts : Text) (rows : List Movie) : List Text → Request Op (List CamStatus)
  | [] => pure []
  | cam :: rest => do
      let status ← cam_status env dongle ts rows cam
      let more ← cam_statuses env dongle ts rows rest
      pure (status :: more)

/-- Which cameras have a ready movie for a route. -/
def movie_status (env : Env) (name : Text) : Request Op (List CamStatus) :=
  match Text.split_once '|' name with
  | none => pure []
  | some (dongle, ts) => do
      let rows ← Request.unwrap_or (select fun w =>
        w.db.movies.rows.filter fun m => decide (m.fullname = name)) []
      cam_statuses env dongle ts rows MOVIE_CAMS

end HomeConnect.Media
