/-
# Media.Subs -- transcripts, and the sweep that builds them

The same life cycle as a movie's (`Media.Movies`), with a whisper server instead of an
encoder: the audio is cut into chunks of `CHUNK_SECS`, each is transcribed, and the
cues are put on one timeline.
-/
import HomeConnect.Media.Movies

namespace HomeConnect.Media

open HomeConnect.Theory HomeConnect.Storage HomeConnect.Drives

set_option autoImplicit false

def CHUNK_SECS : Rat := 300

def subs_enabled (env : Env) : Request Op Bool := toggle "subs_enabled" env.subs_enabled

/-- The whisper server's base URL, without a trailing slash. -/
def whisper_url (env : Env) : Request Op Text := do
  let set ← setting "whisper_url"
  let raw := (set.filter fun s => decide (Text.trim s ≠ [])).getD env.whisper_url
  pure ((Text.trim raw).reverse.dropWhile fun c => decide (c = '/')).reverse

def record_subs (name : Text) (seg_count cues bytes : Int) : Request Op Unit :=
  Request.attempt (.write (.record_subs name seg_count cues bytes))

/-- Record a failed attempt and fail. -/
def subs_failed {α : Type} (name : Text) (seg_count : Int) (e : AppError) : Request Op α := do
  record_subs name seg_count 0 0
  throw e

/-- The rounds of the chunk loop: as many as start before the audio's end. -/
def chunk_count (total : Rat) : Nat := (max total (1 / 1000) / CHUNK_SECS).ceil.toNat

/-- The chunk loop: cut a chunk out, transcribe it, go on with the next.  Past the end
of the audio the loop ends; a failed transcription fails the build. -/
def transcribe_chunks (env : Env) (name : Text) (seg_count : Int) :
    Nat → Request Op (List Bytes)
  | 0 => pure []
  | n + 1 => do
      -- A toggle flipped off mid-run stops at the next chunk boundary.
      Request.err_if (!(← subs_enabled env)) (.Other "subtitle build aborted (disabled)")
      match ← encode [] with
      | none => pure []
      | some _ =>
          match ← encode [] with
          | none => subs_failed name seg_count (.Other "whisper")
          | some vtt => do
              let rest ← transcribe_chunks env name seg_count n
              pure (vtt :: rest)

/-- Store the transcript and record it. -/
def publish_subs (env : Env) (dongle ts : Text) (seg_count : Int) (bodies : List Bytes) :
    Request Op Unit := do
  let (vtt, cues) := env.render_vtt bodies
  Request.map_err (execute (.blob_put (.subs dongle ts) vtt)) (.Other "blob write")
  record_subs (fullname dongle ts) seg_count cues vtt.length

/-- Transcribe the extracted audio and publish the result. -/
def transcribe_and_publish (env : Env) (dongle ts : Text) (seg_count : Int) : Request Op Unit := do
  let total ← probe_duration
  Request.err_if ((← whisper_url env) = []) (.BadRequest "no whisper url configured")
  let bodies ← transcribe_chunks env (fullname dongle ts) seg_count (chunk_count total)
  publish_subs env dongle ts seg_count bodies

/-- Build (or rebuild) one drive's subtitles. -/
def build_subs (env : Env) (dongle ts : Text) : Request Op Unit := do
  let segs ← Request.unwrap_or (select (numbers_with .qcam (fullname dongle ts))) []
  let paths ← usable env dongle ts "qcamera.ts" segs
  if paths = [] then
    subs_failed (fullname dongle ts) segs.length
      (.NotFound ("no audio for " ++ fullname dongle ts))
  else
    match ← encode paths with
    | none =>
        subs_failed (fullname dongle ts) segs.length
          (.Other ("audio extract failed for " ++ fullname dongle ts))
    | some _ => transcribe_and_publish env dongle ts segs.length

/-! ## The sweep -/

/-- Does the drive need a transcript?  Only one whose audio covers it does. -/
def needs_subs (env : Env) (built : List Subs) (segs : List Segment) (name dongle ts : Text) :
    Request Op Bool :=
  let total := total_segments segs name
  if total = 0 ∨ camera_segments segs name .qcam ≠ total then pure false
  else
    match built.find? fun row => decide (row.fullname = name) with
    | none => pure true
    | some row =>
        if row.disabled = 1 then pure false
        else if row.seg_count = total then
          if row.bytes = 0 then pure false
          else do pure (!(← blob_exists env (.subs dongle ts)))
        else pure true

/-- One round of the sweep's loop. -/
def sweep_route (env : Env) (built : List Subs) (segs : List Segment) (name dongle : Text) :
    Request Op Unit :=
  match Text.split_once '|' name with
  | none => pure ()
  | some (_, ts) => do
      if ← needs_subs env built segs name dongle ts then
        Request.ignore (build_subs env dongle ts)

/-- Transcribe route after route, as long as subtitles stay enabled. -/
def sweep_routes (env : Env) (built : List Subs) (segs : List Segment) :
    List (Text × Text) → Request Op Unit
  | [] => pure ()
  | (name, dongle) :: rest => do
      if ← subs_enabled env then
        sweep_route env built segs name dongle
        sweep_routes env built segs rest
      else
        pure ()

def subs_sweep (env : Env) : Request Op Unit := do
  let routes ← select fun w => w.db.routes.rows.map fun r => (r.fullname, r.device_dongle_id)
  let built ← Request.unwrap_or (select fun w => w.db.subs.rows) []
  let segs ← Request.unwrap_or (select fun w => w.db.segments.rows) []
  sweep_routes env built segs routes

/-! ## Deleting -/

/-- Delete a drive's subtitles (blob and row), so that they rebuild on the next sweep. -/
def delete_subs (dongle ts : Text) : Request Op Unit := do
  Request.attempt (.write (.blob_delete (.subs dongle ts)))
  Request.attempt (.write (.delete_subs (fullname dongle ts)))

/-- User-delete: remove the blob and mark the row, so that the sweep won't rebuild it. -/
def disable_subs (dongle ts : Text) : Request Op Unit := do
  Request.attempt (.write (.blob_delete (.subs dongle ts)))
  Request.attempt (.write (.disable_subs (fullname dongle ts)))

end HomeConnect.Media
