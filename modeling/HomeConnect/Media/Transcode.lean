/-
# Media.Transcode -- cached transcodes and audio extracts

The full-res cameras are transcoded on first request, and the audio of a segment is
extracted from its qcamera; both results are cached in the transcode directory.  Both
functions look for the cached file, then for the source, wait for a permit, look for the
cached file again, have ffmpeg write to a temporary file beside it and rename that into
place: `ensure_cached`.  A request that is dropped takes no further step, and leaves the
temporary file where it is; so does a failed rename.
-/
import HomeConnect.Drives.Footprint

namespace HomeConnect.Media

open HomeConnect.Theory HomeConnect.Storage HomeConnect.Drives

set_option autoImplicit false

/-- Camera stems we know how to transcode and their source blob filenames. -/
def camera_source (cam : Text) : Option Text :=
  if cam = "fcamera" then some "fcamera.hevc"
  else if cam = "dcamera" then some "dcamera.hevc"
  else if cam = "ecamera" then some "ecamera.hevc"
  else none

def cache_path (dongle ts : Text) (seg : Int) (cam : Text) : TsName := ⟨dongle, ts, seg, cam⟩

def audio_path (dongle ts : Text) (seg : Int) : TsName := ⟨dongle, ts, seg, "audio"⟩

/-- Segments are recorded in (at most) one-minute chunks. -/
def SEGMENT_SECS : Int := 60

/-- The selected GPU: the setting, or else the configuration's; `none` is the CPU. -/
def current_device (env : Env) : Request Op (Option Text) := do
  match ← setting "transcode_device" with
  | some s =>
      if s = "cpu" then pure none
      else if s ≠ [] then pure (some s)
      else pure env.vaapi_device
  | none => pure env.vaapi_device

/-- `try_exists` of a cached file: a failed look counts as absent. -/
def ts_exists (name : TsName) : Request Op Bool :=
  Request.unwrap_or (select fun w => (w.transcode.read name.file).isSome) false

/-- Run ffmpeg on the blobs: it opens the temporary file and writes its output to it; true
on clean exit.  What a failed run leaves there is not looked at again. -/
def run_ffmpeg (tmp : TsName) (inputs : List BlobName) : Request Op Bool :=
  Request.unwrap_or (do
    execute (.ts_write tmp [])
    match ← encode inputs with
    | none => pure false
    | some bytes => do
        execute (.ts_write tmp bytes)
        pure true) false

/-- Run ffmpeg and rename its output into place. -/
def produce (out : TsName) (failed : Text) (run : Request Op Bool) : Request Op TsName := do
  if ← run then
    Request.map_err (execute (.ts_rename out.temp out)) (.Other "rename")
    pure out
  else
    Request.attempt (.write (.ts_remove out.temp))
    throw (.Other failed)

/-- After the permit: another request may have produced it while we waited. -/
def produce_if_missing (out : TsName) (failed : Text) (run : Request Op Bool) :
    Request Op TsName := do
  if ← ts_exists out then pure out
  else produce out failed run

/-- Return the cached file, produced from the source blob if it is not there. -/
def ensure_cached (env : Env) (out : TsName) (src : BlobName) (missing failed : Text)
    (run : Request Op Bool) : Request Op TsName := do
  if ← ts_exists out then pure out
  else
    Request.err_if (!(← blob_exists env src)) (.NotFound missing)
    produce_if_missing out failed run

/-- Encode on the GPU if one is selected, and on the CPU if that fails. -/
def run_transcode (env : Env) (src : BlobName) (tmp : TsName) : Request Op Bool := do
  match ← current_device env with
  | none => run_ffmpeg tmp [src]
  | some _ =>
      if ← run_ffmpeg tmp [src] then pure true
      else
        Request.attempt (.write (.ts_remove tmp))
        run_ffmpeg tmp [src]

/-- Ensure the transcoded `.ts` for one segment-camera exists. -/
def ensure_transcode (env : Env) (dongle ts : Text) (seg : Int) (cam : Text) :
    Request Op TsName :=
  match camera_source cam with
  | none => throw (.BadRequest ("not a transcodable camera: " ++ cam))
  | some src_file =>
      ensure_cached env (cache_path dongle ts seg cam) (.segment dongle ts seg src_file)
        ("no " ++ src_file ++ " for segment") ("ffmpeg transcode failed for " ++ cam)
        (run_transcode env (.segment dongle ts seg src_file) (cache_path dongle ts seg cam).temp)

/-- Ensure the per-segment audio track exists. -/
def ensure_audio (env : Env) (dongle ts : Text) (seg : Int) : Request Op TsName :=
  ensure_cached env (audio_path dongle ts seg) (.segment dongle ts seg "qcamera.ts")
    "no qcamera for segment" "audio extract failed"
    (run_ffmpeg (audio_path dongle ts seg).temp [.segment dongle ts seg "qcamera.ts"])

end HomeConnect.Media
