/-
# Media.Serve -- serving a route's files

Every handler checks access to the route and then opens a file, a blob or what the
transcoder has cached; none looks at a row of the file's.
-/
import HomeConnect.Media.Subs
import HomeConnect.Media.Transcode

namespace HomeConnect.Media

open HomeConnect.Theory HomeConnect.Storage HomeConnect.Drives

set_option autoImplicit false

/-! ## access -/

def load_device (dongle : Text) : Request Op (Option Accounts.Device) :=
  select fun w => w.db.accounts.devices.get? dongle

/-- May this principal view the device's data?  The device itself, its owner, or a user
it's been shared with. -/
def can_view_device (auth : Auth) (device : Accounts.Device) : Request Op Bool :=
  match auth.device, auth.user with
  | some d, _ => pure (decide (d.dongle_id = device.dongle_id))
  | none, some u =>
      if device.owner_id = some u.id then pure true
      else select fun w =>
        (w.db.accounts.authorized_users.get? (u.id, device.dongle_id)).isSome
  | none, none => pure false

def can_view_route (auth : Auth) (dongle : Text) : Request Op Bool := do
  match ← load_device dongle with
  | some d => can_view_device auth d
  | none => pure false

/-- A public route is open to anyone; otherwise the device-view rules apply. -/
def check_route_access (name dongle : Text) (auth : Option Auth) : Request Op Unit := do
  let is_public ← select fun w => (w.db.routes.get? name).map Route.is_public
  if is_public = some 1 then
    pure ()
  else
    match auth with
    | none => throw (.Unauthorized "login required")
    | some auth =>
        Request.err_if (!(← can_view_route auth dongle))
          (.Forbidden "not authorized for this route")

/-! ## serve -/

def serve_file (env : Env) (name : BlobName) : Request Op Bytes := do
  match ← Request.unwrap_or (select fun w => w.blobs.read (env.path name)) none with
  | some bytes => pure bytes
  | none => throw (.NotFound "file not found")

/-- GET /v1/route/:fullname/movie/:cam. -/
def serve_movie (env : Env) (name cam : Text) (auth : Option Auth) : Request Op Bytes := do
  let (dongle, ts) ← Request.of_result (split_fullname name)
  check_route_access name dongle auth
  let stem := (Text.strip_suffix ".mp4" cam).getD cam
  Request.err_if (stem ∉ MOVIE_CAMS) (.BadRequest "unknown camera")
  serve_file env (.movie dongle ts stem)

/-- GET /v1/route/:fullname/subs.vtt. -/
def serve_subs (env : Env) (name : Text) (auth : Option Auth) : Request Op Bytes := do
  let (dongle, ts) ← Request.of_result (split_fullname name)
  check_route_access name dongle auth
  serve_file env (.subs dongle ts)

/-- Stream a file of the transcode directory. -/
def serve_cached (name : TsName) : Request Op Bytes := do
  match ← Request.unwrap_or (select fun w => w.transcode.read name.file) none with
  | some bytes => pure bytes
  | none => throw (.NotFound "file not found")

/-- GET /connectdata/:dongle/:timestamp/:segment/:file. -/
def connectdata (env : Env) (dongle ts : Text) (seg : Int) (file : Text) (auth : Option Auth) :
    Request Op Bytes := do
  check_route_access (fullname dongle ts) dongle auth
  serve_file env (.segment dongle ts seg file)

/-- GET /v1/transcode/:dongle/:timestamp/:segment/:file. -/
def transcode (env : Env) (dongle ts : Text) (seg : Int) (file : Text) (auth : Option Auth) :
    Request Op Bytes := do
  check_route_access (fullname dongle ts) dongle auth
  let cam := (Text.strip_suffix ".ts" file).getD file
  serve_cached (← ensure_transcode env dongle ts seg cam)

/-- GET /v1/audio/:dongle/:timestamp/:segment/:file. -/
def audio (env : Env) (dongle ts : Text) (seg : Int) (auth : Option Auth) : Request Op Bytes := do
  check_route_access (fullname dongle ts) dongle auth
  serve_cached (← ensure_audio env dongle ts seg)

end HomeConnect.Media
