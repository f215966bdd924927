/-
# Manage.Settings -- rejected settings requests

The handlers of `/v1/admin/...` go through the fields of a request and check and store them one
after the other.  A field that is refused ends the request, and what the fields before it have
stored stays.  `set_retention` checks everything first, `set_sync` refuses nothing, and the only
field `set_subs` refuses comes first; the other two leave the table as it was only when the
earlier fields have nothing to change (`rejected_unchanged_iff`).
-/
import HomeConnect.Manage.Override
import HomeConnect.Media.Transcribe
import HomeConnect.Retention.Pass

namespace HomeConnect.Manage.Settings

open HomeConnect.Theory HomeConnect.Storage
open HomeConnect.Retention (Policy)
open HomeConnect.Media.Transcribe (parse_f64)

set_option autoImplicit false

/-! ## settings -/

abbrev SettingsTable := Table Setting Setting.key

inductive SettingsOp : Type → Type
  | get (key : Text) : SettingsOp (AppResult (Option Text))
  | set (key value : Text) : SettingsOp (AppResult Unit)
  /-- Does a server answer at the URL? -/
  | probe (url : Text) : SettingsOp Bool

/-- The statements and the servers that answer, the configuration, and `f64::to_string`. -/
structure Conf where
  readable : Text → Bool
  written : Text → Bool
  reachable : Text → Bool
  f64_text : Rat → Text
  sync_enabled : Bool
  sync_interval_secs : Nat
  sync_fullres : Bool
  device_autoprune : Bool
  movie_enabled : Bool
  movie_interval_secs : Nat
  subs_enabled : Bool
  whisper_url : Text
  denoise_enabled : Bool
  denoise_url : Text
  denoise_atten_db : Option Rat

variable (conf : Conf)

def SettingsOp.exec {β : Type} : SettingsOp β → SettingsTable → β × SettingsTable
  | .get key, t =>
      (if conf.readable key then .ok ((t.get? key).map Setting.value) else .error .Sqlx, t)
  | .set key value, t =>
      if conf.written key then (.ok (), put_setting t key value) else (.error .Sqlx, t)
  | .probe url, t => (conf.reachable url, t)

/-- The answer to a request and the table it leaves. -/
def answer {α : Type} (p : Request SettingsOp α) (t : SettingsTable) : AppResult α × SettingsTable :=
  p.run.run (SettingsOp.exec conf) t

def get (key : Text) : Request SettingsOp (Option Text) :=
  Request.unwrap_or (Request.perform (.get key)) none

def set (key value : Text) : Request SettingsOp Unit := Request.perform (.set key value)

def toggle (key : Text) (default : Bool) : Request SettingsOp Bool := do
  match ← get key with
  | some s => pure (decide (s = "1") || Text.eq_ignore_ascii_case s "true")
  | none => pure default

def bit (on : Bool) : Text := if on then "1" else "0"

def set_toggle (key : Text) (on : Bool) : Request SettingsOp Unit := set key (bit on)

/-- An interval in seconds. -/
def interval (key : Text) (default : Nat) : Request SettingsOp Nat := do
  match ← get key with
  | some s => pure ((Text.parse_u64 s).getD default)
  | none => pure default

def set_interval (key : Text) (secs : Nat) : Request SettingsOp Unit := set key (Text.decimal secs)

/-- The base URL of a server, without a trailing slash. -/
def server_url (key default : Text) : Request SettingsOp Text := do
  let set ← get key
  let raw := (set.filter fun s => decide (Text.trim s ≠ [])).getD default
  pure ((Text.trim raw).reverse.dropWhile fun c => decide (c = '/')).reverse

/-- Empty, or over http. -/
def url_ok (url : Text) : Bool :=
  decide (url = [] ∨ ("http://" : Text) <+: url ∨ ("https://" : Text) <+: url)

def set_server_url (key : Text) (message : Text) (url : Text) : Request SettingsOp Unit := do
  Request.err_if (url_ok (Text.trim url) = false) (.BadRequest message)
  set key (Text.trim url)

/-- Is the server up?  Without a URL it is not. -/
def probe (url : Text) : Request SettingsOp Bool :=
  if url = [] then pure false else ExceptT.mk (.op (.probe url) fun up => .ret (.ok up))

/-- `if let Some(x) = field`. -/
def when_some {α : Type} (field : Option α) (f : α → Request SettingsOp Unit) : Request SettingsOp Unit :=
  match field with
  | some x => f x
  | none => pure ()

/-! ## movie -/

def SCALE_KEY : Text := "movie_scale"
def CRF_KEY : Text := "movie_crf"
def PRESET_KEY : Text := "movie_preset"

def SCALES : List Text := ["native", "854", "640"]
def PRESETS : List Text := ["ultrafast", "veryfast", "faster", "fast", "medium", "slow"]

def clamp_crf (c : Nat) : Nat := min (max c 16) 35

structure EncodeReply where
  enabled : Bool
  interval_secs : Nat
  scale : Text
  crf : Nat
  preset : Text
  scale_options : List Text := SCALES
  preset_options : List Text := PRESETS
deriving DecidableEq, Repr

/-- `str::parse::<u32>`. -/
def parse_u32 (s : Text) : Option Nat := (Text.parse_u64 s).filter fun n => decide (n < 2 ^ 32)

/-- Persist any provided encode settings (validated). -/
def set_encode_settings (scale : Option Text) (crf : Option Nat) (preset : Option Text) :
    Request SettingsOp Unit := do
  when_some scale fun s => do
    Request.err_if (s ∉ SCALES) (.BadRequest "bad scale")
    set SCALE_KEY s
  when_some crf fun c => set CRF_KEY (Text.decimal (clamp_crf c))
  when_some preset fun p => do
    Request.err_if (p ∉ PRESETS) (.BadRequest "bad preset")
    set PRESET_KEY p

/-! ## The handlers -/

def require_admin (user : Accounts.User) : AppResult Unit :=
  if user.is_admin = 0 then .error (.Forbidden "admin required") else .ok ()

def get_encoding (user : Accounts.User) : Request SettingsOp EncodeReply := do
  Request.of_result (require_admin user)
  let scale ← get SCALE_KEY
  let crf ← get CRF_KEY
  let preset ← get PRESET_KEY
  let enabled ← toggle "movie_enabled" conf.movie_enabled
  let interval_secs ← interval "movie_interval" conf.movie_interval_secs
  pure { enabled, interval_secs, scale := scale.getD "native"
         crf := clamp_crf ((crf.bind parse_u32).getD 23), preset := preset.getD "veryfast" }

structure EncodingSettings where
  enabled : Option Bool := none
  interval_secs : Option Nat := none
  scale : Option Text := none
  crf : Option Nat := none
  preset : Option Text := none
deriving DecidableEq, Repr

def set_encoding (user : Accounts.User) (req : EncodingSettings) : Request SettingsOp EncodeReply := do
  Request.of_result (require_admin user)
  when_some req.enabled (set_toggle "movie_enabled")
  when_some req.interval_secs (set_interval "movie_interval")
  if req.scale.isSome ∨ req.crf.isSome ∨ req.preset.isSome then
    set_encode_settings req.scale req.crf req.preset
  get_encoding conf user

structure SubsReply where
  enabled : Bool
  whisper_url : Text
  reachable : Bool
deriving DecidableEq, Repr

def subs_settings : Request SettingsOp SubsReply := do
  let enabled ← toggle "subs_enabled" conf.subs_enabled
  let whisper_url ← server_url "whisper_url" conf.whisper_url
  let reachable ← probe whisper_url
  pure { enabled, whisper_url, reachable }

structure SubsReq where
  enabled : Option Bool := none
  whisper_url : Option Text := none
deriving DecidableEq, Repr

def set_subs (user : Accounts.User) (req : SubsReq) : Request SettingsOp SubsReply := do
  Request.of_result (require_admin user)
  when_some req.whisper_url (set_server_url "whisper_url" "whisper url must be http(s)")
  when_some req.enabled (set_toggle "subs_enabled")
  subs_settings conf

structure DenoiseReply where
  enabled : Bool
  denoise_url : Text
  atten_db : Option Rat
  reachable : Bool
deriving DecidableEq, Repr

def atten_db : Request SettingsOp (Option Rat) := do
  match ← get "denoise_atten_db" with
  | some s => pure (parse_f64 (Text.trim s))
  | none => pure conf.denoise_atten_db

def denoise_settings : Request SettingsOp DenoiseReply := do
  let enabled ← toggle "denoise_enabled" conf.denoise_enabled
  let denoise_url ← server_url "denoise_url" conf.denoise_url
  let atten_db ← atten_db conf
  let reachable ← probe denoise_url
  pure { enabled, denoise_url, atten_db, reachable }

/-- `None` clears the limit. -/
def set_atten_db : Option Rat → Request SettingsOp Unit
  | some v => do
      Request.err_if (¬ (0 ≤ v ∧ v ≤ 100)) (.BadRequest "denoise attenuation must be 0-100 dB")
      set "denoise_atten_db" (conf.f64_text v)
  | none => set "denoise_atten_db" []

/-- In `atten_db` an explicit null is kept apart from an absent field. -/
structure DenoiseReq where
  enabled : Option Bool := none
  denoise_url : Option Text := none
  atten_db : Option (Option Rat) := none
deriving DecidableEq, Repr

def set_denoise (user : Accounts.User) (req : DenoiseReq) : Request SettingsOp DenoiseReply := do
  Request.of_result (require_admin user)
  when_some req.denoise_url (set_server_url "denoise_url" "denoise url must be http(s)")
  when_some req.enabled (set_toggle "denoise_enabled")
  when_some req.atten_db (set_atten_db conf)
  denoise_settings conf

structure SyncReply where
  enabled : Bool
  interval_secs : Nat
  types : List Text
  all_types : List Text := Sync.OPTIONAL_TYPES
  autoprune : Bool
deriving DecidableEq, Repr

def sync_types : Request SettingsOp (List Text) := do
  match ← get "sync_types" with
  | some s => pure (Sync.split_types s)
  | none => pure (if conf.sync_fullres then Sync.OPTIONAL_TYPES else ["qcamera"])

structure SyncSettings where
  enabled : Option Bool := none
  interval_secs : Option Nat := none
  types : Option (List Text) := none
  autoprune : Option Bool := none
deriving DecidableEq, Repr

def set_sync (user : Accounts.User) (req : SyncSettings) : Request SettingsOp SyncReply := do
  Request.of_result (require_admin user)
  when_some req.enabled (set_toggle "sync_enabled")
  when_some req.interval_secs (set_interval "sync_interval")
  when_some req.types fun types => set "sync_types" (joined_types types)
  when_some req.autoprune (set_toggle "device_autoprune")
  let enabled ← toggle "sync_enabled" conf.sync_enabled
  let interval_secs ← interval "sync_interval" conf.sync_interval_secs
  let types ← sync_types conf
  let autoprune ← toggle "device_autoprune" conf.device_autoprune
  pure { enabled, interval_secs, types, autoprune }

def save_policy (p : Policy) : Request SettingsOp Unit := do
  set "retain_days" (Text.decimal p.days)
  set "retain_max_drives" (Text.decimal p.max_drives)
  set "retain_gb" (conf.f64_text p.max_gb)

def set_retention (user : Accounts.User) (p : Policy) : Request SettingsOp Policy := do
  Request.of_result (require_admin user)
  Request.err_if (p.days < 0 ∨ p.max_drives < 0 ∨ p.max_gb < 0) (.BadRequest "values must be >= 0")
  save_policy conf p
  pure p

/-! ## The requests -/

inductive SettingsReq
  | encoding (req : EncodingSettings)
  | denoise (req : DenoiseReq)
  | subs (req : SubsReq)
  | sync (req : SyncSettings)
  | retention (p : Policy)

inductive SettingsReply
  | encoding (reply : EncodeReply)
  | denoise (reply : DenoiseReply)
  | subs (reply : SubsReply)
  | sync (reply : SyncReply)
  | retention (p : Policy)

def handle (user : Accounts.User) : SettingsReq → Request SettingsOp SettingsReply
  | .encoding req => do return .encoding (← set_encoding conf user req)
  | .denoise req => do return .denoise (← set_denoise conf user req)
  | .subs req => do return .subs (← set_subs conf user req)
  | .sync req => do return .sync (← set_sync conf user req)
  | .retention p => do return .retention (← set_retention conf user p)

/-! ## Checks and writes in order

To the table a handler is a list of steps, each a check or a write; what it reads besides
fails nothing and stores nothing. -/

inductive Step
  | check (refused : Bool) (e : AppError)
  | put (key value : Text)

/-- The first refused check or failed statement ends the run. -/
def run_steps : List Step → SettingsTable → AppResult Unit × SettingsTable
  | [], t => (.ok (), t)
  | .check refused e :: l, t => if refused then (.error e, t) else run_steps l t
  | .put key value :: l, t =>
      if conf.written key then run_steps l (put_setting t key value) else (.error .Sqlx, t)

/-- `p` ends as the steps do, whatever it returns. -/
def Does {α : Type} (p : Request SettingsOp α) (l : List Step) : Prop :=
  ∀ t, match run_steps conf l t with
    | (.ok (), t') => ∃ a, answer conf p t = (.ok a, t')
    | (.error e, t') => answer conf p t = (.error e, t')

variable {conf} {α β : Type}

theorem answer_bind (p : Request SettingsOp α) (g : α → Request SettingsOp β) (t : SettingsTable) :
    answer conf (p >>= g) t =
      match (answer conf p t).1 with
      | .ok a => answer conf (g a) (answer conf p t).2
      | .error e => (.error e, (answer conf p t).2) := by
  unfold answer
  rw [Request.run_bind, Prog.run_bind]
  cases (p.run.run (SettingsOp.exec conf) t).1 <;> rfl

@[simp] theorem run_steps_nil (t : SettingsTable) : run_steps conf [] t = (.ok (), t) := rfl

@[simp] theorem run_steps_check (refused : Bool) (e : AppError) (l : List Step) (t : SettingsTable) :
    run_steps conf (.check refused e :: l) t =
      if refused then (.error e, t) else run_steps conf l t := rfl

@[simp] theorem run_steps_put (key value : Text) (l : List Step) (t : SettingsTable) :
    run_steps conf (.put key value :: l) t =
      if conf.written key then run_steps conf l (put_setting t key value) else (.error .Sqlx, t) := rfl

theorem run_steps_append (l l' : List Step) (t : SettingsTable) :
    run_steps conf (l ++ l') t =
      match run_steps conf l t with
      | (.ok (), t') => run_steps conf l' t'
      | (.error e, t') => (.error e, t') := by
  induction l generalizing t with
  | nil => rfl
  | cons s l ih =>
      rw [List.cons_append]
      cases s with
      | check refused e =>
          rw [run_steps_check, run_steps_check]
          by_cases bad : refused = true
          · simp [bad]
          · simp [bad, ih]
      | put key value =>
          rw [run_steps_put, run_steps_put]
          by_cases written : conf.written key = true
          · simp [written, ih]
          · simp [written]

theorem Does.bind {p : Request SettingsOp α} {g : α → Request SettingsOp β} {l l' : List Step}
    (first : Does conf p l) (rest : ∀ a, Does conf (g a) l') : Does conf (p >>= g) (l ++ l') := by
  intro t
  rw [run_steps_append]
  have here := first t
  cases ended : run_steps conf l t with
  | mk r t' =>
      rw [ended] at here
      cases r with
      | error e =>
          show answer conf (p >>= g) t = (.error e, t')
          rw [answer_bind, here]
      | ok u =>
          obtain ⟨a, done⟩ := here
          have onward : answer conf (p >>= g) t = answer conf (g a) t' := by rw [answer_bind, done]
          simp only [onward]
          exact rest a t'

theorem does_pure (a : α) : Does conf (pure a) [] := fun _ => ⟨a, rfl⟩

theorem does_err_if (c : Prop) [Decidable c] (e : AppError) :
    Does conf (Request.err_if c e) [.check (decide c) e] := by
  intro t
  unfold Request.err_if run_steps
  by_cases bad : c
  · simp only [bad, decide_true, if_true]
    rfl
  · simp only [bad, decide_false, Bool.false_eq_true, if_false]
    exact ⟨(), rfl⟩

theorem does_set (key value : Text) : Does conf (set key value) [.put key value] := by
  intro t
  unfold run_steps
  have ran : answer conf (set key value) t =
      if conf.written key then (.ok (), put_setting t key value) else (.error .Sqlx, t) := rfl
  rw [ran]
  by_cases written : conf.written key = true
  · simp only [written, if_true]
    exact ⟨(), rfl⟩
  · simp only [written]
    rfl

/-- A lookup whose error is dropped. -/
theorem does_get (key : Text) : Does conf (get key) [] := fun t => by
  by_cases readable : conf.readable key = true
  · exact ⟨_, rfl⟩
  · exact ⟨_, rfl⟩


theorem does_of_result (c : Prop) [Decidable c] (e : AppError) :
    Does conf (Request.of_result (if c then .error e else .ok ())) [.check (decide c) e] := by
  intro t
  rw [run_steps_check]
  by_cases bad : c
  · simp only [bad, decide_true, if_true]
    rfl
  · simp only [bad, decide_false, Bool.false_eq_true, if_false]
    exact ⟨(), rfl⟩

theorem does_when_some {o : Option α} {f : α → Request SettingsOp Unit} {l : α → List Step}
    (given : ∀ x, Does conf (f x) (l x)) : Does conf (when_some o f) (o.toList.flatMap l) := by
  cases o with
  | none => exact does_pure ()
  | some x =>
      rw [Option.toList_some, List.flatMap_singleton]
      exact given x

theorem does_toggle (key : Text) (default : Bool) : Does conf (toggle key default) [] := by
  apply Does.bind (does_get key)
  intro s
  cases s <;> exact does_pure _

theorem does_interval (key : Text) (default : Nat) : Does conf (interval key default) [] := by
  apply Does.bind (does_get key)
  intro s
  cases s <;> exact does_pure _

theorem does_server_url (key default : Text) : Does conf (server_url key default) [] := by
  apply Does.bind (does_get key)
  intro s
  exact does_pure _

theorem does_probe (url : Text) : Does conf (probe url) [] := by
  unfold probe
  by_cases unset : url = []
  · rw [if_pos unset]
    exact does_pure false
  · rw [if_neg unset]
    exact fun t => ⟨conf.reachable url, rfl⟩

/-- The same steps, grouped another way. -/
theorem Does.regroup {p : Request SettingsOp α} {l l' : List Step} (does : Does conf p l)
    (same : l = l') : Does conf p l' := same ▸ does

/-! ## The steps of each handler -/

/-- What is stored for a field that is given. -/
def field {α : Type} (key : Text) (text : α → Text) (o : Option α) : List (Text × Text) :=
  o.toList.map fun x => (key, text x)

def puts_of (ws : List (Text × Text)) : List Step := ws.map fun w => .put w.1 w.2

def admin_check (user : Accounts.User) : Step :=
  .check (decide (user.is_admin = 0)) (.Forbidden "admin required")

/-- A field that is checked and then stored. -/
def checked {α : Type} (key : Text) (text : α → Text) (bad : α → Prop) [DecidablePred bad]
    (message : Text) (o : Option α) : List Step :=
  o.toList.flatMap fun x => [.check (decide (bad x)) (.BadRequest message), .put key (text x)]

variable (conf) in
def atten_steps : Option Rat → List Step
  | some v =>
      [.check (decide (¬ (0 ≤ v ∧ v ≤ 100))) (.BadRequest "denoise attenuation must be 0-100 dB"),
        .put "denoise_atten_db" (conf.f64_text v)]
  | none => [.put "denoise_atten_db" []]

/-- The movie settings without a check of their own. -/
def EncodingSettings.switches (req : EncodingSettings) : List (Text × Text) :=
  field "movie_enabled" bit req.enabled ++
    field "movie_interval" (fun secs : Nat => Text.decimal secs) req.interval_secs

def EncodingSettings.quality (req : EncodingSettings) : List (Text × Text) :=
  field CRF_KEY (fun c => Text.decimal (clamp_crf c)) req.crf

def SyncSettings.writes (req : SyncSettings) : List (Text × Text) :=
  field "sync_enabled" bit req.enabled ++
    field "sync_interval" (fun secs : Nat => Text.decimal secs) req.interval_secs ++
    field "sync_types" joined_types req.types ++ field "device_autoprune" bit req.autoprune

variable (conf) in
def policy_writes (p : Policy) : List (Text × Text) :=
  [("retain_days", Text.decimal p.days), ("retain_max_drives", Text.decimal p.max_drives),
    ("retain_gb", conf.f64_text p.max_gb)]

variable (conf) in
/-- A request after the check of the user. -/
def field_steps : SettingsReq → List Step
  | .encoding req =>
      puts_of req.switches ++ (checked SCALE_KEY id (· ∉ SCALES) "bad scale" req.scale ++
        (puts_of req.quality ++ checked PRESET_KEY id (· ∉ PRESETS) "bad preset" req.preset))
  | .denoise req =>
      checked "denoise_url" Text.trim (fun u => url_ok (Text.trim u) = false) "denoise url must be http(s)"
          req.denoise_url ++
        (puts_of (field "denoise_enabled" bit req.enabled) ++
          req.atten_db.toList.flatMap (atten_steps conf))
  | .subs req =>
      checked "whisper_url" Text.trim (fun u => url_ok (Text.trim u) = false) "whisper url must be http(s)"
          req.whisper_url ++
        puts_of (field "subs_enabled" bit req.enabled)
  | .sync req => puts_of req.writes
  | .retention p =>
      .check (decide (p.days < 0 ∨ p.max_drives < 0 ∨ p.max_gb < 0)) (.BadRequest "values must be >= 0") ::
        puts_of (policy_writes conf p)

theorem puts_of_append (ws ws' : List (Text × Text)) :
    puts_of (ws ++ ws') = puts_of ws ++ puts_of ws' := List.map_append

theorem does_field {key : Text} {text : α → Text} {o : Option α} {f : α → Request SettingsOp Unit}
    (sets : ∀ x, f x = set key (text x)) :
    Does conf (when_some o f) (puts_of (field key text o)) := by
  apply (does_when_some fun x => (sets x).symm ▸ does_set key (text x)).regroup
  cases o <;> rfl

theorem does_checked {key : Text} {text : α → Text} {bad : α → Prop} [DecidablePred bad]
    {message : Text} {o : Option α} {f : α → Request SettingsOp Unit}
    (sets : ∀ x, f x = do
      Request.err_if (bad x) (.BadRequest message)
      set key (text x)) :
    Does conf (when_some o f) (checked key text bad message o) := by
  apply does_when_some
  intro x
  rw [sets x]
  exact (does_err_if (bad x) _).bind fun _ => does_set key (text x)

theorem does_admin (user : Accounts.User) :
    Does conf (Request.of_result (require_admin user)) [admin_check user] :=
  does_of_result _ _

theorem does_get_encoding (user : Accounts.User) :
    Does conf (get_encoding conf user) [admin_check user] := by
  apply (does_admin user).bind
  intro
  apply (does_get SCALE_KEY).bind
  intro scale
  apply (does_get CRF_KEY).bind
  intro crf
  apply (does_get PRESET_KEY).bind
  intro preset
  apply (does_toggle "movie_enabled" conf.movie_enabled).bind
  intro enabled
  apply (does_interval "movie_interval" conf.movie_interval_secs).bind
  intro interval_secs
  exact does_pure _

theorem does_set_encode_settings (scale : Option Text) (crf : Option Nat) (preset : Option Text) :
    Does conf (set_encode_settings scale crf preset)
      (checked SCALE_KEY id (· ∉ SCALES) "bad scale" scale ++
        (puts_of (field CRF_KEY (fun c => Text.decimal (clamp_crf c)) crf) ++
          checked PRESET_KEY id (· ∉ PRESETS) "bad preset" preset)) := by
  apply (does_checked fun s => rfl).bind
  intro
  apply (does_field fun c => rfl).bind
  intro
  exact does_checked fun p => rfl

/-- The settings of the encoder are set only when one of them is given. -/
theorem does_encode_part (user : Accounts.User) (req : EncodingSettings) :
    Does conf (do
        if req.scale.isSome ∨ req.crf.isSome ∨ req.preset.isSome then
          set_encode_settings req.scale req.crf req.preset
        get_encoding conf user)
      ((checked SCALE_KEY id (· ∉ SCALES) "bad scale" req.scale ++
        (puts_of req.quality ++ checked PRESET_KEY id (· ∉ PRESETS) "bad preset" req.preset)) ++
        [admin_check user]) := by
  by_cases given : req.scale.isSome ∨ req.crf.isSome ∨ req.preset.isSome
  · rw [if_pos given]
    exact (does_set_encode_settings _ _ _).bind fun _ => does_get_encoding user
  · rw [if_neg given]
    obtain ⟨scale, crf, preset⟩ : req.scale = none ∧ req.crf = none ∧ req.preset = none := by
      simpa only [not_or, Option.not_isSome_iff_eq_none] using given
    unfold EncodingSettings.quality
    rw [scale, crf, preset]
    exact does_get_encoding user

theorem does_set_encoding (user : Accounts.User) (req : EncodingSettings) :
    Does conf (set_encoding conf user req)
      (admin_check user :: field_steps conf (.encoding req) ++ [admin_check user]) := by
  apply ((does_admin user).bind fun _ => (does_field fun on => rfl).bind fun _ =>
    (does_field fun secs => rfl).bind fun _ => does_encode_part user req).regroup
  simp [field_steps, EncodingSettings.switches, puts_of_append]

theorem does_set_denoise (user : Accounts.User) (req : DenoiseReq) :
    Does conf (set_denoise conf user req) (admin_check user :: field_steps conf (.denoise req)) := by
  have attens : ∀ atten, Does conf (set_atten_db conf atten) (atten_steps conf atten) := by
    intro atten
    cases atten with
    | none => exact does_set _ _
    | some v => exact (does_err_if _ _).bind fun _ => does_set _ _
  have replies : Does conf (denoise_settings conf) [] := by
    apply (does_toggle "denoise_enabled" conf.denoise_enabled).bind
    intro enabled
    apply (does_server_url "denoise_url" conf.denoise_url).bind
    intro denoise_url
    have limit : Does conf (atten_db conf) [] := by
      apply (does_get "denoise_atten_db").bind
      intro s
      cases s <;> exact does_pure _
    apply limit.bind
    intro atten
    apply (does_probe denoise_url).bind
    intro reachable
    exact does_pure _
  apply ((does_admin user).bind fun _ => (does_checked fun url => rfl).bind fun _ =>
    (does_field fun on => rfl).bind fun _ => (does_when_some attens).bind fun _ => replies).regroup
  simp [field_steps]

theorem does_set_subs (user : Accounts.User) (req : SubsReq) :
    Does conf (set_subs conf user req) (admin_check user :: field_steps conf (.subs req)) := by
  have replies : Does conf (subs_settings conf) [] := by
    apply (does_toggle "subs_enabled" conf.subs_enabled).bind
    intro enabled
    apply (does_server_url "whisper_url" conf.whisper_url).bind
    intro whisper_url
    apply (does_probe whisper_url).bind
    intro reachable
    exact does_pure _
  apply ((does_admin user).bind fun _ => (does_checked fun url => rfl).bind fun _ =>
    (does_field fun on => rfl).bind fun _ => replies).regroup
  simp [field_steps]

theorem does_set_sync (user : Accounts.User) (req : SyncSettings) :
    Does conf (set_sync conf user req) (admin_check user :: field_steps conf (.sync req)) := by
  have types : Does conf (sync_types conf) [] := by
    apply (does_get "sync_types").bind
    intro s
    cases s <;> exact does_pure _
  have replies : Does conf (do
      let enabled ← toggle "sync_enabled" conf.sync_enabled
      let interval_secs ← interval "sync_interval" conf.sync_interval_secs
      let types ← sync_types conf
      let autoprune ← toggle "device_autoprune" conf.device_autoprune
      pure ({ enabled, interval_secs, types, autoprune } : SyncReply)) [] := by
    apply (does_toggle "sync_enabled" conf.sync_enabled).bind
    intro enabled
    apply (does_interval "sync_interval" conf.sync_interval_secs).bind
    intro interval_secs
    apply types.bind
    intro types
    apply (does_toggle "device_autoprune" conf.device_autoprune).bind
    intro autoprune
    exact does_pure _
  apply ((does_admin user).bind fun _ => (does_field fun on => rfl).bind fun _ =>
    (does_field fun secs => rfl).bind fun _ => (does_field fun types => rfl).bind fun _ =>
    (does_field fun on => rfl).bind fun _ => replies).regroup
  simp [field_steps, SyncSettings.writes, puts_of_append]

theorem does_set_retention (user : Accounts.User) (p : Policy) :
    Does conf (set_retention conf user p) (admin_check user :: field_steps conf (.retention p)) := by
  have saves : Does conf (save_policy conf p) (puts_of (policy_writes conf p)) :=
    (does_set _ _).bind fun _ => (does_set _ _).bind fun _ => does_set _ _
  apply ((does_admin user).bind fun _ => (does_err_if _ _).bind fun _ => saves.bind fun _ =>
    does_pure p).regroup
  simp [field_steps]

variable (conf) in
def steps (user : Accounts.User) : SettingsReq → List Step
  | .encoding req => admin_check user :: field_steps conf (.encoding req) ++ [admin_check user]
  | req => admin_check user :: field_steps conf req

theorem does_handle (user : Accounts.User) (req : SettingsReq) :
    Does conf (handle conf user req) (steps conf user req) := by
  apply Does.regroup (l := steps conf user req ++ [])
  · cases req with
    | encoding req => exact (does_set_encoding user req).bind fun _ => does_pure _
    | denoise req => exact (does_set_denoise user req).bind fun _ => does_pure _
    | subs req => exact (does_set_subs user req).bind fun _ => does_pure _
    | sync req => exact (does_set_sync user req).bind fun _ => does_pure _
    | retention p => exact (does_set_retention user p).bind fun _ => does_pure _
  · exact List.append_nil _

/-! ## The first refused check -/

/-- The error of the first refused check, and the writes before it. -/
def refusal : List Step → Option (AppError × List (Text × Text))
  | [] => none
  | .check refused e :: l => if refused then some (e, []) else refusal l
  | .put key value :: l => (refusal l).map fun r => (r.1, (key, value) :: r.2)

def stored (ws : List (Text × Text)) (t : SettingsTable) : SettingsTable :=
  ws.foldl (fun t w => put_setting t w.1 w.2) t

/-- A request is refused when a check refuses it and the statements before that succeed. -/
theorem refused_iff (l : List Step) (t t' : SettingsTable) (m : Text) :
    run_steps conf l t = (.error (.BadRequest m), t') ↔
      ∃ ws, refusal l = some (.BadRequest m, ws) ∧ (∀ w ∈ ws, conf.written w.1 = true) ∧
        t' = stored ws t := by
  induction l generalizing t with
  | nil => simp [refusal]
  | cons s l ih =>
      cases s with
      | check refused e =>
          rw [run_steps_check, refusal]
          by_cases bad : refused = true
          · rw [if_pos bad, if_pos bad]
            constructor
            · intro ended
              cases ended
              exact ⟨[], rfl, by simp, rfl⟩
            · rintro ⟨ws, first, -, rfl⟩
              cases first
              rfl
          · rw [if_neg bad, if_neg bad]
            exact ih t
      | put key value =>
          rw [run_steps_put, refusal]
          by_cases written : conf.written key = true
          · rw [if_pos written, ih]
            constructor
            · rintro ⟨ws, first, all, rfl⟩
              refine ⟨(key, value) :: ws, by simp [first], ?_, rfl⟩
              simpa [written] using all
            · rintro ⟨ws, first, all, rfl⟩
              obtain ⟨⟨e, rest⟩, later, same⟩ := Option.map_eq_some_iff.1 first
              cases same
              exact ⟨rest, later, fun w member => all w (List.mem_cons_of_mem _ member), rfl⟩
          · rw [if_neg written]
            constructor
            · intro ended
              cases ended
            · rintro ⟨ws, first, all, -⟩
              obtain ⟨⟨e, rest⟩, first, same⟩ := Option.map_eq_some_iff.1 first
              cases same
              exact absurd (all (key, value) List.mem_cons_self) written

@[simp] theorem refusal_puts_append (ws : List (Text × Text)) (l : List Step) :
    refusal (puts_of ws ++ l) = (refusal l).map fun r => (r.1, ws ++ r.2) := by
  induction ws with
  | nil => simp [puts_of]
  | cons w ws ih =>
      show (refusal (puts_of ws ++ l)).map _ = _
      rw [ih, Option.map_map]
      rfl

@[simp] theorem refusal_puts (ws : List (Text × Text)) : refusal (puts_of ws) = none := by
  rw [← List.append_nil (puts_of ws), refusal_puts_append]
  rfl

section Checked

variable {key : Text} {text : α → Text} {bad : α → Prop} [DecidablePred bad] {message : Text}
  {o : Option α} {l : List Step}

theorem refusal_checked_bad {x : α} (given : o = some x) (wrong : bad x) :
    refusal (checked key text bad message o ++ l) = some (.BadRequest message, []) := by
  subst given
  simp [checked, refusal, wrong]

theorem refusal_checked_ok (right : ∀ x, o = some x → ¬ bad x) :
    refusal (checked key text bad message o ++ l) =
      (refusal l).map fun r => (r.1, field key text o ++ r.2) := by
  cases o with
  | none => simp [checked, field]
  | some x => simp [checked, field, refusal, right x rfl]

end Checked

/-! ## What the writes change -/

theorem get?_put_setting (t : SettingsTable) (key value k : Text) :
    (put_setting t key value).get? k = if k = key then some ⟨key, value⟩ else t.get? k := by
  unfold put_setting
  rw [Table.get?_upsert]
  by_cases here : k = key
  · rw [if_pos here, if_pos here]
    cases found : t.get? k with
    | none => rfl
    | some s =>
        have named : s.key = key := (Table.key_of_get? found).trans here
        simp [← named]
  · rw [if_neg here, if_neg here]

theorem put_setting_settled {t : SettingsTable} {key value : Text}
    (found : t.get? key = some ⟨key, value⟩) : put_setting t key value = t :=
  Table.upsert_settled _ found rfl

theorem get?_stored_ne {ws : List (Text × Text)} {k : Text} (t : SettingsTable)
    (other : k ∉ ws.map Prod.fst) : (stored ws t).get? k = t.get? k := by
  induction ws generalizing t with
  | nil => rfl
  | cons w ws ih =>
      rw [List.map_cons, List.mem_cons, not_or] at other
      show (stored ws (put_setting t w.1 w.2)).get? k = t.get? k
      rw [ih _ other.2, get?_put_setting, if_neg other.1]

theorem get?_stored {ws : List (Text × Text)} {w : Text × Text} (t : SettingsTable)
    (distinct : (ws.map Prod.fst).Nodup) (member : w ∈ ws) :
    (stored ws t).get? w.1 = some ⟨w.1, w.2⟩ := by
  induction ws generalizing t with
  | nil => cases member
  | cons v ws ih =>
      rw [List.map_cons, List.nodup_cons] at distinct
      show (stored ws (put_setting t v.1 v.2)).get? w.1 = _
      rcases List.mem_cons.1 member with rfl | later
      · rw [get?_stored_ne _ distinct.1, get?_put_setting, if_pos rfl]
      · exact ih _ distinct.2 later

/-- Writes under different keys leave the table as it is when it already holds them. -/
theorem stored_eq_iff {ws : List (Text × Text)} (t : SettingsTable)
    (distinct : (ws.map Prod.fst).Nodup) :
    stored ws t = t ↔ ∀ w ∈ ws, t.get? w.1 = some ⟨w.1, w.2⟩ := by
  constructor
  · intro same w member
    rw [← get?_stored t distinct member, same]
  · intro held
    induction ws with
    | nil => rfl
    | cons w ws ih =>
        show stored ws (put_setting t w.1 w.2) = t
        rw [put_setting_settled (held w List.mem_cons_self)]
        rw [List.map_cons, List.nodup_cons] at distinct
        exact ih distinct.2 fun v member => held v (List.mem_cons_of_mem _ member)

/-! ## Each request stores a key at most once -/

def keys (l : List Step) : List Text :=
  l.filterMap fun
    | .put key _ => some key
    | .check _ _ => none

theorem keys_append (l l' : List Step) : keys (l ++ l') = keys l ++ keys l' := List.filterMap_append

theorem refusal_keys {l : List Step} {e : AppError} {ws : List (Text × Text)}
    (first : refusal l = some (e, ws)) : (ws.map Prod.fst).Sublist (keys l) := by
  induction l generalizing ws with
  | nil => cases first
  | cons s l ih =>
      cases s with
      | check refused e' =>
          unfold refusal at first
          by_cases bad : refused = true
          · rw [if_pos bad] at first
            cases first
            exact List.nil_sublist _
          · rw [if_neg bad] at first
            exact ih first
      | put key value =>
          obtain ⟨⟨e', rest⟩, later, same⟩ := Option.map_eq_some_iff.1 first
          cases same
          exact (ih later).cons_cons key

theorem keys_field (key : Text) (text : α → Text) (o : Option α) :
    (keys (puts_of (field key text o))).Sublist [key] := by
  cases o with
  | none => exact List.nil_sublist _
  | some x => exact List.Sublist.refl _

theorem keys_checked (key : Text) (text : α → Text) (bad : α → Prop) [DecidablePred bad]
    (message : Text) (o : Option α) : (keys (checked key text bad message o)).Sublist [key] := by
  cases o with
  | none => exact List.nil_sublist _
  | some x => exact List.Sublist.refl _

theorem keys_atten (o : Option (Option Rat)) :
    (keys (o.toList.flatMap (atten_steps conf))).Sublist ["denoise_atten_db"] := by
  cases o with
  | none => exact List.nil_sublist _
  | some atten => cases atten <;> exact List.Sublist.refl _

theorem field_keys_nodup (req : SettingsReq) : (keys (field_steps conf req)).Nodup := by
  cases req with
  | encoding req =>
      simp only [field_steps, EncodingSettings.switches, EncodingSettings.quality, puts_of_append, keys_append]
      apply List.Sublist.nodup
        ((((keys_field "movie_enabled" _ _).append (keys_field "movie_interval" _ _)).append
          ((keys_checked SCALE_KEY _ _ _ _).append
            ((keys_field CRF_KEY _ _).append (keys_checked PRESET_KEY _ _ _ _)))))
      decide
  | denoise req =>
      simp only [field_steps, keys_append]
      apply List.Sublist.nodup ((keys_checked "denoise_url" _ _ _ _).append
        ((keys_field "denoise_enabled" _ _).append (keys_atten _)))
      decide
  | subs req =>
      simp only [field_steps, keys_append]
      apply List.Sublist.nodup ((keys_checked "whisper_url" _ _ _ _).append (keys_field "subs_enabled" _ _))
      decide
  | sync req =>
      simp only [field_steps, SyncSettings.writes, puts_of_append, keys_append]
      apply List.Sublist.nodup ((((keys_field "sync_enabled" _ _).append (keys_field "sync_interval" _ _)).append
        (keys_field "sync_types" _ _)).append (keys_field "device_autoprune" _ _))
      decide
  | retention p =>
      show ((["retain_days", "retain_max_drives", "retain_gb"] : List Text)).Nodup
      decide

/-! ## When a rejected request changes nothing -/

variable (conf) in
/-- The writes have nothing to change, or one of them fails. -/
def Idle (t : SettingsTable) (ws : List (Text × Text)) : Prop :=
  (∃ w ∈ ws, conf.written w.1 = false) ∨ ∀ w ∈ ws, t.get? w.1 = some ⟨w.1, w.2⟩

variable (conf) in
/-- The fields before the refused one have nothing to change.  Only a movie request and a
denoise request have such fields. -/
def Harmless (t : SettingsTable) : SettingsReq → Prop
  | .encoding req =>
      (∀ s, req.scale = some s → s ∉ SCALES → Idle conf t req.switches) ∧
      ((∀ s, req.scale = some s → s ∈ SCALES) → ∀ p, req.preset = some p → p ∉ PRESETS →
        Idle conf t (req.switches ++ (field SCALE_KEY id req.scale ++ req.quality)))
  | .denoise req =>
      (∀ u, req.denoise_url = some u → url_ok (Text.trim u) = true) →
        ∀ v, req.atten_db = some (some v) → ¬ (0 ≤ v ∧ v ≤ 100) →
          Idle conf t (field "denoise_url" Text.trim req.denoise_url ++
            field "denoise_enabled" bit req.enabled)
  | .subs _ => True
  | .sync _ => True
  | .retention _ => True

variable (conf) in
/-- A request answered with a validation error leaves the table as it was. -/
def Unchanged (user : Accounts.User) (t : SettingsTable) (req : SettingsReq) : Prop :=
  ∀ m t', answer conf (handle conf user req) t = (.error (.BadRequest m), t') → t' = t

theorem error_of_does {p : Request SettingsOp α} {l : List Step} (does : Does conf p l) (e : AppError)
    (t t' : SettingsTable) : answer conf p t = (.error e, t') ↔ run_steps conf l t = (.error e, t') := by
  have here := does t
  cases ended : run_steps conf l t with
  | mk r u =>
      rw [ended] at here
      cases r with
      | error e' =>
          simp only at here
          rw [here]
          simp
      | ok v =>
          obtain ⟨a, done⟩ := here
          rw [done]
          simp

/-- After the check of the user, which repeats nothing, the fields decide. -/
theorem refusal_steps {user : Accounts.User} (admin : user.is_admin ≠ 0) (req : SettingsReq) :
    refusal (steps conf user req) = refusal (field_steps conf req) := by
  have passed : ∀ l, refusal (admin_check user :: l) = refusal l := fun l => by
    simp [admin_check, refusal, admin]
  have last : ∀ l, refusal (l ++ [admin_check user]) = refusal l := by
    intro l
    induction l with
    | nil => exact passed []
    | cons s l ih =>
        rw [List.cons_append]
        cases s <;> simp only [refusal, ih]
  cases req with
  | encoding req =>
      show refusal (admin_check user :: (field_steps conf (.encoding req) ++ [admin_check user])) = _
      rw [passed, last]
  | denoise req => exact passed _
  | subs req => exact passed _
  | sync req => exact passed _
  | retention p => exact passed _

theorem unchanged_iff_refusal {user : Accounts.User} (admin : user.is_admin ≠ 0) (t : SettingsTable)
    (req : SettingsReq) :
    Unchanged conf user t req ↔
      ∀ m ws, refusal (field_steps conf req) = some (.BadRequest m, ws) → Idle conf t ws := by
  unfold Unchanged Idle
  simp only [error_of_does (does_handle user req), refused_iff, refusal_steps admin]
  constructor
  · intro unchanged m ws first
    by_cases all : ∀ w ∈ ws, conf.written w.1 = true
    · right
      have distinct := (refusal_keys first).nodup (field_keys_nodup req)
      exact (stored_eq_iff t distinct).1 (unchanged m _ ⟨ws, first, all, rfl⟩)
    · left
      simpa using all
  · rintro idle m t' ⟨ws, first, all, rfl⟩
    have distinct := (refusal_keys first).nodup (field_keys_nodup req)
    apply (stored_eq_iff t distinct).2
    rcases idle m ws first with ⟨w, member, fails⟩ | held
    · rw [all w member] at fails
      cases fails
    · exact held

theorem idle_nil (t : SettingsTable) : Idle conf t [] := Or.inr (by simp)

theorem encoding_harmless (t : SettingsTable) (req : EncodingSettings) :
    (∀ m ws, refusal (field_steps conf (.encoding req)) = some (.BadRequest m, ws) → Idle conf t ws) ↔
      Harmless conf t (.encoding req) := by
  unfold field_steps Harmless
  rw [refusal_puts_append]
  by_cases wrong : ∃ s, req.scale = some s ∧ s ∉ SCALES
  · obtain ⟨s, given, bad⟩ := wrong
    rw [refusal_checked_bad given bad]
    constructor
    · intro idle
      refine ⟨fun _ _ _ => ?_, fun ok => absurd (ok s given) bad⟩
      simpa using idle "bad scale" req.switches (by simp)
    · rintro ⟨idle, -⟩ m ws first
      simp only [Option.map_some, List.append_nil, Option.some.injEq, Prod.mk.injEq] at first
      exact first.2 ▸ idle s given bad
  · have scales : ∀ s, req.scale = some s → s ∈ SCALES := fun s given => by
      by_contra bad
      exact wrong ⟨s, given, bad⟩
    rw [refusal_checked_ok fun s given bad => bad (scales s given), refusal_puts_append]
    by_cases preset : ∃ p, req.preset = some p ∧ p ∉ PRESETS
    · obtain ⟨p, given, bad⟩ := preset
      rw [← List.append_nil (checked PRESET_KEY _ _ _ _), refusal_checked_bad given bad]
      constructor
      · intro idle
        refine ⟨fun s here wrong => absurd (scales s here) wrong, fun _ _ _ _ => ?_⟩
        exact idle "bad preset" _ (by simp)
      · rintro ⟨-, idle⟩ m ws first
        simp only [Option.map_some, List.append_nil, Option.some.injEq, Prod.mk.injEq] at first
        exact first.2 ▸ idle scales p given bad
    · rw [← List.append_nil (checked PRESET_KEY _ _ _ _),
        refusal_checked_ok fun p given bad => preset ⟨p, given, bad⟩]
      constructor
      · intro
        exact ⟨fun s here wrong => absurd (scales s here) wrong,
          fun _ p given bad => absurd ⟨p, given, bad⟩ preset⟩
      · intro _ m ws first
        cases first

theorem denoise_harmless (t : SettingsTable) (req : DenoiseReq) :
    (∀ m ws, refusal (field_steps conf (.denoise req)) = some (.BadRequest m, ws) → Idle conf t ws) ↔
      Harmless conf t (.denoise req) := by
  unfold field_steps Harmless
  by_cases wrong : ∃ u, req.denoise_url = some u ∧ url_ok (Text.trim u) = false
  · obtain ⟨u, given, bad⟩ := wrong
    rw [refusal_checked_bad given bad]
    constructor
    · intro _ ok
      rw [ok u given] at bad
      cases bad
    · intro _ m ws first
      cases first
      exact idle_nil t
  · have urls : ∀ u, req.denoise_url = some u → ¬ url_ok (Text.trim u) = false :=
      fun u given bad => wrong ⟨u, given, bad⟩
    rw [refusal_checked_ok urls, refusal_puts_append]
    cases limit : req.atten_db with
    | none => simp [refusal, limit]
    | some atten =>
        cases atten with
        | none => simp [atten_steps, refusal, limit]
        | some v =>
            by_cases bad : ¬ (0 ≤ v ∧ v ≤ 100)
            · have first : refusal ((some (some v)).toList.flatMap (atten_steps conf)) =
                  some (.BadRequest "denoise attenuation must be 0-100 dB", []) := by
                simp [atten_steps, refusal, bad]
              rw [first]
              constructor
              · intro idle _ _ _ _
                exact idle "denoise attenuation must be 0-100 dB" _ (by simp)
              · intro idle m ws first
                simp only [Option.map_some, List.append_nil, Option.some.injEq, Prod.mk.injEq] at first
                exact first.2 ▸ idle (fun u given => by simpa using urls u given) v limit bad
            · have first : refusal ((some (some v)).toList.flatMap (atten_steps conf)) = none := by
                simp [atten_steps, refusal, bad]
              rw [first]
              constructor
              · intro _ _ w same wrong
                rw [limit] at same
                cases same
                exact absurd wrong bad
              · intro _ m ws first
                cases first

/-- A rejected request changes nothing exactly when the fields stored before the refused one
have nothing to change. -/
theorem rejected_unchanged_iff (user : Accounts.User) (t : SettingsTable) (req : SettingsReq) :
    Unchanged conf user t req ↔ (user.is_admin ≠ 0 → Harmless conf t req) := by
  by_cases admin : user.is_admin = 0
  · have forbidden : ∀ m t', answer conf (handle conf user req) t ≠ (.error (.BadRequest m), t') := by
      intro m t' ended
      rw [error_of_does (does_handle user req), refused_iff] at ended
      obtain ⟨ws, first, -⟩ := ended
      have early : refusal (steps conf user req) = some (.Forbidden "admin required", []) := by
        cases req <;> simp [steps, admin_check, refusal, admin]
      rw [early] at first
      cases first
    simp [Unchanged, forbidden, admin]
  · rw [unchanged_iff_refusal admin]
    simp only [ne_eq, admin, not_false_eq_true, forall_true_left]
    cases req with
    | encoding req => exact encoding_harmless t req
    | denoise req => exact denoise_harmless t req
    | subs req =>
        simp only [Harmless, iff_true]
        intro m ws first
        by_cases wrong : ∃ u, req.whisper_url = some u ∧ url_ok (Text.trim u) = false
        · obtain ⟨u, given, bad⟩ := wrong
          unfold field_steps at first
          rw [refusal_checked_bad given bad] at first
          cases first
          exact idle_nil t
        · unfold field_steps at first
          rw [refusal_checked_ok fun u given bad => wrong ⟨u, given, bad⟩, refusal_puts] at first
          cases first
    | sync req => simp [Harmless, field_steps]
    | retention p =>
        simp only [Harmless, iff_true]
        intro m ws first
        unfold field_steps refusal at first
        by_cases bad : p.days < 0 ∨ p.max_drives < 0 ∨ p.max_gb < 0
        · simp only [bad, decide_true, if_true, Option.some.injEq, Prod.mk.injEq] at first
          exact first.2 ▸ idle_nil t
        · simp [bad] at first

/-- An administrator of an installation with default settings, and a database that works. -/
private def default_conf : Conf where
  readable := fun _ => true
  written := fun _ => true
  reachable := fun _ => false
  f64_text := fun _ => []
  sync_enabled := true
  sync_interval_secs := 0
  sync_fullres := false
  device_autoprune := false
  movie_enabled := true
  movie_interval_secs := 120
  subs_enabled := false
  whisper_url := []
  denoise_enabled := false
  denoise_url := []
  denoise_atten_db := none

private def settings_admin : Accounts.User := { id := 1, identity := "u", username := "u", is_admin := 1 }

/-- Turning the encoder off together with a scale that does not exist is refused, and the encoder
is off. -/
theorem off_with_bad_scale_is_stored :
    ¬ ∀ (conf : Conf) (user : Accounts.User) (t : SettingsTable) (req : SettingsReq),
      Unchanged conf user t req := by
  intro unchanged
  have same := unchanged default_conf settings_admin .empty
    (.encoding { enabled := some false, scale := some "bogus" }) "bad scale"
    (put_setting .empty "movie_enabled" "0") (by rfl)
  have held : (put_setting .empty "movie_enabled" "0").get? "movie_enabled" = none := by
    rw [same]
    rfl
  rw [get?_put_setting, if_pos rfl] at held
  cases held


end HomeConnect.Manage.Settings
