/-
# Media.Fetch -- what there is to fetch of a route

`Fetch` is a request to one of the handlers of `Media.Serve`.  `Serves` says that somebody,
with whatever ffmpeg comes up with, gets content for it; `Fetch.held` what files there have
to be.  Of a registered device they are the same (`serves_iff`): the device itself passes
every check.
-/
import HomeConnect.Drives.Finishes
import HomeConnect.Media.Disabled

namespace HomeConnect.Media

open HomeConnect.Theory HomeConnect.Storage HomeConnect.Drives

set_option autoImplicit false

inductive Fetch
  | connectdata (seg : Int) (file : Text)
  | transcode (seg : Int) (file : Text)
  | audio (seg : Int)
  | movie (cam : Text)
  | subs
deriving DecidableEq, Repr

namespace Fetch

def request (env : Env) (dongle ts : Text) (auth : Option Auth) : Fetch → Request Op Bytes
  | .connectdata seg file => Media.connectdata env dongle ts seg file auth
  | .transcode seg file => Media.transcode env dongle ts seg file auth
  | .audio seg => Media.audio env dongle ts seg auth
  | .movie cam => serve_movie env (fullname dongle ts) cam auth
  | .subs => serve_subs env (fullname dongle ts) auth

/-- The camera a file's name stands for. -/
def stem (ext file : Text) : Text := (Text.strip_suffix ext file).getD file

end Fetch

/-- Somebody who asks may get content. -/
def Serves (env : Env) (w : World) (dongle ts : Text) (fetch : Fetch) : Prop :=
  ∃ auth content w', Finishes env (fetch.request env dongle ts auth) w (.ok content) w'

/-! ## The files behind it -/

def blob_there (env : Env) (w : World) (name : BlobName) : Prop := (w.blobs.read (env.path name)).isSome

def cached_there (w : World) (name : TsName) : Prop := (w.transcode.read name.file).isSome

/-- There is the file, or what it is made from on request. -/
def Fetch.held (env : Env) (w : World) (dongle ts : Text) : Fetch → Prop
  | .connectdata seg file => blob_there env w (.segment dongle ts seg file)
  | .transcode seg file =>
      ∃ src, camera_source (stem ".ts" file) = some src ∧
        (cached_there w (cache_path dongle ts seg (stem ".ts" file)) ∨
          blob_there env w (.segment dongle ts seg src))
  | .audio seg =>
      cached_there w (audio_path dongle ts seg) ∨
        blob_there env w (.segment dongle ts seg "qcamera.ts")
  | .movie cam =>
      stem ".mp4" cam ∈ MOVIE_CAMS ∧ blob_there env w (.movie dongle ts (stem ".mp4" cam))
  | .subs => blob_there env w (.subs dongle ts)

section Steps

variable {env : Env} {w w' : World} {dongle ts : Text}

/-- A request that writes nothing leaves everything as it was. -/
theorem unchanged_of_finishes {α : Type} {p : Request Op α} {r : AppResult α}
    (finished : Finishes env p w r w') (none : Writes (fun _ => False) p) : w' = w := by
  refine Prog.Uses.ends (R := fun w w' : World => w' = w) (fun _ => rfl)
    (fun first second => second.trans first) (fun f o w allowed _ => ?_) none finished
  cases f with
  | read q => cases o <;> rfl
  | write s => exact (allowed.2 s rfl).elim
  | queue g => exact allowed.1.elim
  | encode inputs => cases o <;> rfl
  | probe => cases o <;> rfl

theorem serve_file_alone (name : BlobName) : alone env (serve_file env name) w =
    match w.blobs.read (env.path name) with
    | some bytes => (.ok bytes, w)
    | none => (.error (.NotFound "file not found"), w) := by
  have looked : alone env (Request.unwrap_or (select fun w => w.blobs.read (env.path name)) none) w =
      (.ok (w.blobs.read (env.path name)), w) := alone_unwrap_or _ (alone_select _ w)
  rw [serve_file, alone_bind_ok looked]
  cases w.blobs.read (env.path name) <;> rfl

theorem serve_cached_alone (name : TsName) : alone env (serve_cached name) w =
    match w.transcode.read name.file with
    | some bytes => (.ok bytes, w)
    | none => (.error (.NotFound "file not found"), w) := by
  have looked : alone env (Request.unwrap_or (select fun w => w.transcode.read name.file) none) w =
      (.ok (w.transcode.read name.file), w) := alone_unwrap_or _ (alone_select _ w)
  rw [serve_cached, alone_bind_ok looked]
  cases w.transcode.read name.file <;> rfl

theorem content_of_serve_file {name : BlobName} {content : Bytes}
    (served : Finishes env (serve_file env name) w (.ok content) w') : blob_there env w name := by
  have inside : Inside (serve_file env name) := by
    refine .bind (Inside.unwrap_or (.select _) _) fun found => ?_
    cases found <;> trivial
  have ran := served.alone inside
  rw [serve_file_alone] at ran
  unfold blob_there
  cases found : w.blobs.read (env.path name) with
  | some bytes => rfl
  | none =>
      rw [found] at ran
      cases ran

theorem serve_file_of_there {name : BlobName} (there : blob_there env w name) :
    ∃ content, Finishes env (serve_file env name) w (.ok content) w := by
  obtain ⟨content, found⟩ := Option.isSome_iff_exists.1 there
  refine ⟨content, .of_alone ?_⟩
  rw [serve_file_alone, found]

variable (env) in
theorem serve_cached_of_there {name : TsName} (there : cached_there w name) :
    ∃ content, Finishes env (serve_cached name) w (.ok content) w := by
  obtain ⟨content, found⟩ := Option.isSome_iff_exists.1 there
  refine ⟨content, .of_alone ?_⟩
  rw [serve_cached_alone, found]

variable (env w) in
theorem ts_exists_alone (name : TsName) :
    alone env (ts_exists name) w = (.ok (w.transcode.read name.file).isSome, w) :=
  alone_unwrap_or false (alone_select _ w)

/-- What is returned was there, or its source was. -/
theorem there_of_ensure_cached {out name : TsName} {src : BlobName} {missing failed : Text}
    {run : Request Op Bool}
    (ended : Finishes env (ensure_cached env out src missing failed run) w (.ok name) w') :
    cached_there w out ∨ blob_there env w src := by
  have inside : Inside (ts_exists out) := Inside.unwrap_or (.select _) _
  have ended := ended.after inside (ts_exists_alone env w out)
  by_cases cached : (w.transcode.read out.file).isSome = true
  · exact .inl cached
  · right
    rw [if_neg cached] at ended
    have ended := ended.after (Inside.blob_exists src) (alone_blob_exists src w)
    by_cases stored : (w.blobs.read (env.path src)).isSome = true
    · exact stored
    · simp only [Request.err_if, stored] at ended
      cases ended.throw.1

/-- And with a source there is something to return, if the encoder comes up with it. -/
theorem ensure_cached_of_there {out : TsName} {src : BlobName} {missing failed : Text}
    {run : Request Op Bool}
    (runs : ∃ w₁, Finishes env run w (.ok true) w₁ ∧ cached_there w₁ out.temp)
    (there : cached_there w out ∨ blob_there env w src) :
    ∃ w', Finishes env (ensure_cached env out src missing failed run) w (.ok out) w' ∧
      cached_there w' out := by
  have looked := Finishes.of_alone (ts_exists_alone env w out)
  by_cases cached : (w.transcode.read out.file).isSome = true
  · refine ⟨w, .bind looked ?_, cached⟩
    rw [if_pos cached]
    exact .of_alone rfl
  · have stored : (w.blobs.read (env.path src)).isSome = true := there.resolve_left cached
    obtain ⟨w₁, ran, written⟩ := runs
    obtain ⟨bytes, here⟩ := Option.isSome_iff_exists.1 written
    let after : World := { w₁ with
      transcode := (w₁.transcode.remove out.temp.file).write out.file bytes
      transcoded := out :: w₁.transcoded }
    have moved : Write.exec env (.ts_rename out.temp out) w₁ = some after := by
      simp only [Write.exec, here, Option.map_some, after]
    have found : Finishes env (blob_exists env src) w (.ok true) w :=
      .of_alone (by rw [alone_blob_exists, stored])
    refine ⟨after, .bind looked ?_, ?_⟩
    · rw [if_neg cached]
      refine .bind found (.bind (a := ()) (.of_alone rfl) (.bind looked ?_))
      rw [if_neg cached]
      refine .bind ran (.bind (a := ()) (.of_alone ?_) (.of_alone rfl))
      rw [alone_map_err, alone_execute moved]
      rfl
    · show (Dir.read ((w₁.transcode.remove out.temp.file).write out.file bytes) out.file).isSome = true
      rw [Dir.read_write, if_pos rfl]
      rfl

/-- ffmpeg may succeed, and its output is there then. -/
theorem run_ffmpeg_encodes (tmp : TsName) (inputs : List BlobName) :
    ∃ w₁, Finishes env (run_ffmpeg tmp inputs) w (.ok true) w₁ ∧ cached_there w₁ tmp := by
  let opened : World := { w with
    transcode := w.transcode.write tmp.file [], transcoded := tmp :: w.transcoded }
  let written : World := { opened with
    transcode := opened.transcode.write tmp.file [], transcoded := tmp :: opened.transcoded }
  have opens : Write.exec env (.ts_write tmp []) w = some opened := rfl
  have writes : Write.exec env (.ts_write tmp []) opened = some written := rfl
  refine ⟨written, .unwrap_or ?_ _, ?_⟩
  · refine .bind (.of_alone (alone_execute opens)) (.bind (.encoded inputs []) ?_)
    exact .bind (.of_alone (alone_execute writes)) (.of_alone rfl)
  · show (Dir.read (opened.transcode.write tmp.file []) tmp.file).isSome = true
    rw [Dir.read_write, if_pos rfl]
    rfl

theorem run_transcode_encodes (src : BlobName) (tmp : TsName) :
    ∃ w₁, Finishes env (run_transcode env src tmp) w (.ok true) w₁ ∧ cached_there w₁ tmp := by
  have chosen : ∃ device, alone env (current_device env) w = (.ok device, w) := by
    have looked : alone env (setting "transcode_device") w =
        (.ok ((w.db.settings.get? "transcode_device").map Setting.value), w) :=
      alone_unwrap_or none (alone_select _ w)
    rw [current_device, alone_bind_ok looked]
    split
    · split
      · exact ⟨none, rfl⟩
      · split <;> exact ⟨_, rfl⟩
    · exact ⟨_, rfl⟩
  obtain ⟨device, chosen⟩ := chosen
  obtain ⟨w₁, ran, there⟩ : ∃ w₁, Finishes env (run_ffmpeg tmp [src]) w (.ok true) w₁ ∧ cached_there w₁ tmp :=
    run_ffmpeg_encodes tmp [src]
  refine ⟨w₁, .bind (.of_alone chosen) ?_, there⟩
  cases device with
  | none => exact ran
  | some gpu => exact .bind ran (.of_alone rfl)

/-- The device's own token. -/
def own_token (device : Accounts.Device) : Auth :=
  { identity := device.dongle_id, device := some device }

variable (env) in
theorem own_token_passes {device : Accounts.Device} (name : Text)
    (known : w.db.accounts.devices.get? dongle = some device) :
    alone env (check_route_access name dongle (some (own_token device))) w = (.ok (), w) := by
  have viewed : alone env (can_view_route (own_token device) dongle) w = (.ok true, w) := by
    have loaded : alone env (load_device dongle) w = (.ok (some device), w) := by
      rw [← known]
      exact alone_select _ w
    rw [can_view_route, alone_bind_ok loaded]
    show (Except.ok (decide (device.dongle_id = device.dongle_id)), w) = _
    rw [decide_eq_true rfl]
  rw [check_route_access, alone_bind_ok (alone_select _ w)]
  split
  · rfl
  · rw [alone_bind_ok viewed]
    rfl

/-- Past the check nothing has changed. -/
theorem after_check {name : Text} {auth : Option Auth} {rest : Request Op Bytes} {content : Bytes}
    (ended : Finishes env (check_route_access name dongle auth >>= fun _ => rest) w (.ok content) w') :
    Finishes env rest w (.ok content) w' := by
  rcases ended.cases with ⟨_, w₁, checked, ended⟩ | ⟨e, _, is⟩
  · rw [unchanged_of_finishes checked (writes_check_route_access _ _ _)] at ended
    exact ended
  · cases is

end Steps

/-! ## Both are the same -/

theorem serve_movie_eq (env : Env) {dongle : Text} (plain : '|' ∉ dongle) (ts cam : Text)
    (auth : Option Auth) :
    serve_movie env (fullname dongle ts) cam auth =
      check_route_access (fullname dongle ts) dongle auth >>= fun _ =>
        Request.err_if (Fetch.stem ".mp4" cam ∉ MOVIE_CAMS) (.BadRequest "unknown camera") >>= fun _ =>
          serve_file env (.movie dongle ts (Fetch.stem ".mp4" cam)) := by
  unfold serve_movie
  rw [split_fullname, fullname_split plain]
  rfl

theorem serve_subs_eq (env : Env) {dongle : Text} (plain : '|' ∉ dongle) (ts : Text)
    (auth : Option Auth) :
    serve_subs env (fullname dongle ts) auth =
      check_route_access (fullname dongle ts) dongle auth >>= fun _ =>
        serve_file env (.subs dongle ts) := by
  unfold serve_subs
  rw [split_fullname, fullname_split plain]
  rfl

theorem serves_iff {env : Env} {w : World} {dongle ts : Text} {device : Accounts.Device}
    (known : w.db.accounts.devices.get? dongle = some device) (plain : '|' ∉ dongle) (fetch : Fetch) :
    Serves env w dongle ts fetch ↔ fetch.held env w dongle ts := by
  have passes := Finishes.of_alone (own_token_passes env (fullname dongle ts) known)
  constructor
  · rintro ⟨auth, content, w', ended⟩
    cases fetch with
    | connectdata seg file => exact content_of_serve_file (after_check ended)
    | transcode seg file =>
        rcases (after_check ended).cases with ⟨name, w₁, ensured, _⟩ | ⟨e, _, is⟩
        · have ensured : Finishes env (ensure_transcode env dongle ts seg (Fetch.stem ".ts" file)) w
              (.ok name) w₁ := ensured
          unfold ensure_transcode at ensured
          cases source : camera_source (Fetch.stem ".ts" file) with
          | none =>
              rw [source] at ensured
              cases ensured.throw.1
          | some src =>
              rw [source] at ensured
              exact ⟨src, source, there_of_ensure_cached ensured⟩
        · cases is
    | audio seg =>
        rcases (after_check ended).cases with ⟨name, w₁, ensured, _⟩ | ⟨e, _, is⟩
        · exact there_of_ensure_cached ensured
        · cases is
    | movie cam =>
        have ended : Finishes env (serve_movie env (fullname dongle ts) cam auth) w (.ok content) w' :=
          ended
        rw [serve_movie_eq env plain] at ended
        have ended := after_check ended
        by_cases listed : Fetch.stem ".mp4" cam ∈ MOVIE_CAMS
        · rw [Request.err_if, if_neg (not_not_intro listed)] at ended
          exact ⟨listed, content_of_serve_file ended⟩
        · rw [Request.err_if, if_pos listed] at ended
          cases ended.throw.1
    | subs =>
        have ended : Finishes env (serve_subs env (fullname dongle ts) auth) w (.ok content) w' := ended
        rw [serve_subs_eq env plain] at ended
        exact content_of_serve_file (after_check ended)
  · intro held
    refine ⟨some (own_token device), ?_⟩
    cases fetch with
    | connectdata seg file =>
        obtain ⟨content, served⟩ := serve_file_of_there held
        exact ⟨content, w, passes.bind served⟩
    | transcode seg file =>
        obtain ⟨src, source, there⟩ := held
        have ensured : ∃ w₁, Finishes env (ensure_transcode env dongle ts seg (Fetch.stem ".ts" file)) w
            (.ok (cache_path dongle ts seg (Fetch.stem ".ts" file))) w₁ ∧
            cached_there w₁ (cache_path dongle ts seg (Fetch.stem ".ts" file)) := by
          unfold ensure_transcode
          rw [source]
          exact ensure_cached_of_there (run_transcode_encodes _ _) there
        obtain ⟨w₁, ensured, cached⟩ := ensured
        obtain ⟨content, served⟩ := serve_cached_of_there env cached
        exact ⟨content, w₁, passes.bind (ensured.bind served)⟩
    | audio seg =>
        obtain ⟨w₁, ensured, cached⟩ : ∃ w₁, Finishes env (ensure_audio env dongle ts seg) w
            (.ok (audio_path dongle ts seg)) w₁ ∧ cached_there w₁ (audio_path dongle ts seg) :=
          ensure_cached_of_there (run_ffmpeg_encodes _ _) held
        obtain ⟨content, served⟩ := serve_cached_of_there env cached
        exact ⟨content, w₁, passes.bind (ensured.bind served)⟩
    | movie cam =>
        obtain ⟨listed, there⟩ := held
        obtain ⟨content, served⟩ := serve_file_of_there there
        refine ⟨content, w, ?_⟩
        show Finishes env (serve_movie env (fullname dongle ts) cam _) w _ w
        rw [serve_movie_eq env plain]
        refine passes.bind (.bind (a := ()) (.of_alone ?_) served)
        rw [Request.err_if, if_neg (not_not_intro listed)]
        rfl
    | subs =>
        obtain ⟨content, served⟩ := serve_file_of_there held
        refine ⟨content, w, ?_⟩
        show Finishes env (serve_subs env (fullname dongle ts) _) w _ w
        rw [serve_subs_eq env plain]
        exact passes.bind served

end HomeConnect.Media
