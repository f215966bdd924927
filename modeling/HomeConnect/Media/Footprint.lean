/-
# Media.Footprint -- what transcodes and builds may write

A transcode or audio extract writes its one cached file and the temporary file beside it
(`Caches`); building a movie or a transcript
writes its one blob and records it.  A sweep builds for any route, and movies for the four
cameras only.
-/
import HomeConnect.Media.Subs
import HomeConnect.Media.Transcode

namespace HomeConnect.Media

open HomeConnect.Theory HomeConnect.Storage HomeConnect.Drives

set_option autoImplicit false

/-- What building a camera's movie may write. -/
def MovieWrite (dongle ts cam : Text) : Write → Prop
  | .blob_put name _ => name = .movie dongle ts cam
  | .record_movie name c _ _ _ => name = fullname dongle ts ∧ c = cam
  | _ => False

/-- What building a transcript may write. -/
def SubsWrite (dongle ts : Text) : Write → Prop
  | .blob_put name _ => name = .subs dongle ts
  | .record_subs name _ _ _ => name = fullname dongle ts
  | _ => False

variable {allowed : Write → Prop} (env : Env)

theorem writes_setting (key : Text) : Writes allowed (setting key) :=
  Writes.unwrap_or (.select _) _

theorem writes_toggle (key : Text) (default : Bool) : Writes allowed (toggle key default) := by
  refine .bind (writes_setting key) fun s => ?_
  split <;> exact .pure _

theorem writes_encode (inputs : List BlobName) : Writes allowed (encode inputs) :=
  ⟨⟨trivial, fun s is => (by cases is)⟩, fun _ => trivial⟩

theorem writes_probe : Writes allowed probe_duration :=
  ⟨⟨trivial, fun s is => (by cases is)⟩, fun _ => trivial⟩

/-! ## Transcodes -/

theorem writes_ts_exists (name : TsName) : Writes allowed (ts_exists name) :=
  Writes.unwrap_or (.select _) _

/-- What caching an output may write. -/
def Caches (out : TsName) (s : Write) : Prop :=
  (∃ bytes, s = .ts_write out.temp bytes) ∨ s = .ts_rename out.temp out ∨ s = .ts_remove out.temp

theorem writes_run_ffmpeg (out : TsName) (inputs : List BlobName) :
    Writes (Caches out) (run_ffmpeg out.temp inputs) := by
  refine Writes.unwrap_or (.bind (.execute (.inl ⟨[], rfl⟩)) fun _ => ?_) _
  refine .bind (writes_encode inputs) fun output => ?_
  cases output with
  | none => exact .pure _
  | some bytes => exact .bind (.execute (.inl ⟨bytes, rfl⟩)) fun _ => .pure _

theorem writes_run_transcode (src : BlobName) (out : TsName) :
    Writes (Caches out) (run_transcode env src out.temp) := by
  refine .bind ?_ fun device => ?_
  · refine .bind (writes_setting _) fun s => ?_
    split
    · exact .ite (.pure _) (.ite (.pure _) (.pure _))
    · exact .pure _
  · cases device with
    | none => exact writes_run_ffmpeg out _
    | some gpu =>
        refine .bind (writes_run_ffmpeg out _) fun ok => .ite (.pure _) ?_
        exact .bind (.attempt (.inr (.inr rfl))) fun _ => writes_run_ffmpeg out _

/-- Only the cached file and its temporary file are written. -/
theorem writes_ensure_cached (out : TsName) (src : BlobName) (missing failed : Text)
    {run : Request Op Bool} (runs : Writes (Caches out) run) :
    Writes (Caches out) (ensure_cached env out src missing failed run) := by
  refine .bind (writes_ts_exists out) fun there => .ite (.pure _) ?_
  refine .bind (.blob_exists env src) fun stored => .bind (.err_if _ _) fun _ => ?_
  refine .bind (writes_ts_exists out) fun again => .ite (.pure _) ?_
  refine .bind runs fun ok => .ite ?_ ?_
  · exact .bind (Writes.map_err (.execute (.inr (.inl rfl))) _) fun _ => .pure _
  · exact .bind (.attempt (.inr (.inr rfl))) fun _ => .throw _

theorem writes_ensure_transcode (dongle ts : Text) (seg : Int) (cam : Text) :
    Writes (Caches (cache_path dongle ts seg cam)) (ensure_transcode env dongle ts seg cam) := by
  rw [ensure_transcode]
  split
  · exact .throw _
  · exact writes_ensure_cached env _ _ _ _ (writes_run_transcode env _ _)

theorem writes_ensure_audio (dongle ts : Text) (seg : Int) :
    Writes (Caches (audio_path dongle ts seg)) (ensure_audio env dongle ts seg) :=
  writes_ensure_cached env _ _ _ _ (writes_run_ffmpeg _ _)

/-! ## Movies -/

theorem mem_movie_cams {cam src : Text} (found : source_file cam = some src) : cam ∈ MOVIE_CAMS := by
  unfold source_file at found
  by_cases q : cam = "qcamera"
  · rw [q]; decide
  · by_cases f : cam = "fcamera"
    · rw [f]; decide
    · by_cases d : cam = "dcamera"
      · rw [d]; decide
      · by_cases e : cam = "ecamera"
        · rw [e]; decide
        · rw [if_neg q, if_neg f, if_neg d, if_neg e] at found
          cases found

theorem writes_usable (dongle ts file : Text) (segs : List Int) :
    Writes allowed (usable env dongle ts file segs) := by
  induction segs with
  | nil => exact .pure _
  | cons n rest ih =>
      exact .bind (Writes.unwrap_or (.select _) _) fun _ => .bind ih fun _ => .pure _

theorem writes_segments_with_cam (name cam : Text) :
    Writes allowed (segments_with_cam name cam) := by
  rw [segments_with_cam]
  split
  · exact .select _
  · exact .throw _

section Movie

variable (dongle ts cam : Text)

theorem writes_record_movie (seg_count bytes : Int) (duration : Rat) :
    Writes (MovieWrite dongle ts cam) (record_movie (fullname dongle ts) cam seg_count bytes duration) :=
  .attempt ⟨rfl, rfl⟩

theorem writes_movie_failed (seg_count : Int) (e : AppError) :
    Writes (MovieWrite dongle ts cam) (movie_failed (fullname dongle ts) cam seg_count e) :=
  .bind (writes_record_movie dongle ts cam seg_count 0 0) fun _ => .throw e

theorem writes_publish_movie (seg_count : Int) (output : Bytes) :
    Writes (MovieWrite dongle ts cam) (publish_movie env dongle ts cam seg_count output) := by
  refine .bind (.map_err ?_ _) fun _ => .bind (.unwrap_or (.select _) _) fun size => ?_
  · exact .execute rfl
  · exact .bind writes_probe fun duration => writes_record_movie dongle ts cam seg_count size duration

theorem writes_encode_and_publish (seg_count : Int) (v_paths : List BlobName) :
    Writes (MovieWrite dongle ts cam) (encode_and_publish env dongle ts cam seg_count v_paths) := by
  refine .bind (Writes.unwrap_or (writes_segments_with_cam _ _) _) fun qsegs => ?_
  refine .bind (writes_usable env _ _ _ _) fun a_paths => .bind ?_ fun output => ?_
  · refine .bind (writes_encode _) fun output => ?_
    cases output with
    | some bytes => exact .pure _
    | none => exact .bind (writes_toggle _ _) fun _ => .ite (writes_encode _) (.pure _)
  · cases output with
    | some bytes => exact writes_publish_movie env dongle ts cam seg_count bytes
    | none =>
        exact .bind (writes_toggle _ _) fun _ =>
          .ite (writes_movie_failed dongle ts cam seg_count _) (.throw _)

/-- A movie is built for one of the four cameras, and nothing else is written. -/
theorem writes_build_movie :
    Writes (fun s => cam ∈ MOVIE_CAMS ∧ MovieWrite dongle ts cam s) (build_movie env dongle ts cam) := by
  rw [build_movie]
  split
  · exact .throw _
  · rename_i src found
    have known := mem_movie_cams found
    refine Writes.mono ?_ fun s movie => ⟨known, movie⟩
    refine .bind (writes_segments_with_cam _ _) fun segs => .bind (.err_if _ _) fun _ => ?_
    refine .bind (writes_usable env _ _ _ _) fun v_paths => .ite ?_ ?_
    · exact writes_movie_failed dongle ts cam _ _
    · exact writes_encode_and_publish env dongle ts cam _ v_paths

end Movie

/-- What building some camera's movie of some route may write. -/
def SomeMovieWrite (s : Write) : Prop :=
  ∃ dongle ts cam, cam ∈ MOVIE_CAMS ∧ MovieWrite dongle ts cam s

theorem writes_build_movies (todo : List MovieTodo) : Writes SomeMovieWrite (build_movies env todo) := by
  induction todo with
  | nil => exact .pure _
  | cons m rest ih =>
      refine .bind (writes_toggle _ _) fun enabled => .ite (.bind ?_ fun _ => ih) (.pure _)
      exact Writes.ignore ((writes_build_movie env m.dongle m.ts m.cam).mono fun s movie =>
        ⟨m.dongle, m.ts, m.cam, movie⟩)

theorem writes_movie_sweep : Writes SomeMovieWrite (movie_sweep env) := by
  refine .bind (.select _) fun routes => ?_
  refine .bind (Writes.unwrap_or (.select _) _) fun built => ?_
  refine .bind (Writes.unwrap_or (.select _) _) fun segs => .bind ?_ fun todo => ?_
  · generalize movie_candidates routes = candidates
    induction candidates with
    | nil => exact .pure _
    | cons m rest ih =>
        refine .bind ?_ fun needed => .bind ih fun _ => .pure _
        rw [needs_movie]
        refine .ite (.pure _) ?_
        split
        · exact .pure _
        · exact .ite (.pure _) (.ite (.ite (.pure _) (.bind (.blob_exists env _) fun _ => .pure _)) (.pure _))
  · exact writes_build_movies env todo

/-! ## Transcripts -/

section Subs

variable (dongle ts : Text)

theorem writes_subs_failed {α : Type} (seg_count : Int) (e : AppError) :
    Writes (SubsWrite dongle ts) (subs_failed (fullname dongle ts) seg_count e : Request Op α) :=
  .bind (.attempt rfl) fun _ => .throw e

theorem writes_transcribe_chunks (seg_count : Int) (chunks : Nat) :
    Writes (SubsWrite dongle ts) (transcribe_chunks env (fullname dongle ts) seg_count chunks) := by
  induction chunks with
  | zero => exact .pure _
  | succ chunks ih =>
      refine .bind (writes_toggle _ _) fun enabled => .bind (.err_if _ _) fun _ => ?_
      refine .bind (writes_encode _) fun slice => ?_
      cases slice with
      | none => exact .pure _
      | some audio =>
          refine .bind (writes_encode _) fun vtt => ?_
          cases vtt with
          | none => exact writes_subs_failed dongle ts seg_count _
          | some body => exact .bind ih fun _ => .pure _

theorem writes_build_subs : Writes (SubsWrite dongle ts) (build_subs env dongle ts) := by
  refine .bind (Writes.unwrap_or (.select _) _) fun segs => ?_
  refine .bind (writes_usable env _ _ _ _) fun paths => .ite (writes_subs_failed dongle ts _ _) ?_
  refine .bind (writes_encode _) fun audio => ?_
  cases audio with
  | none => exact writes_subs_failed dongle ts _ _
  | some bytes =>
      refine .bind writes_probe fun total => .bind ?_ fun url => .bind (.err_if _ _) fun _ => ?_
      · exact .bind (writes_setting _) fun _ => .pure _
      · refine .bind (writes_transcribe_chunks env dongle ts _ _) fun bodies => ?_
        refine .bind (.map_err ?_ _) fun _ => .attempt rfl
        exact .execute rfl

end Subs

/-- What building some route's transcript may write. -/
def SomeSubsWrite (s : Write) : Prop := ∃ dongle ts, SubsWrite dongle ts s

theorem writes_subs_sweep : Writes SomeSubsWrite (subs_sweep env) := by
  refine .bind (.select _) fun routes => ?_
  refine .bind (Writes.unwrap_or (.select _) _) fun built => ?_
  refine .bind (Writes.unwrap_or (.select _) _) fun segs => ?_
  induction routes with
  | nil => exact .pure _
  | cons route rest ih =>
      refine .bind (writes_toggle _ _) fun enabled => .ite (.bind ?_ fun _ => ih) (.pure _)
      rw [sweep_route]
      split
      · exact .pure _
      · rename_i dongle ts split
        refine .bind ?_ fun needed => .ite ?_ (.pure _)
        · rw [needs_subs]
          refine .ite (.pure _) ?_
          split
          · exact .pure _
          · exact .ite (.pure _) (.ite (.ite (.pure _) (.bind (.blob_exists env _) fun _ => .pure _)) (.pure _))
        · exact Writes.ignore ((writes_build_subs env route.2 ts).mono fun s subs =>
            ⟨route.2, ts, subs⟩)

/-! ## The ends of paths -/

variable {env}

/-- The last four characters of a path's name. -/
def ending (path : BlobPath) : Text := path.name.reverse.take 4

theorem ending_path {name : BlobName} (front last : Text) (is : name.key = front ++ last)
    (long : 4 ≤ last.length) : ending (env.path name) = (sanitize last).reverse.take 4 := by
  show (sanitize name.key).reverse.take 4 = _
  have enough : 4 ≤ (sanitize last).reverse.length := by
    rw [List.length_reverse, sanitize, List.length_map]
    exact long
  rw [is, sanitize, List.map_append, List.reverse_append]
  exact List.take_append_of_le_length enough

variable (env)

theorem ending_movie (dongle ts cam : Text) : ending (env.path (.movie dongle ts cam)) = "4pm." :=
  ending_path (dongle ++ "_" ++ ts ++ "--movie--" ++ cam) ".mp4" rfl (by decide)

theorem ending_subs (dongle ts : Text) : ending (env.path (.subs dongle ts)) = "ttv." :=
  ending_path (dongle ++ "_" ++ ts) "--subs--en.vtt" rfl (by decide)

theorem ending_segment {f : Text} (dongle ts : Text) (seg : Int) (long : 4 ≤ f.length) :
    ending (env.path (.segment dongle ts seg f)) = (sanitize f).reverse.take 4 :=
  ending_path (dongle ++ "_" ++ ts ++ "--" ++ Text.decimal seg ++ "--") f rfl long

end HomeConnect.Media
