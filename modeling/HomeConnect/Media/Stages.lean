/-
# Media.Stages -- the stages of the pipelines are those of their programs

`Media.Reencode` has both pipelines as one system of stages, where another task can come
between any two; `Media.Movies` and `Media.Subs` have each as a program over the whole server.
`Sees` says that the stages have the server's rows and outputs before them.  A sweep's stages
skip the outputs that the program skips (`needs_movie_staged`), and what a build, a deletion or a
rebuild of everything comes to as a program, whatever ffmpeg and whisper made of it, its stages
come to by themselves (`build_movie_staged`, `build_subs_staged`, `reencode_all_staged`).
-/
import HomeConnect.Media.Once
import HomeConnect.Media.Reencode
import Mathlib.Logic.Relation

namespace HomeConnect.Media.Stages

open HomeConnect.Theory HomeConnect.Storage HomeConnect.Drives HomeConnect.Media

set_option autoImplicit false

/-! ## What the stages see of the server -/

def movie_row (m : Movie) : Reencode.Row (Text × Text) :=
  ⟨m.id, m.seg_count, m.bytes, decide (m.disabled = 1)⟩

def subs_row (s : Subs) : Reencode.Row Text :=
  ⟨s.fullname, s.seg_count, s.bytes, decide (s.disabled = 1)⟩

def movie_rows (w : World) : Reencode.Rows (Text × Text) := w.db.movies.map movie_row fun _ => rfl

def subs_rows (w : World) : Reencode.Rows Text := w.db.subs.map subs_row fun _ => rfl

/-- The stages have these rows and the outputs of this store, and no build is under way. -/
structure Sees {K : Type} [DecidableEq K] (rows : Reencode.Rows K) (blobs : Dir BlobPath)
    (s : Reencode.World K BlobPath) : Prop where
  rows : s.rows = rows
  blobs : ∀ n, (s.blobs n).map Reencode.Blob.size = (blobs.read n).map fun b => (b.length : Int)
  idle : s.building = none

section Writes

variable (env : Env) {w w' : World} {name cam : Text} {seg_count bytes : Int}

theorem movie_rows_record {duration : Rat}
    (done : Write.exec env (.record_movie name cam seg_count bytes duration) w = some w') :
    movie_rows w' = Reencode.record (movie_rows w) (name, cam) seg_count bytes := by
  cases done
  exact Table.map_upsert _ _ _ _ fun _ => rfl

theorem movie_rows_disable (done : Write.exec env (.disable_movie name cam) w = some w') :
    movie_rows w' = Reencode.disable_row (movie_rows w) (name, cam) := by
  cases done
  exact Table.map_upsert _ _ _ _ fun _ => rfl

theorem movie_rows_delete (done : Write.exec env (.delete_movie name cam) w = some w') :
    movie_rows w' = (movie_rows w).delete fun r => decide (r.key = (name, cam)) := by
  cases done
  exact Table.map_delete _ fun _ _ => rfl

/-- `disabled` holds 0 or 1. -/
def Marked (w : World) : Prop := ∀ m ∈ w.db.movies.rows, m.disabled = 0 ∨ m.disabled = 1

theorem enabled_of_marked (marked : Marked w) {m : Movie} (member : m ∈ w.db.movies.rows) :
    (!(movie_row m).disabled) = decide (m.disabled = 0) := by
  rcases marked m member with zero | one
  · simp [movie_row, zero]
  · simp [movie_row, one]

theorem movie_rows_delete_enabled (marked : Marked w)
    (done : Write.exec env .delete_enabled_movies w = some w') :
    movie_rows w' = (movie_rows w).delete fun r => !r.disabled := by
  cases done
  exact Table.map_delete _ fun m member => enabled_of_marked marked member

theorem subs_rows_record {cues : Int}
    (done : Write.exec env (.record_subs name seg_count cues bytes) w = some w') :
    subs_rows w' = Reencode.record (subs_rows w) name seg_count bytes := by
  cases done
  exact Table.map_upsert _ _ _ _ fun _ => rfl

theorem subs_rows_disable (done : Write.exec env (.disable_subs name) w = some w') :
    subs_rows w' = Reencode.disable_row (subs_rows w) name := by
  cases done
  exact Table.map_upsert _ _ _ _ fun _ => rfl

theorem subs_rows_delete (done : Write.exec env (.delete_subs name) w = some w') :
    subs_rows w' = (subs_rows w).delete fun r => decide (r.key = name) := by
  cases done
  exact Table.map_delete _ fun _ _ => rfl

end Writes

/-! ## A worker by itself -/

section Goes

variable {K N : Type} [DecidableEq K] [DecidableEq N] {pipeline : Reencode.Pipeline} {name : K → N}
  {s : Reencode.World K N} {w : Reencode.Sweep K} {key : K} {seg_count : Int} {rest todo : List K}

/-- The worker goes on, each step with some outcome and nothing else moving. -/
def Goes (pipeline : Reencode.Pipeline) (name : K → N) :
    Reencode.World K N × Reencode.Worker K → Reencode.World K N × Reencode.Worker K → Prop :=
  Relation.ReflTransGen fun x y => ∃ o, x.2.turn pipeline name o x.1 = some y

theorem Goes.step {x y z : Reencode.World K N × Reencode.Worker K} (o : Reencode.Outcome)
    (turned : x.2.turn pipeline name o x.1 = some y) (more : Goes pipeline name y z) : Goes pipeline name x z :=
  Relation.ReflTransGen.head ⟨o, turned⟩ more

/-- A build takes a step and keeps the permit. -/
theorem Goes.next {b : Reencode.Build K} {step : Reencode.BuildStep} {s' : Reencode.World K N}
    {z : Reencode.World K N × Reencode.Worker K} (o : Reencode.Outcome) (under : s.building = some b)
    (turned : b.turn pipeline name o s = s'.next b step)
    (more : Goes pipeline name (s'.next b step, .sweep (w.go (.inside rest todo))) z) :
    Goes pipeline name (s, .sweep (w.go (.inside rest todo))) z := by
  refine .step o ?_ more
  simp [Reencode.Worker.turn, Reencode.Sweep.turn, Reencode.Sweep.go, under, turned, Reencode.World.next]

/-- A build's last step. -/
theorem Goes.leave {b : Reencode.Build K} {s' : Reencode.World K N} (o : Reencode.Outcome)
    (under : s.building = some b) (turned : b.turn pipeline name o s = s') (left : s'.building = none) :
    Goes pipeline name (s, .sweep (w.go (.inside rest todo)))
      (s', .sweep (w.go (Reencode.Sweep.resume pipeline rest todo))) := by
  refine .step o ?_ .refl
  simp [Reencode.Worker.turn, Reencode.Sweep.turn, Reencode.Sweep.go, under, turned, left]

/-- The permit is free: the build starts, and comes to reading its settings. -/
theorem Goes.starts {z : Reencode.World K N × Reencode.Worker K} (idle : s.building = none)
    (more : Goes pipeline name ({ s with building := some ⟨key, seg_count, .settings s.cleared⟩ },
      .sweep (w.go (.inside rest todo))) z) :
    Goes pipeline name (s, .sweep (w.go (.wait key seg_count rest todo))) z := by
  refine .step (.done 0) (y := ({ s with building := some ⟨key, seg_count, .prepare⟩ },
    .sweep (w.go (.inside rest todo)))) ?_ ?_
  · simp [Reencode.Worker.turn, Reencode.Sweep.turn, Reencode.Sweep.go, idle]
  · exact .next (.done 0) rfl rfl (.next (.done 0) rfl rfl more)

/-- A stored movie is measured and recorded. -/
theorem goes_measured {blob : Reencode.Blob} {read_at : Nat}
    (under : s.building = some ⟨key, seg_count, .measure read_at⟩) (stored : s.blobs (name key) = some blob) :
    Goes .movie name (s, .sweep (w.go (.inside rest todo)))
      ({ s with rows := Reencode.record s.rows key seg_count blob.size, building := none },
        .sweep (w.go (Reencode.Sweep.resume .movie rest todo))) := by
  have turned : (⟨key, seg_count, .measure read_at⟩ : Reencode.Build K).turn .movie name (.done 0) s =
      s.next ⟨key, seg_count, .measure read_at⟩ (.record read_at blob.size) := by
    simp [Reencode.Build.turn, stored]
  exact .next (.done 0) under turned (.leave (.done 0) rfl rfl rfl)

/-- The build makes an output of this size, stores it and records it. -/
theorem goes_published (size : Int) (idle : s.building = none) :
    Goes pipeline name (s, .sweep (w.go (.wait key seg_count rest todo)))
      ({ s.put (name key) ⟨size, s.cleared⟩ with
          rows := Reencode.record s.rows key seg_count size, building := none },
        .sweep (w.go (Reencode.Sweep.resume pipeline rest todo))) := by
  apply Goes.starts idle
  cases pipeline with
  | movie =>
      refine .next (.done 0) rfl rfl (.next (.done 0) rfl rfl (.next (.done size) rfl rfl ?_))
      exact goes_measured (s := (s.put (name key) ⟨size, s.cleared⟩).next ⟨key, seg_count, .store s.cleared⟩
        (.measure s.cleared)) rfl (Function.update_self ..)
  | subs =>
      refine .next (.done 0) rfl rfl (.next (.done 0) rfl rfl (.next (.done size) rfl rfl ?_))
      exact .leave (.done 0) rfl rfl rfl

/-- The build fails, which is recorded. -/
theorem goes_failed (idle : s.building = none) :
    Goes pipeline name (s, .sweep (w.go (.wait key seg_count rest todo)))
      ({ s with rows := Reencode.record s.rows key seg_count 0, building := none },
        .sweep (w.go (Reencode.Sweep.resume pipeline rest todo))) := by
  apply Goes.starts idle
  cases pipeline with
  | movie =>
      exact .next (.done 0) rfl rfl (.next .failed rfl rfl (.leave (.done 0) rfl rfl rfl))
  | subs =>
      exact .next (.done 0) rfl rfl (.next .failed rfl rfl (.leave (.done 0) rfl rfl rfl))

/-- The build gives up, and leaves no record. -/
theorem goes_aborted (idle : s.building = none) :
    Goes pipeline name (s, .sweep (w.go (.wait key seg_count rest todo)))
      ({ s with building := none }, .sweep (w.go (Reencode.Sweep.resume pipeline rest todo))) := by
  apply Goes.starts idle
  cases pipeline with
  | movie =>
      exact .next (.done 0) rfl rfl (.leave .aborted rfl rfl rfl)
  | subs =>
      exact .next (.done 0) rfl rfl (.leave .aborted rfl rfl rfl)

/-- What the count of the drive's segments with the camera comes to. -/
def Counts (s : Reencode.World K N) (key : K) (found : Int) : Prop :=
  ((s.cover key).map Reencode.Cover.with_camera).getD 0 = found

/-- No segment has the camera. -/
theorem goes_nothing (counts : Counts s key 0) :
    Goes .movie name (s, .sweep (w.go (.count key rest todo))) (s, .sweep (w.go (.queue todo))) := by
  refine .step (.done 0) ?_ .refl
  unfold Counts at counts
  simp [Reencode.Worker.turn, Reencode.Sweep.turn, Reencode.Sweep.go, Reencode.Sweep.resume, counts]

/-- There is nothing to build from, which is recorded as a failure. -/
theorem goes_unusable {found : Int} (counts : Counts s key found) (unusable : s.usable key = false)
    (or_none : pipeline = .movie → found ≠ 0) :
    Goes pipeline name (s, .sweep (w.go (.count key rest todo)))
      ({ s with rows := Reencode.record s.rows key found 0 },
        .sweep (w.go (Reencode.Sweep.resume pipeline rest todo))) := by
  unfold Counts at counts
  have noted : Goes pipeline name (s, .sweep (w.go (.note key found rest todo)))
      ({ s with rows := Reencode.record s.rows key found 0 },
        .sweep (w.go (Reencode.Sweep.resume pipeline rest todo))) := .step (.done 0) rfl .refl
  refine .step (.done 0) ?_ noted
  cases pipeline with
  | movie =>
      simp [Reencode.Worker.turn, Reencode.Sweep.turn, Reencode.Sweep.go, counts, unusable, or_none rfl]
  | subs => simp [Reencode.Worker.turn, Reencode.Sweep.turn, Reencode.Sweep.go, counts, unusable]

/-- There is something to build from. -/
theorem goes_waits {found : Int} {z : Reencode.World K N × Reencode.Worker K} (counts : Counts s key found)
    (usable : s.usable key = true) (some_segment : found ≠ 0)
    (more : Goes pipeline name (s, .sweep (w.go (.wait key found rest todo))) z) :
    Goes pipeline name (s, .sweep (w.go (.count key rest todo))) z := by
  unfold Counts at counts
  refine .step (.done 0) ?_ more
  cases pipeline with
  | movie => simp [Reencode.Worker.turn, Reencode.Sweep.turn, Reencode.Sweep.go, counts, usable, some_segment]
  | subs => simp [Reencode.Worker.turn, Reencode.Sweep.turn, Reencode.Sweep.go, counts, usable, some_segment]

/-- `disable` and `delete`. -/
theorem goes_removed (disable : Bool) (key : K) :
    Goes pipeline name (s, .removal disable key .blob)
      ({ s.without (name key) with
          rows := if disable then Reencode.disable_row s.rows key else s.rows.delete fun r => decide (r.key = key) },
        .removal disable key .returned) :=
  .step (.done 0) rfl (.step (.done 0) rfl .refl)

/-- `reencode_all` and `rebuild_all`, after the rows are selected. -/
theorem goes_cleared (keys : List K) :
    Goes pipeline name (s, .call (.blobs keys))
      ({ keys.foldl (fun s key => s.without (name key)) s with
          rows := s.rows.delete fun r => !r.disabled, cleared := s.cleared + 1 }, .call .returned) := by
  induction keys generalizing s with
  | nil => exact .step (.done 0) rfl (.step (.done 0) rfl .refl)
  | cons key keys ih => exact .step (.done 0) rfl ih

end Goes

/-! ## What a program leaves, and what its stages leave -/

section Sees

variable {K : Type} [DecidableEq K] {rows rows' : Reencode.Rows K} {blobs : Dir BlobPath}
  {s : Reencode.World K BlobPath}

/-- A row is recorded. -/
theorem Sees.recorded (sees : Sees rows blobs s) {key : K} {seg_count bytes : Int}
    (is : rows' = Reencode.record rows key seg_count bytes) :
    Sees rows' blobs { s with rows := Reencode.record s.rows key seg_count bytes } :=
  ⟨by rw [is, ← sees.rows], sees.blobs, sees.idle⟩

/-- No build is left. -/
theorem Sees.left (sees : Sees rows blobs s) : Sees rows blobs { s with building := none } :=
  ⟨sees.rows, sees.blobs, rfl⟩

theorem Sees.put (sees : Sees rows blobs s) (path : BlobPath) (bytes : Bytes) (read_at : Nat) :
    Sees rows (blobs.write path bytes) (s.put path ⟨bytes.length, read_at⟩) := by
  refine ⟨sees.rows, fun n => ?_, sees.idle⟩
  rw [Dir.read_write]
  by_cases own : n = path
  · rw [if_pos own, own]
    simp [Reencode.World.put]
  · rw [if_neg own, ← sees.blobs n]
    simp [Reencode.World.put, own]

theorem Sees.without (sees : Sees rows blobs s) (path : BlobPath) :
    Sees rows (blobs.remove path) (s.without path) := by
  refine ⟨sees.rows, fun n => ?_, sees.idle⟩
  rw [Dir.read_remove]
  by_cases own : n = path
  · rw [if_pos own, own]
    simp [Reencode.World.without]
  · rw [if_neg own, ← sees.blobs n]
    simp [Reencode.World.without, own]

/-- What a deletion's two statements come to. -/
theorem Sees.removed {pipeline : Reencode.Pipeline} {name : K → BlobPath} (sees : Sees rows blobs s) (disable : Bool)
    (key : K) (is : rows' = if disable then Reencode.disable_row rows key else rows.delete fun r => decide (r.key = key)) :
    ∃ s', Goes pipeline name (s, .removal disable key .blob) (s', .removal disable key .returned) ∧
      Sees rows' (blobs.remove (name key)) s' := by
  refine ⟨_, goes_removed disable key, ?_, (sees.without _).blobs, sees.idle⟩
  rw [is, sees.rows]

end Sees


/-! ## What a sweep skips -/

/-- A sweep builds what covers the drive and was not attempted at this coverage. -/
theorem skips_eq_false_iff {K : Type} [DecidableEq K] {sweep : Reencode.Sweep K} {key : K} {stored : Bool}
    {total with_camera : Int} (cover : sweep.cover key = some ⟨total, with_camera⟩) :
    sweep.skips key stored = false ↔ (with_camera ≠ 0 ∧ with_camera = total) ∧
      ¬ ∃ row, sweep.built.get? key = some row ∧
        (row.disabled = true ∨ row.seg_count = total ∧ (row.bytes = 0 ∨ stored = true)) := by
  have covered : sweep.covered key = decide (with_camera ≠ 0 ∧ with_camera = total) := by
    unfold Reencode.Sweep.covered
    rw [cover]
    apply decide_eq_decide.2
    dsimp only
    constructor
    · rintro ⟨some_left, rfl⟩
      exact ⟨some_left, rfl⟩
    · rintro ⟨some_left, rfl⟩
      exact ⟨some_left, rfl⟩
  unfold Reencode.Sweep.skips
  rw [covered, Bool.or_eq_false_iff, Bool.not_eq_false', decide_eq_true_eq]
  apply and_congr_right
  intro _
  cases found : sweep.built.get? key with
  | none => simp
  | some row =>
      have attempted : sweep.attempted row = decide (row.seg_count = total) := by
        unfold Reencode.Sweep.attempted
        rw [Table.key_of_get? found, cover, decide_eq_decide, Option.map_some, Option.some_inj]
        exact eq_comm
      simp [attempted]

/-! ## Movies -/

section Movies

variable {env : Env} {w w' : World} {dongle ts cam : Text} {name : Text × Text → BlobPath}
  {s : Reencode.World (Text × Text) BlobPath}

/-- A build that runs by itself is one that the stages can run, from the sweep's count of the
segments on. -/
theorem build_movie_staged {src : Text} {col : UrlCol} {r : AppResult Unit}
    (source : source_file cam = some src) (column : cam_col cam = some col)
    (named : name (fullname dongle ts, cam) = env.path (.movie dongle ts cam))
    (sees : Sees (movie_rows w) w.blobs s)
    (counts : Counts s (fullname dongle ts, cam) (numbers_with col (fullname dongle ts) w).length)
    (usable : s.usable (fullname dongle ts, cam) = decide (video_numbers env dongle ts cam w ≠ []))
    (finished : Finishes env (build_movie env dongle ts cam) w r w') (sweep : Reencode.Sweep (Text × Text))
    (rest todo : List (Text × Text)) :
    ∃ s', Goes .movie name (s, .sweep (sweep.go (.count (fullname dongle ts, cam) rest todo)))
        (s', .sweep (sweep.go (.queue todo))) ∧ Sees (movie_rows w') w'.blobs s' := by
  have video : video_numbers env dongle ts cam w = (numbers_with col (fullname dongle ts) w).filter
      fun n => holds env w (.segment dongle ts n src) := by
    unfold video_numbers
    rw [source, column]
  have with_cam : segments_with_cam (fullname dongle ts) cam = select (numbers_with col (fullname dongle ts)) := by
    rw [segments_with_cam, column]
  rw [build_movie, source] at finished
  dsimp only at finished
  rw [with_cam] at finished
  have counted := finished.after (.select _) (alone_select _ w)
  generalize numbers_with col (fullname dongle ts) w = numbers at counts video counted
  by_cases none : numbers = []
  · -- no segment has the camera
    rw [Request.err_if, if_pos none, Request.throw_bind] at counted
    obtain ⟨_, rfl⟩ := counted.throw
    rw [none] at counts
    exact ⟨s, goes_nothing counts, sees⟩
  have some_segment : (numbers.length : Int) ≠ 0 := by simpa using none
  rw [Request.err_if, if_neg none] at counted
  have sources := counted.after (p := pure ()) trivial (alone_pure () w)
  have picked := sources.after (inside_usable _ _) (alone_usable _ _ _ _ w)
  rw [← video] at picked
  by_cases nothing : video_numbers env dongle ts cam w = []
  · -- nothing usable
    rw [if_pos (List.map_eq_nil_iff.2 nothing)] at picked
    have recorded := failed_records picked
    have unusable : s.usable (fullname dongle ts, cam) = false := by
      rw [usable, nothing]
      rfl
    refine ⟨_, goes_unusable counts unusable fun _ => some_segment, ?_⟩
    rw [Write.exec_blobs recorded]
    exact sees.recorded (movie_rows_record env recorded)
  rw [if_neg fun empty => nothing (List.map_eq_nil_iff.1 empty), encode_and_publish] at picked
  have present : s.usable (fullname dongle ts, cam) = true := by
    rw [usable]
    exact decide_eq_true nothing
  have audio := picked.after (.unwrap_or (inside_segments_with_cam _) _) (alone_unwrap_or [] (alone_select _ w))
  have both := audio.after (inside_usable _ _) (alone_usable _ _ _ _ w)
  obtain ⟨output, encoded⟩ := after_encode_movie both
  cases output with
  | some bytes =>
      obtain ⟨w₁, duration, put, recorded⟩ := published_records encoded
      refine ⟨_, goes_waits counts present some_segment (goes_published bytes.length sees.idle), ?_⟩
      rw [Write.exec_blobs recorded, Write.exec_blobs put, named]
      have same : movie_rows w₁ = movie_rows w := by
        cases put
        rfl
      refine ((sees.put _ bytes _).recorded ?_).left
      rw [← same]
      exact movie_rows_record env recorded
  | none =>
      dsimp only at encoded
      rw [movie_not_encoded] at encoded
      have on := encoded.after (.toggle _ _) (alone_toggle _ _ w)
      split at on
      · -- the encoder failed
        have recorded := failed_records on
        refine ⟨_, goes_waits counts present some_segment (goes_failed sees.idle), ?_⟩
        rw [Write.exec_blobs recorded]
        exact (sees.recorded (movie_rows_record env recorded)).left
      · -- movies were switched off
        obtain ⟨_, rfl⟩ := on.throw
        exact ⟨_, goes_waits counts present some_segment (goes_aborted sees.idle), sees.left⟩

/-- The user's deletion. -/
theorem disable_movie_staged (named : name (fullname dongle ts, cam) = env.path (.movie dongle ts cam))
    (sees : Sees (movie_rows w) w.blobs s) (ran : alone env (disable_movie dongle ts cam) w = (.ok (), w')) :
    ∃ s', Goes .movie name (s, .removal true (fullname dongle ts, cam) .blob)
        (s', .removal true (fullname dongle ts, cam) .returned) ∧ Sees (movie_rows w') w'.blobs s' := by
  rw [disable_movie, alone_bind_ok (alone_attempt rfl), alone_attempt rfl] at ran
  cases ran
  rw [← named]
  exact sees.removed true _ (movie_rows_disable env (w := { w with blobs := w.blobs.remove _ }) rfl)

theorem delete_movie_staged (named : name (fullname dongle ts, cam) = env.path (.movie dongle ts cam))
    (sees : Sees (movie_rows w) w.blobs s) (ran : alone env (delete_movie dongle ts cam) w = (.ok (), w')) :
    ∃ s', Goes .movie name (s, .removal false (fullname dongle ts, cam) .blob)
        (s', .removal false (fullname dongle ts, cam) .returned) ∧ Sees (movie_rows w') w'.blobs s' := by
  rw [delete_movie, alone_bind_ok (alone_attempt rfl), alone_attempt rfl] at ran
  cases ran
  rw [← named]
  exact sees.removed false _ (movie_rows_delete env (w := { w with blobs := w.blobs.remove _ }) rfl)

/-- The blobs of all rows are deleted, one after the other. -/
theorem sees_blobs_deleted {ids : List (Text × Text)}
    (named : ∀ id ∈ ids, ∃ dongle ts, Text.split_once '|' id.1 = some (dongle, ts) ∧
      name id = env.path (.movie dongle ts id.2))
    (sees : Sees (movie_rows w) w.blobs s) :
    ∃ w₁, alone env (ids.forM delete_movie_blob) w = (.ok (), w₁) ∧ w₁.db = w.db ∧
      Sees (movie_rows w) w₁.blobs (ids.foldl (fun s key => s.without (name key)) s) := by
  induction ids generalizing w s with
  | nil => exact ⟨w, rfl, rfl, sees⟩
  | cons id ids ih =>
      obtain ⟨dongle, ts, split, path⟩ := named id List.mem_cons_self
      let after : World := { w with blobs := w.blobs.remove (env.path (.movie dongle ts id.2)) }
      have deleted : alone env (delete_movie_blob id) w = (.ok (), after) := by
        unfold delete_movie_blob
        rw [split]
        exact alone_attempt rfl
      have without : Sees (movie_rows after) after.blobs (s.without (name id)) := by
        rw [path]
        exact sees.without _
      obtain ⟨w₁, ran, db, last⟩ := ih (fun id' member => named id' (List.mem_cons_of_mem _ member)) without
      refine ⟨w₁, ?_, db, last⟩
      change alone env (delete_movie_blob id >>= fun _ => ids.forM delete_movie_blob) w = _
      rw [alone_bind_ok deleted]
      exact ran

/-- Rebuilding everything. -/
theorem reencode_all_staged {n : Nat} (marked : Marked w)
    (named : ∀ m ∈ w.db.movies.rows, ∃ dongle ts, Text.split_once '|' m.fullname = some (dongle, ts) ∧
      name m.id = env.path (.movie dongle ts m.cam))
    (sees : Sees (movie_rows w) w.blobs s) (ran : alone env reencode_all w = (.ok n, w')) :
    ∃ s', Goes .movie name (s, .call .select) (s', .call .returned) ∧ Sees (movie_rows w') w'.blobs s' := by
  let ids := (w.db.movies.rows.filter fun m => decide (m.disabled = 0)).map Movie.id
  have selected : (s.rows.rows.filter fun r => !r.disabled).map Reencode.Row.key = ids := by
    rw [sees.rows]
    change ((w.db.movies.rows.map movie_row).filter fun r => !r.disabled).map Reencode.Row.key = ids
    rw [List.filter_map, List.map_map]
    exact congrArg (List.map _) (List.filter_congr fun m member => enabled_of_marked marked member)
  have paths : ∀ id ∈ ids, ∃ dongle ts, Text.split_once '|' id.1 = some (dongle, ts) ∧
      name id = env.path (.movie dongle ts id.2) := by
    intro id member
    obtain ⟨m, row, rfl⟩ := List.mem_map.1 member
    exact named m (List.mem_filter.1 row).1
  obtain ⟨w₁, deleted, db, last⟩ := sees_blobs_deleted paths sees
  have marked₁ : Marked w₁ := by
    rw [Marked, db]
    exact marked
  have rows₁ : movie_rows w₁ = movie_rows w := by rw [movie_rows, movie_rows, db]
  rw [reencode_all, alone_bind_ok (alone_unwrap_or [] (alone_select _ w))] at ran
  simp only [Except.toOption, Option.getD_some] at ran
  rw [alone_bind_ok deleted, alone_bind_ok (alone_attempt rfl)] at ran
  cases ran
  have first : Goes .movie name (s, .call .select) (s, .call (.blobs ids)) := by
    refine .step (.done 0) ?_ .refl
    simp only [Reencode.Worker.turn, Reencode.CallStage.turn, Option.map_some, selected]
  refine ⟨_, first.trans (goes_cleared ids), ?_, last.blobs, last.idle⟩
  rw [sees.rows, ← rows₁]
  exact (movie_rows_delete_enabled env marked₁ rfl).symm

/-- The sweep skips the same movies. -/
theorem needs_movie_staged {built : Table Movie Movie.id} {segs : List Segment} {m : MovieTodo}
    {sweep : Reencode.Sweep (Text × Text)} (rows : sweep.built = built.map movie_row fun _ => rfl)
    (cover : sweep.cover (m.fullname, m.cam) =
      some ⟨total_segments segs m.fullname, camera_segments segs m.fullname m.col⟩) :
    alone env (needs_movie env built.rows segs m) w =
      (.ok (!sweep.skips (m.fullname, m.cam) (w.blobs.read (env.path (.movie m.dongle m.ts m.cam))).isSome), w) := by
  obtain ⟨needed, ran, exactly⟩ := alone_needs_movie env built.rows segs m w
  have looked : sweep.built.get? (m.fullname, m.cam) = (built.get? (m.fullname, m.cam)).map movie_row := by
    rw [rows]
    exact Table.get?_map _ _
  rw [ran, Prod.mk.injEq, Except.ok.injEq, Bool.eq_iff_iff, exactly, Bool.not_eq_true', skips_eq_false_iff cover,
    ← covered_iff, looked]
  refine ⟨and_congr_right fun _ => not_congr ?_, rfl⟩
  unfold MovieAttempted
  rw [← Table.get?]
  cases built.get? (m.fullname, m.cam) with
  | none => simp
  | some row => simp [movie_row]

end Movies

/-! ## Transcripts -/

section Transcripts

variable {env : Env} {w w' : World} {dongle ts : Text} {name : Text → BlobPath}
  {s : Reencode.World Text BlobPath}

theorem inside_whisper_url : Inside (whisper_url env) :=
  .bind (.unwrap_or (.select _) _) fun _ => .pure _

/-- A failed attempt is recorded. -/
theorem subs_failed_records {α : Type} {route : Text} {seg_count : Int} {e : AppError} {r : AppResult α}
    (finished : Finishes env (subs_failed route seg_count e) w r w') :
    Write.exec env (.record_subs route seg_count 0 0) w = some w' ∧ r = .error e := by
  have rest := finished.after (.attempt _) (alone_attempt rfl)
  rw [rest.throw.2]
  exact ⟨rfl, rest.throw.1⟩

/-- A transcript is stored, and recorded with its size. -/
theorem published_subs_records {seg_count : Int} {bodies : List Bytes} {r : AppResult Unit}
    (finished : Finishes env (publish_subs env dongle ts seg_count bodies) w r w') :
    ∃ w₁, Write.exec env (.blob_put (.subs dongle ts) (env.render_vtt bodies).1) w = some w₁ ∧
      Write.exec env (.record_subs (fullname dongle ts) seg_count (env.render_vtt bodies).2
        (env.render_vtt bodies).1.length) w₁ = some w' := by
  obtain ⟨w₁, put⟩ : ∃ w₁, Write.exec env (.blob_put (.subs dongle ts) (env.render_vtt bodies).1) w = some w₁ :=
    ⟨_, rfl⟩
  have stored : alone env (Request.map_err (execute (.blob_put (.subs dongle ts) (env.render_vtt bodies).1))
      (.Other "blob write")) w = (.ok (), w₁) := by
    rw [alone_map_err, alone_execute put]
    rfl
  have ended := (finished.after (.map_err (.execute _) _) stored).alone (.attempt _)
  rw [record_subs, alone_attempt rfl] at ended
  cases ended
  exact ⟨w₁, put, rfl⟩

/-- The loop gives all replies, gives up, or fails and records that. -/
theorem transcribe_chunks_cases {route : Text} {seg_count : Int} {n : Nat} {r : AppResult (List Bytes)}
    (finished : Finishes env (transcribe_chunks env route seg_count n) w r w') :
    w' = w ∨ ((∃ e, r = .error e) ∧ Write.exec env (.record_subs route seg_count 0 0) w = some w') := by
  induction n generalizing r w' with
  | zero => exact .inl finished.pure.2
  | succ n ih =>
      rw [transcribe_chunks] at finished
      have on := finished.after (.toggle _ _) (alone_toggle _ _ w)
      rw [Request.err_if] at on
      split at on
      · exact .inl on.throw.2
      obtain ⟨cut, rest⟩ := (on.after (p := pure ()) trivial (alone_pure () w)).after_encode
      cases cut with
      | none => exact .inl rest.pure.2
      | some chunk =>
          obtain ⟨reply, rest⟩ := rest.after_encode
          cases reply with
          | none =>
              obtain ⟨recorded, is⟩ := subs_failed_records rest
              exact .inr ⟨⟨_, is⟩, recorded⟩
          | some vtt =>
              rcases rest.cases with ⟨bodies, w₁, more, last⟩ | ⟨e, more, rfl⟩
              · rcases ih more with rfl | ⟨⟨e, is⟩, _⟩
                · exact .inl last.pure.2
                · cases is
              · rcases ih more with same | ⟨_, recorded⟩
                · exact .inl same
                · exact .inr ⟨⟨e, rfl⟩, recorded⟩

/-- A build that runs by itself is one that the stages can run, from the sweep's count of the
segments on. -/
theorem build_subs_staged {r : AppResult Unit}
    (named : name (fullname dongle ts) = env.path (.subs dongle ts))
    (sees : Sees (subs_rows w) w.blobs s)
    (counts : Counts s (fullname dongle ts) (numbers_with .qcam (fullname dongle ts) w).length)
    (usable : s.usable (fullname dongle ts) = decide (audio_numbers env dongle ts w ≠ []))
    (finished : Finishes env (build_subs env dongle ts) w r w') (sweep : Reencode.Sweep Text)
    (rest todo : List Text) :
    ∃ s', Goes .subs name (s, .sweep (sweep.go (.count (fullname dongle ts) rest todo)))
        (s', .sweep (sweep.go (.look rest todo))) ∧ Sees (subs_rows w') w'.blobs s' := by
  rw [build_subs] at finished
  have counted := finished.after (.unwrap_or (.select _) _) (alone_unwrap_or [] (alone_select _ w))
  have picked := counted.after (inside_usable _ _) (alone_usable _ _ _ _ w)
  have audio : ((numbers_with .qcam (fullname dongle ts) w).filter
      fun n => holds env w (.segment dongle ts n "qcamera.ts")) = audio_numbers env dongle ts w := rfl
  simp only [Except.toOption, Option.getD_some, audio] at picked
  by_cases nothing : audio_numbers env dongle ts w = []
  · -- nothing usable
    rw [if_pos (List.map_eq_nil_iff.2 nothing)] at picked
    obtain ⟨recorded, _⟩ := subs_failed_records picked
    have unusable : s.usable (fullname dongle ts) = false := by
      rw [usable, nothing]
      rfl
    refine ⟨_, goes_unusable counts unusable (fun movie => by cases movie), ?_⟩
    rw [Write.exec_blobs recorded]
    exact sees.recorded (subs_rows_record env recorded)
  rw [if_neg fun empty => nothing (List.map_eq_nil_iff.1 empty)] at picked
  have present : s.usable (fullname dongle ts) = true := by
    rw [usable]
    exact decide_eq_true nothing
  have some_segment : ((numbers_with .qcam (fullname dongle ts) w).length : Int) ≠ 0 := by
    intro none
    have empty : numbers_with .qcam (fullname dongle ts) w = [] := by simpa using none
    exact nothing (by rw [audio_numbers, empty]; rfl)
  have failed : ∀ {w'}, Write.exec env (.record_subs (fullname dongle ts)
      (numbers_with .qcam (fullname dongle ts) w).length 0 0) w = some w' →
      ∃ s', Goes .subs name (s, .sweep (sweep.go (.count (fullname dongle ts) rest todo)))
        (s', .sweep (sweep.go (.look rest todo))) ∧ Sees (subs_rows w') w'.blobs s' := by
    intro w' recorded
    refine ⟨_, goes_waits counts present some_segment (goes_failed sees.idle), ?_⟩
    rw [Write.exec_blobs recorded]
    exact (sees.recorded (subs_rows_record env recorded)).left
  have given_up : w' = w → ∃ s', Goes .subs name (s, .sweep (sweep.go (.count (fullname dongle ts) rest todo)))
      (s', .sweep (sweep.go (.look rest todo))) ∧ Sees (subs_rows w') w'.blobs s' := by
    rintro rfl
    exact ⟨_, goes_waits counts present some_segment (goes_aborted sees.idle), sees.left⟩
  obtain ⟨extracted, encoded⟩ := picked.after_encode
  cases extracted with
  | none => exact failed (subs_failed_records encoded).1
  | some wav =>
      dsimp only at encoded
      rw [transcribe_and_publish] at encoded
      obtain ⟨total, timed⟩ := encoded.after_probe
      have server := timed.after inside_whisper_url (alone_bind_ok (alone_unwrap_or none (alone_select _ w)))
      rw [Request.err_if] at server
      split at server
      · exact given_up server.throw.2
      rcases (server.after (p := pure ()) trivial (alone_pure () w)).cases with
        ⟨bodies, w₁, transcribed, published⟩ | ⟨e, transcribed, _⟩
      · rcases transcribe_chunks_cases transcribed with rfl | ⟨⟨e, is⟩, _⟩
        · obtain ⟨w₂, put, recorded⟩ := published_subs_records published
          refine ⟨_, goes_waits counts present some_segment
            (goes_published (env.render_vtt bodies).1.length sees.idle), ?_⟩
          rw [Write.exec_blobs recorded, Write.exec_blobs put, named]
          have same : subs_rows w₂ = subs_rows w₁ := by
            cases put
            rfl
          refine ((sees.put _ _ _).recorded ?_).left
          rw [← same]
          exact subs_rows_record env recorded
        · cases is
      · rcases transcribe_chunks_cases transcribed with same | ⟨_, recorded⟩
        · exact given_up same
        · exact failed recorded

/-- The user's deletion. -/
theorem disable_subs_staged (named : name (fullname dongle ts) = env.path (.subs dongle ts))
    (sees : Sees (subs_rows w) w.blobs s) (ran : alone env (disable_subs dongle ts) w = (.ok (), w')) :
    ∃ s', Goes .subs name (s, .removal true (fullname dongle ts) .blob)
        (s', .removal true (fullname dongle ts) .returned) ∧ Sees (subs_rows w') w'.blobs s' := by
  rw [disable_subs, alone_bind_ok (alone_attempt rfl), alone_attempt rfl] at ran
  cases ran
  rw [← named]
  exact sees.removed true _ (subs_rows_disable env (w := { w with blobs := w.blobs.remove _ }) rfl)

theorem delete_subs_staged (named : name (fullname dongle ts) = env.path (.subs dongle ts))
    (sees : Sees (subs_rows w) w.blobs s) (ran : alone env (delete_subs dongle ts) w = (.ok (), w')) :
    ∃ s', Goes .subs name (s, .removal false (fullname dongle ts) .blob)
        (s', .removal false (fullname dongle ts) .returned) ∧ Sees (subs_rows w') w'.blobs s' := by
  rw [delete_subs, alone_bind_ok (alone_attempt rfl), alone_attempt rfl] at ran
  cases ran
  rw [← named]
  exact sees.removed false _ (subs_rows_delete env (w := { w with blobs := w.blobs.remove _ }) rfl)

/-- The sweep skips the same transcripts. -/
theorem needs_subs_staged {built : Table Subs Subs.fullname} {segs : List Segment} {route : Text}
    {sweep : Reencode.Sweep Text} (rows : sweep.built = built.map subs_row fun _ => rfl)
    (cover : sweep.cover route = some ⟨total_segments segs route, camera_segments segs route .qcam⟩) :
    alone env (needs_subs env built.rows segs route dongle ts) w =
      (.ok (!sweep.skips route (w.blobs.read (env.path (.subs dongle ts))).isSome), w) := by
  obtain ⟨needed, ran, exactly⟩ := alone_needs_subs env built.rows segs route dongle ts w
  have looked : sweep.built.get? route = (built.get? route).map subs_row := by
    rw [rows]
    exact Table.get?_map _ _
  rw [ran, Prod.mk.injEq, Except.ok.injEq, Bool.eq_iff_iff, exactly, Bool.not_eq_true', skips_eq_false_iff cover,
    ← covered_iff, looked]
  refine ⟨and_congr_right fun _ => not_congr ?_, rfl⟩
  unfold SubsAttempted
  rw [← Table.get?]
  cases built.get? route with
  | none => simp
  | some row => simp [subs_row]

end Transcripts

end HomeConnect.Media.Stages
