/-
# Retention.DeleteRoute -- deleting a route

`delete_route` goes through a hand-kept list of file names and cameras for each segment
that has a row, then the route's movies and transcript, and last the rows.
`delete_route_alone` says what is left when it has run by itself: `Erased`.
-/
import HomeConnect.Drives.Alone
import HomeConnect.Media.Subs

namespace HomeConnect.Retention

open HomeConnect.Theory HomeConnect.Storage HomeConnect.Drives HomeConnect.Media

set_option autoImplicit false

/-- Known per-segment artifacts. -/
def SEGMENT_FILES : List Text :=
  ["qcamera.ts", "fcamera.hevc", "dcamera.hevc", "ecamera.hevc",
    "qlog.bz2", "qlog.zst", "rlog.bz2", "rlog.zst",
    "coords.json", "events.json", "telemetry.json", "model.json", "sprite.jpg"]

/-- The cameras that are transcoded. -/
def TRANSCODED : List Text := ["fcamera", "dcamera", "ecamera"]

/-- Delete the listed blobs of a segment and its transcode cache. -/
def delete_segment_files (dongle ts : Text) (seg : Int) : Request Op Unit := do
  SEGMENT_FILES.forM fun f => Request.attempt (.write (.blob_delete (.segment dongle ts seg f)))
  TRANSCODED.forM fun cam => Request.attempt (.write (.ts_remove ⟨dongle, ts, seg, cam⟩))

/-- `SELECT number FROM segments WHERE canonical_route_name = ?`. -/
def segment_numbers (name : Text) (w : World) : List Int :=
  (w.db.segments.rows.filter fun s => decide (s.canonical_route_name = name)).map Segment.number

/-- Delete the files and the rows of movies and transcript. -/
def delete_artifacts (dongle ts : Text) (segs : List Int) : Request Op Unit := do
  segs.forM (delete_segment_files dongle ts)
  MOVIE_CAMS.forM (delete_movie dongle ts)
  delete_subs dongle ts

/-- Delete a route: its blobs, transcode cache, and rows. -/
def delete_route (name : Text) : Request Op Unit :=
  match Text.split_once '|' name with
  | none => pure ()
  | some (dongle, ts) => do
      let segs ← select (segment_numbers name)
      delete_artifacts dongle ts segs
      execute (.delete_segments name)
      execute (.delete_route name)

/-! ## The writes -/

def segment_removals (dongle ts : Text) (seg : Int) : List Write :=
  (SEGMENT_FILES.map fun f => Write.blob_delete (.segment dongle ts seg f)) ++
    TRANSCODED.map fun cam => Write.ts_remove ⟨dongle, ts, seg, cam⟩

def movie_removals (dongle ts cam : Text) : List Write :=
  [.blob_delete (.movie dongle ts cam), .delete_movie (fullname dongle ts) cam]

def subs_removals (dongle ts : Text) : List Write :=
  [.blob_delete (.subs dongle ts), .delete_subs (fullname dongle ts)]

def removals (dongle ts : Text) (segs : List Int) : List Write :=
  segs.flatMap (segment_removals dongle ts) ++
    (MOVIE_CAMS.flatMap (movie_removals dongle ts) ++ subs_removals dongle ts)

section Attempts

variable (env : Env) (dongle ts : Text)

theorem attempts_delete_segment_files (seg : Int) :
    Attempts env (delete_segment_files dongle ts seg) (segment_removals dongle ts seg) :=
  Attempts.bind (Attempts.each _) (Attempts.each _)

theorem attempts_delete_movie (cam : Text) :
    Attempts env (delete_movie dongle ts cam) (movie_removals dongle ts cam) :=
  Attempts.bind (.attempt _) (.attempt _)

theorem attempts_delete_artifacts (segs : List Int) :
    Attempts env (delete_artifacts dongle ts segs) (removals dongle ts segs) := by
  refine Attempts.bind ?_ (Attempts.bind ?_ ?_)
  · exact Attempts.forM fun seg _ => attempts_delete_segment_files env dongle ts seg
  · exact Attempts.forM fun cam _ => attempts_delete_movie env dongle ts cam
  · exact Attempts.bind (.attempt _) (.attempt _)

end Attempts

/-! ## What they leave -/

/-- The writes that remove artifacts. -/
def Removal : Write → Prop
  | .blob_delete _ | .ts_remove _ | .delete_movie .. | .delete_subs _ => True
  | _ => False

/-- What two worlds share when only artifacts were removed in between. -/
structure SameRows (w w' : World) : Prop where
  accounts : w'.db.accounts = w.db.accounts
  settings : w'.db.settings = w.db.settings
  routes : w'.db.routes = w.db.routes
  segments : w'.db.segments = w.db.segments
  remote : w'.remote = w.remote
  sync_queue : w'.sync_queue = w.sync_queue
  now : w'.now = w.now
  made : w'.made = w.made
  transcoded : w'.transcoded = w.transcoded

/-- Exactly what the writes name is gone. -/
structure Removed (env : Env) (writes : List Write) (w w' : World) : Prop where
  same : SameRows w w'
  blobs : ∀ path, w'.blobs.read path = none ↔
    w.blobs.read path = none ∨ ∃ name, .blob_delete name ∈ writes ∧ env.path name = path
  transcode : ∀ file, w'.transcode.read file = none ↔
    w.transcode.read file = none ∨ ∃ name, .ts_remove name ∈ writes ∧ name.file = file
  movies : ∀ m, m ∈ w'.db.movies.rows ↔
    m ∈ w.db.movies.rows ∧ ∀ name cam, .delete_movie name cam ∈ writes → m.id ≠ (name, cam)
  subs : ∀ s, s ∈ w'.db.subs.rows ↔
    s ∈ w.db.subs.rows ∧ ∀ name, .delete_subs name ∈ writes → s.fullname ≠ name

variable {env : Env}

theorem Removed.refl (w : World) : Removed env [] w w where
  same := by constructor <;> rfl
  blobs := by simp
  transcode := by simp
  movies := by simp
  subs := by simp

theorem read_remove_eq_none {π : Type} [DecidableEq π] (d : Dir π) (path p : π) :
    (d.remove path).read p = none ↔ d.read p = none ∨ path = p := by
  rw [Dir.read_remove]
  by_cases h : p = path
  · simp [h]
  · simp [h, Ne.symm h]

/-- One removal. -/
theorem removed_one {s : Write} (removal : Removal s) (w : World) :
    Removed env [s] w (applied env w s) := by
  cases s with
  | blob_delete name =>
      refine ⟨by constructor <;> rfl, fun path => ?_, by simp [applied, Write.exec],
        by simp [applied, Write.exec], by simp [applied, Write.exec]⟩
      simp only [applied, Write.exec, Option.getD_some, read_remove_eq_none]
      simp
  | ts_remove name =>
      refine ⟨by constructor <;> rfl, by simp [applied, Write.exec], fun file => ?_,
        by simp [applied, Write.exec], by simp [applied, Write.exec]⟩
      simp only [applied, Write.exec, Option.getD_some, read_remove_eq_none]
      simp
  | delete_movie name cam =>
      refine ⟨by constructor <;> rfl, by simp [applied, Write.exec], by simp [applied, Write.exec],
        fun m => ?_, by simp [applied, Write.exec]⟩
      simp [applied, Write.exec]
  | delete_subs name =>
      refine ⟨by constructor <;> rfl, by simp [applied, Write.exec], by simp [applied, Write.exec],
        by simp [applied, Write.exec], fun s => ?_⟩
      simp [applied, Write.exec]
  | _ => exact removal.elim

theorem SameRows.trans {a b c : World} (first : SameRows a b) (second : SameRows b c) :
    SameRows a c where
  accounts := second.accounts.trans first.accounts
  settings := second.settings.trans first.settings
  routes := second.routes.trans first.routes
  segments := second.segments.trans first.segments
  remote := second.remote.trans first.remote
  sync_queue := second.sync_queue.trans first.sync_queue
  now := second.now.trans first.now
  made := second.made.trans first.made
  transcoded := second.transcoded.trans first.transcoded

theorem Removed.trans {l m : List Write} {a b c : World} (first : Removed env l a b)
    (second : Removed env m b c) : Removed env (l ++ m) a c where
  same := first.same.trans second.same
  blobs := fun path => by
    rw [second.blobs, first.blobs]
    simp only [List.mem_append, or_and_right, exists_or, or_assoc]
  transcode := fun file => by
    rw [second.transcode, first.transcode]
    simp only [List.mem_append, or_and_right, exists_or, or_assoc]
  movies := fun m => by
    rw [second.movies, first.movies]
    simp only [List.mem_append, or_imp, forall_and, and_assoc]
  subs := fun s => by
    rw [second.subs, first.subs]
    simp only [List.mem_append, or_imp, forall_and, and_assoc]

/-- A sequence of removals. -/
theorem removed_foldl {writes : List Write} (all : ∀ s ∈ writes, Removal s) (w : World) :
    Removed env writes w (writes.foldl (applied env) w) := by
  induction writes generalizing w with
  | nil => exact Removed.refl w
  | cons s rest ih =>
      have one : Removed env [s] w (applied env w s) := removed_one (all s List.mem_cons_self) w
      exact one.trans
        (ih (fun s' member => all s' (List.mem_cons_of_mem _ member)) (applied env w s))

theorem removal_of_mem_removals {dongle ts : Text} {segs : List Int} {s : Write}
    (member : s ∈ removals dongle ts segs) : Removal s := by
  simp only [removals, segment_removals, movie_removals, subs_removals, List.mem_append,
    List.mem_flatMap, List.mem_map, List.mem_cons, List.not_mem_nil, or_false] at member
  rcases member with ⟨seg, _, ⟨f, _, rfl⟩ | ⟨cam, _, rfl⟩⟩ | ⟨cam, _, rfl | rfl⟩ | rfl | rfl <;> trivial

/-- The world without the rows of a route. -/
def without_rows (name : Text) (w : World) : World :=
  let segments := w.db.segments.delete fun s => decide (s.canonical_route_name = name)
  let routes := w.db.routes.delete fun r => decide (r.fullname = name)
  { w with db.segments := segments, db.routes := routes }

/-- Nothing refers to the route once its segments are deleted. -/
theorem delete_rows_alone (name : Text) (w : World) :
    alone env (execute (.delete_segments name) >>= fun _ => execute (.delete_route name)) w =
      (.ok (), without_rows name w) := by
  let segments := w.db.segments.delete fun s => decide (s.canonical_route_name = name)
  have first : Write.exec env (.delete_segments name) w =
      some { w with db.segments := segments } := rfl
  have unused : (segments.rows.any fun s => decide (s.canonical_route_name = name)) = false := by
    rw [List.any_eq_false]
    intro s member
    exact Bool.not_eq_true _ ▸ (Table.mem_delete.1 member).2
  have second : Write.exec env (.delete_route name) { w with db.segments := segments } =
      some (without_rows name w) := by
    simp only [Write.exec, unused, Bool.and_false, Bool.false_eq_true, if_false]
    rfl
  rw [alone_bind_ok (alone_execute first), alone_execute second]

/-- A name without the separator deletes nothing. -/
theorem delete_route_alone_none {name : Text} (split : Text.split_once '|' name = none)
    (w : World) : alone env (delete_route name) w = (.ok (), w) := by
  simp only [delete_route, split]
  rfl

/-- Run by itself, `delete_route` succeeds; the artifacts on its list are removed, and the
rows of the route. -/
theorem delete_route_alone (env : Env) {name dongle ts : Text}
    (split : Text.split_once '|' name = some (dongle, ts)) (w : World) :
    ∃ cleaned, Removed env (removals dongle ts (segment_numbers name w)) w cleaned ∧
      alone env (delete_route name) w = (.ok (), without_rows name cleaned) := by
  refine ⟨_, removed_foldl (fun s => removal_of_mem_removals) w, ?_⟩
  simp only [delete_route, split]
  rw [alone_bind_ok (alone_select _ _),
    alone_bind_ok (attempts_delete_artifacts env dongle ts (segment_numbers name w) w),
    delete_rows_alone]

end HomeConnect.Retention
