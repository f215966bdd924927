/-
# Retention.Leftovers -- what deleting a route leaves behind

`delete_route` knows what to delete from a list of names; what the server makes is named
in the modules that make it.  The audio extract of a segment is on no list, so it stays
(`audio_extract_left`); so does the temporary file of a transcode that could not be renamed,
or whose request was dropped, and a blob under a name that is not listed, or of a segment that
has no row.

`Listed` are the names a deletion goes through.  In every state that uploads, scans,
workers, transcodes and builds lead to, a deletion by itself leaves nothing of the route
exactly when every file of it that is still there is at a listed name's path
(`nothing_left_iff`).  Movies, transcripts and rows are always listed: that is an invariant
of everything the server makes (`Listable`).
-/
import HomeConnect.Drives.Poles
import HomeConnect.Media.Footprint
import HomeConnect.Retention.DeleteRoute
import HomeConnect.Sync.Prune

namespace HomeConnect.Retention

open HomeConnect.Theory HomeConnect.Storage HomeConnect.Drives HomeConnect.Media HomeConnect.Sync

set_option autoImplicit false

/-! ## Everything that makes files -/

inductive Producer
  | sync (job : SyncJob)
  | ensure_transcode (dongle ts : Text) (seg : Int) (cam : Text)
  | ensure_audio (dongle ts : Text) (seg : Int)
  | movie_sweep
  | subs_sweep
  | build_movie (dongle ts cam : Text)
  | build_subs (dongle ts : Text)
deriving DecidableEq, Repr

def Producer.handle (env : Env) : Producer → Request Op Unit
  | .sync job => job.handle env
  | .ensure_transcode dongle ts seg cam =>
      Request.ignore (Media.ensure_transcode env dongle ts seg cam)
  | .ensure_audio dongle ts seg => Request.ignore (Media.ensure_audio env dongle ts seg)
  | .movie_sweep => Media.movie_sweep env
  | .subs_sweep => Media.subs_sweep env
  | .build_movie dongle ts cam => Media.build_movie env dongle ts cam
  | .build_subs dongle ts => Media.build_subs env dongle ts

inductive ProducerAct
  | start (job : Producer)
  | device_write (dongle path : Text) (bytes : Bytes)
  | device_remove (dongle path : Text)
  | set_setting (key value : Text)
  /-- An ffmpeg that has outlived its request (the timeout, a client that has gone) writes its
  output. -/
  | stray_ffmpeg (out : TsName) (bytes : Bytes)
deriving DecidableEq, Repr

abbrev ProducerTask := Task Producer Op (AppResult Unit)

def ProducerAct.act (env : Env) : ProducerAct → World → Option (World × List ProducerTask)
  | .start job, w => some (w, [⟨job, (job.handle env).run⟩])
  | .device_write dongle path bytes, w =>
      some ({ w with remote := w.remote.write (dongle, path) bytes }, [])
  | .device_remove dongle path, w =>
      some ({ w with remote := w.remote.remove (dongle, path) }, [])
  | .set_setting key value, w =>
      let settings := put_setting w.db.settings key value
      some ({ w with db.settings := settings }, [])
  | .stray_ffmpeg out bytes, w => (Write.exec env (.ts_write out.temp bytes) w).map fun w' => (w', [])

def producerRules (env : Env) : Pool.Rules World ProducerTask ProducerAct Outcome :=
  ⟨ProducerAct.act env, Task.turn (Op.exec env)⟩

/-! ## Every movie has one of the four cameras -/

/-- Movies are made, and recorded, for the four cameras only. -/
def FourCameras : Write → Prop
  | .blob_put name _ => ∀ dongle ts cam, name = .movie dongle ts cam → cam ∈ MOVIE_CAMS
  | .record_movie _ cam _ _ _ => cam ∈ MOVIE_CAMS
  | .disable_movie _ cam => cam ∈ MOVIE_CAMS
  | _ => True

theorem fourCameras_of_ingests {dongle ts file : Text} {seg : Int} (s : Write)
    (ingests : s.ingests dongle ts seg file) : FourCameras s := by
  rcases ingests with registers | ⟨f, bytes, rfl, _⟩
  · cases s with
    | blob_put name bytes =>
        obtain ⟨f, _, rfl⟩ := registers
        intro dongle ts cam is
        cases is
    | record_movie => exact registers.elim
    | disable_movie => exact registers.elim
    | _ => trivial
  · intro dongle ts cam is
    cases is

theorem fourCameras_of_sync {it : QueueItem} (s : Write) (allowed : SyncWrite it s) :
    FourCameras s := by
  rcases allowed with ingests | rfl
  · exact fourCameras_of_ingests s ingests
  · trivial

theorem fourCameras_of_movie {dongle ts cam : Text} (known : cam ∈ MOVIE_CAMS) (s : Write)
    (movie : MovieWrite dongle ts cam s) : FourCameras s := by
  cases s with
  | blob_put name bytes =>
      intro dongle' ts' cam' is
      have same : BlobName.movie dongle' ts' cam' = .movie dongle ts cam := is.symm.trans movie
      cases same
      exact known
  | record_movie name cam' seg_count bytes duration =>
      obtain ⟨_, rfl⟩ := movie
      exact known
  | disable_movie => exact movie.elim
  | _ => trivial

theorem fourCameras_of_subs {dongle ts : Text} (s : Write) (subs : SubsWrite dongle ts s) :
    FourCameras s := by
  cases s with
  | blob_put name bytes =>
      intro dongle' ts' cam' is
      have same : BlobName.movie dongle' ts' cam' = .subs dongle ts := is.symm.trans subs
      cases same
  | record_movie => exact subs.elim
  | disable_movie => exact subs.elim
  | _ => trivial

theorem fourCameras_of_caches {out : TsName} (s : Write) (caches : Caches out s) : FourCameras s := by
  rcases caches with ⟨bytes, rfl⟩ | rfl | rfl <;> trivial

theorem writes_producer (env : Env) (job : Producer) : WritesOnly FourCameras (job.handle env) := by
  cases job with
  | sync job =>
      cases job with
      | scan device opts => exact Request.Uses.ignore (writes_scan env device opts)
      | work =>
          refine (writes_work env).mono ?_
          rintro s ⟨it, allowed⟩
          exact fourCameras_of_sync s allowed
      | upload auth dongle ts seg file body =>
          exact (Writes.ignore ((writes_upload_driving env dongle ts seg file auth body).mono
            fourCameras_of_ingests)).only
  | ensure_transcode dongle ts seg cam =>
      exact (Writes.ignore
        ((writes_ensure_transcode env dongle ts seg cam).mono fourCameras_of_caches)).only
  | ensure_audio dongle ts seg =>
      exact (Writes.ignore ((writes_ensure_audio env dongle ts seg).mono fourCameras_of_caches)).only
  | movie_sweep =>
      refine (writes_movie_sweep env).only.mono ?_
      rintro s ⟨dongle, ts, cam, known, movie⟩
      exact fourCameras_of_movie known s movie
  | subs_sweep =>
      refine (writes_subs_sweep env).only.mono ?_
      rintro s ⟨dongle, ts, subs⟩
      exact fourCameras_of_subs s subs
  | build_movie dongle ts cam =>
      exact (writes_build_movie env dongle ts cam).only.mono fun s allowed =>
        fourCameras_of_movie allowed.1 s allowed.2
  | build_subs dongle ts => exact (writes_build_subs env dongle ts).only.mono fourCameras_of_subs

/-- Every movie that was made or recorded is of one of the four cameras. -/
structure Listable (w : World) : Prop where
  rows : ∀ m ∈ w.db.movies.rows, m.cam ∈ MOVIE_CAMS
  made : ∀ dongle ts cam, .movie dongle ts cam ∈ w.made → cam ∈ MOVIE_CAMS

theorem Listable.exec {env : Env} {s : Write} {w w' : World} (listable : Listable w)
    (four : FourCameras s) (done : s.exec env w = some w') : Listable w' := by
  have upserted : ∀ (m : Movie) (merge : Movie → Movie) (same : ∀ b, (merge b).id = b.id),
      m.cam ∈ MOVIE_CAMS → ∀ m' ∈ (w.db.movies.upsert m merge same).rows, m'.cam ∈ MOVIE_CAMS := by
    intro m merge same known m' member
    rw [Table.upsert] at member
    split at member
    · rcases Table.mem_insertIfAbsent.1 member with old | ⟨rfl, _⟩
      · exact listable.rows m' old
      · exact known
    · obtain ⟨b, old, rfl⟩ := List.mem_map.1 member
      split
      · have cam : (merge b).cam = b.cam := congrArg Prod.snd (same b)
        rw [cam]
        exact listable.rows b old
      · exact listable.rows b old
  cases s with
  | blob_put name bytes =>
      cases done
      refine ⟨listable.rows, fun dongle ts cam member => ?_⟩
      rcases List.mem_cons.1 member with is | old
      · exact four dongle ts cam is.symm
      · exact listable.made dongle ts cam old
  | record_movie name cam seg_count bytes duration =>
      cases done
      exact ⟨upserted _ _ _ four, listable.made⟩
  | disable_movie name cam =>
      cases done
      exact ⟨upserted _ _ _ four, listable.made⟩
  | delete_movie name cam =>
      cases done
      exact ⟨fun m member => listable.rows m (Table.mem_delete.1 member).1, listable.made⟩
  | delete_enabled_movies =>
      cases done
      exact ⟨fun m member => listable.rows m (Table.mem_delete.1 member).1, listable.made⟩
  | blob_delete name =>
      cases done
      exact ⟨listable.rows, listable.made⟩
  | _ =>
      have movies := (Write.framed done).movies (by simp [Write.part])
      have made := ((Write.framed done).blobs (by simp [Write.part])).2
      exact ⟨by rw [movies]; exact listable.rows, by rw [made]; exact listable.made⟩

/-- The invariant of everything that makes files. -/
theorem listable_of_reach {env : Env} {w : World} (listable : Listable w)
    {p : Pool World ProducerTask}
    (reached : (producerRules env).system.Reach System.free ⟨w, []⟩ p) : Listable p.shared := by
  refine (Task.reach_uses (I := Listable) (fun f => ∀ s, f.write? = some s → FourCameras s)
    reached listable ?_ ?_).1
  · intro a w w' ts listable acted
    cases a with
    | start job =>
        cases acted
        refine ⟨listable, fun t member => ?_⟩
        cases List.mem_singleton.1 member
        exact writes_producer env job
    | _ =>
        cases acted
        exact ⟨⟨listable.rows, listable.made⟩, fun t member => (List.not_mem_nil member).elim⟩
  · intro β f o w four listable
    rcases Op.exec_cases env f o w with same | ⟨s, w', is, _, done, after⟩ | ⟨q, same⟩
    · rw [same]; exact listable
    · rw [after]; exact listable.exec (four s is) done
    · rw [same]; exact ⟨listable.rows, listable.made⟩

/-! ## What a deletion leaves -/

/-- The names whose blobs a deletion removes. -/
def Listed (dongle ts : Text) (w : World) (name : BlobName) : Prop :=
  (∃ seg ∈ segment_numbers (fullname dongle ts) w, ∃ f ∈ SEGMENT_FILES,
    name = .segment dongle ts seg f) ∨
  (∃ cam ∈ MOVIE_CAMS, name = .movie dongle ts cam) ∨ name = .subs dongle ts

theorem blob_delete_mem_removals {dongle ts : Text} {w : World} {name : BlobName} :
    .blob_delete name ∈ removals dongle ts (segment_numbers (fullname dongle ts) w) ↔
      Listed dongle ts w name := by
  simp [removals, segment_removals, movie_removals, subs_removals, Listed, eq_comm]

theorem ts_remove_mem_removals {dongle ts : Text} {segs : List Int} {n : TsName} :
    .ts_remove n ∈ removals dongle ts segs ↔
      ∃ seg ∈ segs, ∃ cam ∈ TRANSCODED, n = ⟨dongle, ts, seg, cam⟩ := by
  simp [removals, segment_removals, movie_removals, subs_removals, eq_comm]

theorem delete_movie_mem_removals {dongle ts : Text} {segs : List Int} {name cam : Text} :
    .delete_movie name cam ∈ removals dongle ts segs ↔
      cam ∈ MOVIE_CAMS ∧ name = fullname dongle ts := by
  simp [removals, segment_removals, movie_removals, subs_removals]

theorem delete_subs_mem_removals {dongle ts : Text} {segs : List Int} {name : Text} :
    .delete_subs name ∈ removals dongle ts segs ↔ name = fullname dongle ts := by
  simp [removals, segment_removals, movie_removals, subs_removals]

/-- Nothing of the route is left. -/
structure NothingLeft (env : Env) (dongle ts : Text) (w : World) : Prop where
  blobs : ∀ name ∈ w.made, name.route = (dongle, ts) → w.blobs.read (env.path name) = none
  transcode : ∀ n ∈ w.transcoded, n.route = (dongle, ts) → w.transcode.read n.file = none
  segments : ∀ s ∈ w.db.segments.rows, s.canonical_route_name ≠ fullname dongle ts
  routes : ∀ r ∈ w.db.routes.rows, r.fullname ≠ fullname dongle ts
  movies : ∀ m ∈ w.db.movies.rows, m.fullname ≠ fullname dongle ts
  subs : ∀ s ∈ w.db.subs.rows, s.fullname ≠ fullname dongle ts

/-- Every file of the route that is there is at the path of a listed name: a blob at that
of one of the listed files of a segment that has a row (or of a movie, or the
transcript), a file of the transcode directory at that of a transcode of such a segment. -/
structure AllListed (env : Env) (dongle ts : Text) (w : World) : Prop where
  blobs : ∀ seg file, .segment dongle ts seg file ∈ w.made →
    w.blobs.read (env.path (.segment dongle ts seg file)) ≠ none →
    ∃ name, Listed dongle ts w name ∧ env.path name = env.path (.segment dongle ts seg file)
  transcode : ∀ n ∈ w.transcoded, n.route = (dongle, ts) → w.transcode.read n.file ≠ none →
    ∃ seg ∈ segment_numbers (fullname dongle ts) w, ∃ cam ∈ TRANSCODED,
      TsName.file ⟨dongle, ts, seg, cam⟩ = n.file

/-- The world after `delete_route` has run with no other task running. -/
def after_delete (env : Env) (dongle ts : Text) (w : World) : World :=
  (alone env (delete_route (fullname dongle ts)) w).2

/-- **Leftovers.**  A deletion leaves nothing of the route exactly when every file of it
that is there is at the path of a listed name. -/
theorem nothing_left_iff (env : Env) (w : World) (listable : Listable w)
    (p : Pool World ProducerTask)
    (reached : (producerRules env).system.Reach System.free ⟨w, []⟩ p) (dongle ts : Text)
    (clean : '|' ∉ dongle) :
    NothingLeft env dongle ts (after_delete env dongle ts p.shared) ↔
      AllListed env dongle ts p.shared := by
  have listable' := listable_of_reach listable reached
  generalize p.shared = w' at listable' ⊢
  obtain ⟨cleaned, removed, ran⟩ := delete_route_alone env (fullname_split clean ts) w'
  rw [after_delete, ran]
  constructor
  · intro left
    refine ⟨fun seg file made stored => ?_, fun n made route there => ?_⟩
    · have gone := left.blobs (.segment dongle ts seg file)
        (removed.same.made.symm ▸ made) rfl
      rcases (removed.blobs _).1 gone with absent | ⟨name, listed, same⟩
      · exact absurd absent stored
      · exact ⟨name, blob_delete_mem_removals.1 listed, same⟩
    · have gone := left.transcode n (removed.same.transcoded.symm ▸ made) route
      rcases (removed.transcode _).1 gone with absent | ⟨name, listed, same⟩
      · exact absurd absent there
      · obtain ⟨seg, row, cam, known, rfl⟩ := ts_remove_mem_removals.1 listed
        exact ⟨seg, row, cam, known, same⟩
  · intro listed
    refine ⟨fun name made route => ?_, fun n made route => ?_, fun s kept => ?_, fun r kept => ?_,
      fun m kept same => ?_, fun s kept same => ?_⟩
    · have made' : name ∈ w'.made := removed.same.made ▸ made
      refine (removed.blobs _).2 ?_
      cases name with
      | segment d t seg file =>
          cases route
          by_cases stored : w'.blobs.read (env.path (.segment dongle ts seg file)) = none
          · exact .inl stored
          · obtain ⟨name, named, same⟩ := listed.blobs seg file made' stored
            exact .inr ⟨name, blob_delete_mem_removals.2 named, same⟩
      | movie d t cam =>
          cases route
          have known := listable'.made dongle ts cam made'
          exact .inr ⟨_, blob_delete_mem_removals.2 (.inr (.inl ⟨cam, known, rfl⟩)), rfl⟩
      | subs d t =>
          cases route
          exact .inr ⟨_, blob_delete_mem_removals.2 (.inr (.inr rfl)), rfl⟩
    · have made' : n ∈ w'.transcoded := removed.same.transcoded ▸ made
      refine (removed.transcode _).2 ?_
      by_cases there : w'.transcode.read n.file = none
      · exact .inl there
      · obtain ⟨seg, row, cam, known, same⟩ := listed.transcode n made' route there
        exact .inr ⟨_, ts_remove_mem_removals.2 ⟨seg, row, cam, known, rfl⟩, same⟩
    · exact of_decide_eq_false (Table.mem_delete.1 kept).2
    · exact of_decide_eq_false (Table.mem_delete.1 kept).2
    · obtain ⟨row, other⟩ := (removed.movies m).1 kept
      exact other _ _ (delete_movie_mem_removals.2 ⟨listable'.rows m row, same⟩) rfl
    · obtain ⟨row, other⟩ := (removed.subs s).1 kept
      exact other _ (delete_subs_mem_removals.2 same) rfl

/-! ## Poles -/

private def uploader : Accounts.Device := { dongle_id := "d" }

private def no_drives : World := one_device uploader

private theorem no_drives_listable : Listable no_drives where
  rows := fun _ member => (List.not_mem_nil member).elim
  made := fun _ _ _ member => (List.not_mem_nil member).elim

private def qcamera_blob : BlobName := .segment "d" "t" 0 "qcamera.ts"

/-- The device uploads the qcamera of a segment. -/
private def uploaded : List (Pool.Event ProducerAct Outcome) :=
  .act (.start (.sync (.upload { identity := "d", device := some uploader } "d" "t" 0 "qcamera.ts"
    [1]))) :: List.replicate 8 (.turn 0 .ok)

/-- Someone plays its audio: the track is extracted and cached. -/
private def listened : List (Pool.Event ProducerAct Outcome) :=
  .act (.start (.ensure_audio "d" "t" 0)) :: List.replicate 4 (.turn 1 .ok) ++
    [.turn 1 (.encoded [2]), .turn 1 .ok, .turn 1 .ok]

/-- The audio extract of a segment outlives its route. -/
theorem audio_extract_left : ¬ ∀ (env : Env) (w : World), Listable w →
    ∀ p : Pool World ProducerTask,
    (producerRules env).system.Reach System.free ⟨w, []⟩ p → ∀ dongle ts : Text, '|' ∉ dongle →
    NothingLeft env dongle ts (after_delete env dongle ts p.shared) := by
  intro claim
  have run : ((producerRules plain_env).system.replay ⟨no_drives, []⟩
      (uploaded ++ listened)).any (fun p =>
        audio_path "d" "t" 0 ∈ (after_delete plain_env "d" "t" p.shared).transcoded ∧
        (after_delete plain_env "d" "t" p.shared).transcode.read
          (audio_path "d" "t" 0).file = some [2]) = true := by
    decide
  obtain ⟨p, replayed, checked⟩ := (Option.any_eq_true _ _).1 run
  obtain ⟨made, there⟩ := of_decide_eq_true checked
  have left := claim plain_env no_drives no_drives_listable p
    (System.reach_of_replay replayed) "d" "t" (by decide)
  rw [left.transcode _ made rfl] at there
  cases there

/-- Without it, the deletion leaves nothing. -/
theorem nothing_left_uploaded : ∃ p : Pool World ProducerTask,
    NothingLeft plain_env "d" "t" (after_delete plain_env "d" "t" p.shared) ∧
      p.shared.made = [qcamera_blob] := by
  have run : ((producerRules plain_env).system.replay ⟨no_drives, []⟩ uploaded).any (fun p =>
      p.shared.made = [qcamera_blob] ∧ p.shared.transcoded = [] ∧
        segment_numbers (fullname "d" "t") p.shared = [0]) = true := by
    decide
  obtain ⟨p, replayed, checked⟩ := (Option.any_eq_true _ _).1 run
  obtain ⟨made, none, rows⟩ := of_decide_eq_true checked
  refine ⟨p, (nothing_left_iff plain_env no_drives no_drives_listable p
    (System.reach_of_replay replayed) "d" "t" (by decide)).2 ⟨fun seg file member _ => ?_,
      fun n member => ?_⟩, made⟩
  · rw [made] at member
    cases List.mem_singleton.1 member
    refine ⟨qcamera_blob, .inl ⟨0, ?_, "qcamera.ts", by decide, rfl⟩, rfl⟩
    rw [rows]
    exact List.mem_cons_self
  · rw [none] at member
    cases member

end HomeConnect.Retention
