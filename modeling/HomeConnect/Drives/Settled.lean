/-
# Drives.Settled -- registering what is registered

A statement that is in effect already changes nothing, not even the order of rows.  When all
that registering a file would assign is in effect (`Settled`), its route summed up and its
artifacts stored, registering it again leaves everything as it is, but for the route's
platform and git columns and the device's last GPS, which a qlog writes each time
(`Unchanged`).

An artifact, once stored, is overwritten only by a qlog of its own segment.
-/
import HomeConnect.Drives.Registered
import HomeConnect.Drives.TwoWays

namespace HomeConnect.Drives

open HomeConnect.Theory HomeConnect.Storage

set_option autoImplicit false

/-- A file of a route. -/
structure SegmentFile where
  seg : Int
  file : Text
  body : Bytes
deriving DecidableEq, Repr

/-- The artifacts of a qlog are in the store. -/
def HasArtifacts (env : Env) (dongle ts : Text) (w : World) (f : SegmentFile) : Prop :=
  Text.contains f.file "qlog" = true → ∀ acc, env.parse f.file f.body = .ok acc →
    ∀ a ∈ acc.artifacts env, w.blobs.read (env.path (.segment dongle ts f.seg a.1)) = some a.2

/-- Nothing but a route's platform and git columns and the device's last GPS has changed. -/
structure Unchanged (w w' : World) : Prop where
  segments : w'.db.segments = w.db.segments
  routes : Table.Agree (fun r : Route => { r with info := {} }) w'.db.routes w.db.routes
  users : w'.db.accounts.users = w.db.accounts.users
  authorized : w'.db.accounts.authorized_users = w.db.accounts.authorized_users
  devices : Table.Agree (fun d : Accounts.Device =>
    { d with last_gps_lat := 0, last_gps_lng := 0, last_gps_time := 0 })
    w'.db.accounts.devices w.db.accounts.devices
  settings : w'.db.settings = w.db.settings
  movies : w'.db.movies = w.db.movies
  subs : w'.db.subs = w.db.subs
  blobs : w'.blobs = w.blobs
  transcode : w'.transcode = w.transcode
  remote : w'.remote = w.remote
  sync_queue : w'.sync_queue = w.sync_queue

/-- The clock, and what was ever made, are not part of it. -/
theorem Unchanged.refl (w : World) (t : Int) (made : List BlobName) :
    Unchanged w { w with now := t, made } :=
  ⟨rfl, rfl, rfl, rfl, rfl, rfl, rfl, rfl, rfl, rfl, rfl, rfl⟩

theorem Unchanged.trans {w w' w'' : World} (first : Unchanged w w') (second : Unchanged w' w'') :
    Unchanged w w'' where
  segments := second.segments.trans first.segments
  routes := Eq.trans second.routes first.routes
  users := second.users.trans first.users
  authorized := second.authorized.trans first.authorized
  devices := Eq.trans second.devices first.devices
  settings := second.settings.trans first.settings
  movies := second.movies.trans first.movies
  subs := second.subs.trans first.subs
  blobs := second.blobs.trans first.blobs
  transcode := second.transcode.trans first.transcode
  remote := second.remote.trans first.remote
  sync_queue := second.sync_queue.trans first.sync_queue

/-! ## Statements in effect already -/

section Settled

variable {env : Env} {dongle ts : Text} {seg : Int} {w : World}

theorem settled_insert_route (there : HasRoute w.db dongle ts) :
    Write.exec env (.insert_route dongle ts) w = some w := by
  have present : w.db.routes.get? (fullname dongle ts) ≠ none := Option.isSome_iff_ne_none.1 there
  have isnt : (w.db.routes.get? (fullname dongle ts)).isNone = false := by
    rw [← Option.not_isSome]
    simp [show (w.db.routes.get? (fullname dongle ts)).isSome = true from there]
  simp only [Write.exec, isnt, Bool.false_and, Bool.false_eq_true, if_false]
  rw [Table.insertIfAbsent_present present]

theorem settled_insert_segment (there : HasSegment w.db dongle ts seg) :
    Write.exec env (.insert_segment dongle ts seg) w = some w := by
  have present : w.db.segments.get? (canonical dongle ts seg) ≠ none := Option.isSome_iff_ne_none.1 there
  have isnt : w.refuses_segment dongle ts seg = false := by
    rw [World.refuses_segment, ← Option.not_isSome]
    simp [show (w.db.segments.get? (canonical dongle ts seg)).isSome = true from there]
  simp only [Write.exec, isnt, Bool.false_eq_true, if_false]
  rw [Table.insertIfAbsent_present present]

theorem settled_upsert_segment {data : SegData} (there : HasSegment w.db dongle ts seg)
    (holds : (row_of w.db dongle ts seg).data = data) :
    Write.exec env (.upsert_segment dongle ts seg data) w = some w := by
  obtain ⟨s, found⟩ := Option.isSome_iff_exists.1 there
  have isnt : w.refuses_segment dongle ts seg = false := by
    rw [World.refuses_segment, found]
    rfl
  simp only [Write.exec, isnt, Bool.false_eq_true, if_false]
  rw [row_of, found, Option.getD_some] at holds
  rw [Table.upsert_settled (b := s) _ found (by rw [← holds])]

theorem settled_set_url {col : UrlCol} {url : Text} (there : HasSegment w.db dongle ts seg)
    (holds : (row_of w.db dongle ts seg).url col = url) :
    Write.exec env (.set_url dongle ts seg col url) w = some w := by
  obtain ⟨s, found⟩ := Option.isSome_iff_exists.1 there
  rw [row_of, found, Option.getD_some] at holds
  simp only [Write.exec]
  rw [Table.update_settled _ fun s' member chosen => ?_]
  have here : w.db.segments.get? (canonical dongle ts seg) = some s' :=
    Table.get?_eq_some.2 ⟨member, of_decide_eq_true chosen⟩
  rw [found] at here
  cases here
  rw [← holds]
  cases col <;> rfl

theorem settled_set_aggregates {name : Text} {aggregates : Aggregates}
    (holds : ∀ r, w.db.routes.get? name = some r → r.aggregates = aggregates) :
    Write.exec env (.set_aggregates name aggregates) w = some w := by
  simp only [Write.exec]
  rw [Table.update_settled _ fun r member chosen => ?_]
  rw [← holds r (Table.get?_eq_some.2 ⟨member, of_decide_eq_true chosen⟩)]

/-- What registering the file would assign is in effect. -/
structure Settled (env : Env) (dongle ts : Text) (w : World) (seg : Int) (file : Text) : Prop where
  route : (file_kind file).isSome → HasRoute w.db dongle ts
  segment : (file_kind file).isSome → HasSegment w.db dongle ts seg
  url : ∀ col url, file_url env dongle ts seg file col url → (row_of w.db dongle ts seg).url col = url

theorem alone_set_segment_file {file : Text} (settled : Settled env dongle ts w seg file) :
    alone env (set_segment_file env dongle ts seg file) w = (.ok (), w) := by
  cases kind : file_kind file with
  | none =>
      rw [set_segment_file, kind]
      rfl
  | some p =>
      obtain ⟨ty, col⟩ := p
      have known : (file_kind file).isSome := by rw [kind]; rfl
      rw [set_segment_file, kind]
      dsimp only
      rw [ensure_route, alone_bind_ok (alone_execute (settled_insert_route (settled.route known))),
        alone_bind_ok (alone_execute (settled_insert_segment (settled.segment known)))]
      exact alone_execute (settled_set_url (settled.segment known) (settled.url col _ ⟨ty, kind, rfl⟩))

theorem alone_siblings {cams : List Text}
    (settled : ∀ cam ∈ cams, Stored env dongle ts w seg cam → Settled env dongle ts w seg cam) :
    alone env (cams.forM (set_sibling env dongle ts seg)) w = (.ok ⟨⟩, w) := by
  induction cams with
  | nil => rfl
  | cons cam cams ih =>
      change alone env (set_sibling env dongle ts seg cam >>= fun _ =>
        cams.forM (set_sibling env dongle ts seg)) w = _
      have first : alone env (set_sibling env dongle ts seg cam) w = (.ok (), w) := by
        rw [set_sibling, alone_bind_ok (alone_blob_exists _ w)]
        by_cases stored : Stored env dongle ts w seg cam
        · rw [if_pos (by exact stored)]
          exact alone_set_segment_file (settled cam List.mem_cons_self stored)
        · rw [if_neg (by exact stored)]
          rfl
      rw [alone_bind_ok first]
      exact ih fun c member => settled c (List.mem_cons_of_mem _ member)

theorem alone_recompute_route (summed : Summed w.db dongle ts) :
    alone env (recompute_route dongle ts) w = (.ok (), w) := by
  rw [recompute_route, alone_bind_ok (alone_select _ w)]
  by_cases empty : w.db.route_segments (fullname dongle ts) = []
  · rw [empty]
    rfl
  · rw [if_neg (by rwa [List.isEmpty_iff])]
    exact alone_execute (settled_set_aggregates (summed empty))

/-- Storing artifacts that are stored. -/
theorem alone_artifacts {artifacts : List (Text × Bytes)}
    (stored : ∀ a ∈ artifacts, w.blobs.read (env.path (.segment dongle ts seg a.1)) = some a.2) :
    ∃ made, alone env (artifacts.forM (put_artifact dongle ts seg)) w = (.ok ⟨⟩, { w with made }) := by
  induction artifacts generalizing w with
  | nil => exact ⟨w.made, rfl⟩
  | cons a artifacts ih =>
      have first : Write.exec env (.blob_put (.segment dongle ts seg a.1) a.2) w =
          some { w with made := .segment dongle ts seg a.1 :: w.made } := by
        simp only [Write.exec]
        rw [Dir.write_read (stored a List.mem_cons_self)]
      obtain ⟨made, rest⟩ := ih (w := { w with made := .segment dongle ts seg a.1 :: w.made })
        fun b member => stored b (List.mem_cons_of_mem _ member)
      refine ⟨made, ?_⟩
      change alone env (put_artifact dongle ts seg a >>= fun _ =>
        artifacts.forM (put_artifact dongle ts seg)) w = _
      rw [put_artifact, alone_bind_ok (alone_attempt first)]
      exact rest

theorem unchanged_write_route_meta (env : Env) (dongle ts : Text) (acc : Accum) (w : World) :
    ∃ w', alone env (write_route_meta dongle ts acc) w = (.ok (), w') ∧ Unchanged w w' := by
  refine ⟨_, alone_execute rfl, rfl, ?_, rfl, rfl, rfl, rfl, rfl, rfl, rfl, rfl, rfl, rfl⟩
  refine (List.map_map ..).trans (List.map_congr_left fun r _ => ?_)
  simp only [Function.comp]
  split <;> rfl

theorem unchanged_last_gps (env : Env) (dongle : Text) (acc : Accum) (w : World) :
    ∃ w', alone env (update_last_gps dongle acc) w = (.ok (), w') ∧ Unchanged w w' := by
  rw [update_last_gps]
  split
  · rename_i lat lng time _
    refine ⟨_, alone_attempt rfl, rfl, rfl, rfl, rfl, ?_, rfl, rfl, rfl, rfl, rfl, rfl, rfl⟩
    refine (List.map_map ..).trans (List.map_congr_left fun d _ => ?_)
    simp only [Function.comp]
    split <;> rfl
  · exact ⟨w, rfl, .refl w w.now w.made⟩

/-- A parsed qlog, parsed again. -/
theorem unchanged_parse_and_store {f : SegmentFile} {acc : Accum} {t : Int}
    (qlog : Text.contains f.file "qlog" = true) (parsed : env.parse f.file f.body = .ok acc)
    (settled : Settled env dongle ts w f.seg f.file) (data : (row_of w.db dongle ts f.seg).data = acc.data)
    (siblings : ∀ cam ∈ CAMERA_FILES, Stored env dongle ts w f.seg cam →
      Settled env dongle ts w f.seg cam)
    (summed : Summed w.db dongle ts) (artifacts : HasArtifacts env dongle ts w f) :
    ∃ w', alone env (parse_and_store env dongle ts f.seg f.file f.body) { w with now := t } = (.ok (), w') ∧
      Unchanged w w' := by
  have known := kind_of_qlog qlog
  obtain ⟨made, first⟩ := alone_artifacts (w := { w with now := t }) (artifacts qlog acc parsed)
  have still : ∀ {file}, Settled env dongle ts w f.seg file →
      Settled env dongle ts { w with now := t, made } f.seg file :=
    fun s => ⟨s.route, s.segment, s.url⟩
  have rows : alone env (upsert_segment env dongle ts f.seg f.file acc) { w with now := t, made } =
      (.ok (), { w with now := t, made }) := by
    rw [upsert_segment, ensure_route,
      alone_bind_ok (alone_execute (settled_insert_route ((still settled).route known))),
      alone_bind_ok (alone_execute (settled_upsert_segment ((still settled).segment known) data)),
      alone_bind_ok (alone_set_segment_file (still settled))]
    exact alone_siblings fun cam listed stored => still (siblings cam listed stored)
  have sums : alone env (recompute_route dongle ts) { w with now := t, made } =
      (.ok (), { w with now := t, made }) := alone_recompute_route summed
  obtain ⟨w₁, info, unchanged⟩ :=
    unchanged_write_route_meta env dongle ts acc { w with now := t, made }
  obtain ⟨w', gps, unchanged'⟩ := unchanged_last_gps env dongle acc w₁
  refine ⟨w', ?_, (Unchanged.refl w t made).trans (unchanged.trans unchanged')⟩
  rw [parse_and_store, parsed, alone_bind_ok (alone_of_result _), alone_bind_ok first, alone_bind_ok rows,
    alone_bind_ok sums, alone_bind_ok info]
  exact gps

/-- Registering what is registered. -/
theorem unchanged_register_segment_file {f : SegmentFile} {t : Int}
    (parsed : Text.contains f.file "qlog" = true → ∃ acc, env.parse f.file f.body = .ok acc ∧
      (row_of w.db dongle ts f.seg).data = acc.data)
    (settled : Settled env dongle ts w f.seg f.file)
    (siblings : Text.contains f.file "qlog" = true → ∀ cam ∈ CAMERA_FILES,
      Stored env dongle ts w f.seg cam → Settled env dongle ts w f.seg cam)
    (summed : Summed w.db dongle ts) (artifacts : HasArtifacts env dongle ts w f) :
    ∃ w', alone env (register_segment_file env dongle ts f.seg f.file f.body) { w with now := t } =
      (.ok (), w') ∧ Unchanged w w' := by
  rw [register_segment_file]
  by_cases qlog : Text.contains f.file "qlog" = true
  · obtain ⟨acc, is, data⟩ := parsed qlog
    rw [if_pos qlog]
    exact unchanged_parse_and_store qlog is settled data (siblings qlog) summed artifacts
  · have still : Settled env dongle ts { w with now := t } f.seg f.file :=
      ⟨settled.route, settled.segment, settled.url⟩
    have sums : alone env (recompute_route dongle ts) { w with now := t } = (.ok (), { w with now := t }) :=
      alone_recompute_route summed
    rw [if_neg qlog, alone_bind_ok (alone_set_segment_file still), alone_ignore, sums]
    exact ⟨_, rfl, .refl w t w.made⟩

end Settled

/-! ## Artifacts stay -/

section Artifacts

variable {env : Env} {dongle ts : Text} {w w' : World}

/-- A function that writes rows only. -/
theorem blobs_of_rows (env : Env) {α : Type} {p : Request Op α} (rows : WritesOnly (fun s => s.part ≠ .blobs) p)
    (w : World) : (alone env p w).2.blobs = w.blobs :=
  WritesOnly.alone (R := fun w w' => w'.blobs = w.blobs) (fun _ => rfl)
    (fun first second => second.trans first)
    (fun other done => ((Write.framed done).blobs other).1) (fun _ _ => rfl) rows w

theorem rows_set_segment_file (seg : Int) (file : Text) :
    Writes (fun s => s.part ≠ .blobs) (set_segment_file env dongle ts seg file) := by
  rw [set_segment_file]
  split
  · exact .pure ()
  · refine .bind (.execute (by simp [Write.part])) fun _ => .bind (.execute (by simp [Write.part])) fun _ => ?_
    exact .execute (by simp [Write.part])

theorem rows_recompute_route : Writes (fun s => s.part ≠ .blobs) (recompute_route dongle ts) :=
  .bind (.select _) fun _ => .ite (.pure ()) (.execute (by simp [Write.part]))

theorem rows_after_artifacts (env : Env) (dongle ts : Text) (seg : Int) (file : Text) (acc : Accum) :
    Writes (fun s => s.part ≠ .blobs) (do
      upsert_segment env dongle ts seg file acc
      recompute_route dongle ts
      write_route_meta dongle ts acc
      update_last_gps dongle acc) := by
  refine .bind ?_ fun _ => .bind rows_recompute_route fun _ =>
    .bind (.execute (by simp [Write.part])) fun _ => ?_
  · refine .bind (.execute (by simp [Write.part])) fun _ => .bind (.execute (by simp [Write.part])) fun _ => ?_
    refine .bind (rows_set_segment_file seg file) fun _ => Request.Uses.forM fun cam _ => ?_
    exact Writes.bind (.blob_exists env _) fun _ => .ite (rows_set_segment_file seg cam) (.pure _)
  · rw [update_last_gps]
    split
    · exact .attempt (by simp [Write.part])
    · exact .pure ()

theorem artifacts_nodup (acc : Accum) : ((acc.artifacts env).map Prod.fst).Nodup := by
  unfold Accum.artifacts
  cases env.build_sprite acc.thumbnails with
  | none => split <;> split <;> split <;> split <;> simp
  | some sprite => split <;> split <;> split <;> split <;> simp

/-- Artifacts of different names are stored beside each other. -/
theorem stored_artifacts {seg : Int} {artifacts : List (Text × Bytes)}
    (distinct : (artifacts.map Prod.fst).Nodup) (plain : ∀ a ∈ artifacts, '_' ∉ sanitize a.1)
    (ran : alone env (artifacts.forM (put_artifact dongle ts seg)) w = (.ok ⟨⟩, w')) :
    (∀ path, (∀ a ∈ artifacts, env.path (.segment dongle ts seg a.1) ≠ path) →
      w'.blobs.read path = w.blobs.read path) ∧
    ∀ a ∈ artifacts, w'.blobs.read (env.path (.segment dongle ts seg a.1)) = some a.2 := by
  induction artifacts generalizing w with
  | nil =>
      cases ran
      exact ⟨fun _ _ => rfl, fun _ no => nomatch no⟩
  | cons a artifacts ih =>
      obtain ⟨fresh, rest⟩ := List.nodup_cons.1 distinct
      have put : Write.exec env (.blob_put (.segment dongle ts seg a.1) a.2) w = some _ := rfl
      change alone env (put_artifact dongle ts seg a >>= fun _ =>
        artifacts.forM (put_artifact dongle ts seg)) w = _ at ran
      rw [put_artifact, alone_bind_ok (alone_attempt put)] at ran
      obtain ⟨kept, stored⟩ := ih rest (fun b member => plain b (List.mem_cons_of_mem _ member)) ran
      constructor
      · intro path other
        rw [kept path fun b member => other b (List.mem_cons_of_mem _ member), Dir.read_write,
          if_neg (other a List.mem_cons_self).symm]
      · intro b member
        rcases List.mem_cons.1 member with rfl | later
        · rw [kept _ fun c member' same => ?_, Dir.read_write, if_pos rfl]
          have named := (segment_of_path (plain b List.mem_cons_self) same).2
          exact fresh (named ▸ List.mem_map_of_mem member')
        · exact stored b later

theorem artifact_plain {acc : Accum} {a : Text × Bytes} (member : a ∈ acc.artifacts env) :
    '_' ∉ sanitize a.1 ∧ a.1 ≠ "model.json" := by
  have plain : ∀ name ∈ ARTIFACTS, '_' ∉ sanitize name ∧ name ≠ ("model.json" : Text) := by decide
  exact plain a.1 (artifact_listed env member)

/-- Deriving the model touches no artifact. -/
theorem artifacts_model {f g : SegmentFile} (stored : HasArtifacts env dongle ts w g) :
    HasArtifacts env dongle ts
      (alone env (parse_model_and_store env dongle ts f.seg f.file f.body) w).2 g := by
  cases model : env.extract_model f.file f.body with
  | none =>
      rw [parse_model_and_store, model]
      exact stored
  | some json =>
      rw [parse_model_alone model]
      intro qlog acc parsed a member
      rw [Dir.read_write, if_neg fun same => ?_, stored qlog acc parsed a member]
      exact (artifact_plain member).2 (segment_of_path (artifact_plain member).1 same.symm).2.symm

/-- An ingested qlog was parsed. -/
theorem parsed_of_ingest {f : SegmentFile}
    (ran : alone env (ingest_segment_file env dongle ts f.seg f.file f.body) w = (.ok (), w'))
    (qlog : Text.contains f.file "qlog" = true) : ∃ acc, env.parse f.file f.body = .ok acc := by
  obtain ⟨stored, registered, _, register, _⟩ := ingest_ok ran
  rw [register_segment_file, if_pos qlog, parse_and_store] at register
  obtain ⟨acc, _, parsed, _⟩ := ok_of_bind register
  exact ⟨acc, (Prod.ext_iff.1 parsed).1⟩

/-- An ingested qlog's artifacts are stored. -/
theorem artifacts_ingest {f : SegmentFile}
    (ran : alone env (ingest_segment_file env dongle ts f.seg f.file f.body) w = (.ok (), w')) :
    HasArtifacts env dongle ts w' f := by
  obtain ⟨stored, registered, _, register, is⟩ := ingest_ok ran
  have after : HasArtifacts env dongle ts registered f := by
    intro qlog acc parsed a member
    rw [register_segment_file, if_pos qlog, parse_and_store, parsed, alone_bind_ok (alone_of_result _)]
      at register
    obtain ⟨_, w₁, first, rest⟩ := ok_of_bind register
    have kept := blobs_of_rows env (rows_after_artifacts env dongle ts f.seg f.file acc).only w₁
    rw [rest] at kept
    rw [kept]
    exact (stored_artifacts (artifacts_nodup acc) (fun b member => (artifact_plain member).1) first).2 a member
  rw [is]
  split
  · exact artifacts_model after
  · exact after

/-- The artifacts of a file stay when another one comes, which is no qlog of its segment. -/
theorem artifacts_kept {f g : SegmentFile}
    (ran : alone env (ingest_segment_file env dongle ts f.seg f.file f.body) w = (.ok (), w'))
    (apart : f.seg ≠ g.seg ∨ ¬ Text.contains f.file "qlog" = true)
    (old : HasArtifacts env dongle ts w g) : HasArtifacts env dongle ts w' g := by
  obtain ⟨stored, registered, store, register, is⟩ := ingest_ok ran
  have done := store_ok store
  have after : HasArtifacts env dongle ts registered g := by
    intro qlog acc parsed a member
    have before : stored.blobs.read (env.path (.segment dongle ts g.seg a.1)) = some a.2 := by
      have there := old qlog acc parsed a member
      rw [done.blobs, Dir.read_write, if_neg fun same => ?_, there]
      rw [same, done.absent] at there
      cases there
    rcases apart with elsewhere | other
    · have other : ∀ name ∈ ARTIFACTS,
          env.path (.segment dongle ts f.seg name) ≠ env.path (.segment dongle ts g.seg a.1) :=
        fun name listed same => elsewhere (segment_of_path (artifact_plain member).1 same).1
      have kept := blob_of_registers
        (writes_register_segment_file env dongle ts f.seg f.file f.body).only other stored
      rw [register] at kept
      rw [kept, before]
    · have rows : Writes (fun s => s.part ≠ .blobs)
          (register_segment_file env dongle ts f.seg f.file f.body) := by
        rw [register_segment_file, if_neg other]
        exact .bind (rows_set_segment_file f.seg f.file) fun _ => .ignore rows_recompute_route
      have kept := blobs_of_rows env rows.only stored
      rw [register] at kept
      rw [kept, before]
  rw [is]
  split
  · exact artifacts_model after
  · exact after

end Artifacts

end HomeConnect.Drives
