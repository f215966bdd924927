/-
# Sync.Processed -- what processing a queue item leaves

Processed by itself and successfully (`process`), an item is registered: the URL of its
column is set on its segment's row, and a qlog's cameras that are in the store are with it
(`hasUrl_process`).  No other segment of the device is touched, and what a scan goes by
besides stays (`Scans`).  A segment parsed from a path has no negative number, and then its
name is no other segment's (`canonical_natural`).
-/
import HomeConnect.Drives.Arrival
import HomeConnect.Sync.Footprint
import HomeConnect.Sync.Known

namespace HomeConnect.Sync

open HomeConnect.Theory HomeConnect.Storage HomeConnect.Drives

set_option autoImplicit false

/-- Process an item by itself; `none` when it fails, which is only logged. -/
def process (env : Env) (it : QueueItem) (w : World) : Option World :=
  let result :=
    if (w.blobs.read (env.path it.name)).isSome then (alone env (register_on_disk env it) w).1
    else (alone env (pull_and_ingest env it) w).1
  match result with
  | .ok () => some (alone env (process_item env it) w).2
  | .error _ => none

/-- The column a file is registered in. -/
def column (file : Text) : Option UrlCol := (file_kind file).map Prod.snd

/-- A file of this kind is registered for the segment. -/
def HasUrl (db : Storage.Db) (name : Text) (col : UrlCol) : Prop :=
  ∃ s, db.segments.get? name = some s ∧ s.url col ≠ []

/-! ## Names with numbers that are not negative -/

theorem natural_of_parse {s : Text} {n : Int} (plain : s.head? ≠ some '-')
    (parsed : Text.parse_i64 s = some n) : 0 ≤ n := by
  unfold Text.parse_i64 at parsed
  split at parsed
  · exact (plain rfl).elim
  · obtain ⟨m, _, is⟩ := Option.bind_eq_some_iff.1 parsed
    split at is
    · cases is
      exact Int.natCast_nonneg m
    · cases is
  · obtain ⟨m, _, is⟩ := Option.bind_eq_some_iff.1 parsed
    split at is
    · cases is
      exact Int.natCast_nonneg m
    · cases is

theorem natural_of_path {path ts file : Text} {seg : Int}
    (parsed : parse_remote_path path = some (ts, seg, file)) : 0 ≤ seg := by
  unfold parse_remote_path at parsed
  obtain ⟨rest, _, parsed⟩ := Option.bind_eq_some_iff.1 parsed
  obtain ⟨⟨dir, file'⟩, _, parsed⟩ := Option.bind_eq_some_iff.1 parsed
  obtain ⟨⟨ts', last⟩, split, parsed⟩ := Option.bind_eq_some_iff.1 parsed
  obtain ⟨n, number, parsed⟩ := Option.bind_eq_some_iff.1 parsed
  split at parsed
  · cases parsed
  · cases parsed
    exact natural_of_parse (Text.head_of_rsplit split) number

/-- Such a segment's name is no other's of its device. -/
theorem canonical_natural {dongle ts ts' : Text} {m n : Int} (natural : 0 ≤ m) (natural' : 0 ≤ n)
    (same : canonical dongle ts m = canonical dongle ts' n) : ts = ts' ∧ m = n := by
  have plain : ∀ {n : Int}, 0 ≤ n → '-' ∉ Text.decimal n := by
    intro n natural
    obtain ⟨k, rfl⟩ := Int.eq_ofNat_of_zero_le natural
    exact Text.dash_not_digit
  have parts : ∀ (t : Text) (k : Int), canonical dongle t k =
      dongle ++ '|' :: (t ++ '-' :: '-' :: Text.decimal k) := by
    intro t k
    simp [canonical, List.append_assoc]
  rw [parts, parts, List.append_cancel_left_eq, List.cons_inj_right] at same
  have split := congrArg Text.rsplit_once_dashes same
  rw [Text.rsplit_append (plain natural), Text.rsplit_append (plain natural')] at split
  obtain ⟨heads, numbers⟩ := Prod.mk.inj (Option.some.inj split)
  exact ⟨heads, Text.decimal_injective numbers⟩

/-! ## One item -/

section Process

variable {env : Env} {it : QueueItem} {w w' : World}

theorem body_alone {body : Bytes} (ran : alone env (body_on_disk env it) w = (.ok body, w')) :
    w' = w := by
  rw [body_on_disk] at ran
  split at ran
  · rw [blob_get, alone_bind_ok (alone_select _ w)] at ran
    split at ran
    · cases ran
      rfl
    · cases ran
  · cases ran
    rfl

theorem pull_alone {addr dongle path : Text} {bytes : Bytes}
    (ran : alone env (pull_file addr dongle path) w = (.ok bytes, w')) : w' = w := by
  rw [pull_file] at ran
  obtain ⟨_, w₁, first, rest⟩ := ok_of_bind ran
  rw [Request.err_if] at first
  split at first
  · cases first
  · cases first
    rw [alone_bind_ok (alone_select _ _)] at rest
    split at rest
    · cases rest
      rfl
    · cases rest

theorem writes_only_rm : WritesOnly (fun s => ∃ d p, s = .rm d p) (maybe_prune env it) := by
  refine Writes.only (.bind (writes_toggle _ _) fun enabled => .ite ?_ (.pure _))
  exact .bind (.blob_exists env _) fun found =>
    .ite (.ite (.attempt ⟨_, _, rfl⟩) (.pure _)) (.pure _)

theorem writes_prune_only_rm (r : AppResult Unit) :
    WritesOnly (fun s => ∃ d p, s = .rm d p) (prune_if_ok env it r) := by
  cases r with
  | ok _ => exact writes_only_rm
  | error e => exact (Writes.pure _).only

/-- Pruning touches neither the database nor the store. -/
theorem prune_keeps (w : World) : (alone env (maybe_prune env it) w).2.db = w.db ∧
    (alone env (maybe_prune env it) w).2.blobs = w.blobs := by
  refine WritesOnly.alone (R := fun w w' => w'.db = w.db ∧ w'.blobs = w.blobs) (fun _ => ⟨rfl, rfl⟩)
    (fun first second => ⟨second.1.trans first.1, second.2.trans first.2⟩) ?_
    (fun _ _ => ⟨rfl, rfl⟩) writes_only_rm w
  rintro s w w' ⟨d, p, rfl⟩ done
  cases done
  exact ⟨rfl, rfl⟩

/-- What an item comes to that succeeds: its registration from the store, or its ingestion,
and after it the device's copy at most. -/
theorem process_ok (ran : process env it w = some w') :
    ∃ body w₁, w'.db = w₁.db ∧ w'.blobs = w₁.blobs ∧
      (((w.blobs.read (env.path it.name)).isSome = true ∧
        alone env (register_segment_file env it.dongle it.ts it.seg it.file body) w = (.ok (), w₁)) ∨
      ((w.blobs.read (env.path it.name)).isSome = false ∧
        alone env (ingest_segment_file env it.dongle it.ts it.seg it.file body) w = (.ok (), w₁))) := by
  have pruned : ∀ w₁, (alone env (maybe_prune env it) w₁).2.db = w₁.db ∧
      (alone env (maybe_prune env it) w₁).2.blobs = w₁.blobs := prune_keeps
  -- a part that returned is followed by the pruning
  have after : ∀ {p : Request Op Unit} {w₁ : World}, alone env p w = (.ok (), w₁) →
      alone env (Request.capture p >>= prune_if_ok env it) w = alone env (maybe_prune env it) w₁ := by
    intro p w₁ done
    have captured : alone env (Request.capture p) w = (.ok (.ok ()), w₁) := by
      rw [alone_capture, done]
    rw [alone_bind_ok captured]
    rfl
  unfold process at ran
  by_cases stored : (w.blobs.read (env.path it.name)).isSome = true
  · simp only [stored, if_true] at ran
    cases done : alone env (register_on_disk env it) w with
    | mk r w₁ =>
        rw [done] at ran
        cases r with
        | error e => cases ran
        | ok _ =>
            have whole : alone env (process_item env it) w = alone env (maybe_prune env it) w₁ := by
              rw [process_item, alone_bind_ok (alone_blob_exists _ w), if_pos stored]
              exact after done
            rw [whole] at ran
            cases ran
            rw [register_on_disk] at done
            obtain ⟨body, w₂, first, second⟩ := ok_of_bind done
            rw [body_alone first] at second
            exact ⟨body, w₁, (pruned w₁).1, (pruned w₁).2, .inl ⟨stored, second⟩⟩
  · simp only [stored, Bool.false_eq_true, if_false] at ran
    cases done : alone env (pull_and_ingest env it) w with
    | mk r w₁ =>
        rw [done] at ran
        cases r with
        | error e => cases ran
        | ok _ =>
            have whole : alone env (process_item env it) w = alone env (maybe_prune env it) w₁ := by
              rw [process_item, alone_bind_ok (alone_blob_exists _ w), if_neg stored]
              exact after done
            rw [whole] at ran
            cases ran
            rw [pull_and_ingest] at done
            obtain ⟨body, w₂, first, second⟩ := ok_of_bind done
            rw [pull_alone first] at second
            exact ⟨body, w₁, (pruned w₁).1, (pruned w₁).2,
              .inr ⟨Bool.eq_false_iff.2 stored, second⟩⟩

/-- No derived file is stored where a camera is, of whatever drive. -/
theorem derived_not_camera {dongle ts dongle' ts' f cam : Text} {m n : Int}
    (derived : f ∈ ("model.json" : Text) :: ARTIFACTS) (camera : cam ∈ CAMERA_FILES) :
    env.path (.segment dongle ts m f) ≠ env.path (.segment dongle' ts' n cam) := by
  intro same
  have ends : ∀ f ∈ ("model.json" : Text) :: ARTIFACTS, ∀ cam ∈ CAMERA_FILES,
      sanitize f ≠ [] ∧ sanitize cam ≠ [] ∧ (sanitize f).getLast? ≠ (sanitize cam).getLast? := by decide
  obtain ⟨some_f, some_cam, other⟩ := ends f derived cam camera
  have names : sanitize (blob_key dongle ts m f) = sanitize (blob_key dongle' ts' n cam) :=
    congrArg BlobPath.name same
  have last : ∀ d t k (f : Text), sanitize f ≠ [] →
      (sanitize (blob_key d t k f)).getLast? = (sanitize f).getLast? := by
    intro d t k f some_f
    have parts : sanitize (blob_key d t k f) = sanitize (d ++ "_" ++ t ++ "--" ++ Text.decimal k ++ "--") ++
        sanitize f := by
      simp [sanitize, blob_key]
    rw [parts, List.getLast?_append]
    cases found : (sanitize f).getLast? with
    | none => exact (some_f (List.getLast?_eq_none_iff.1 found)).elim
    | some c => rfl
  rw [← last dongle ts m f some_f, names, last dongle' ts' n cam some_cam] at other
  exact other rfl

/-- A camera is stored after an item when it was before, or the item's file is stored where
it would be. -/
theorem stored_process (dongle ts : Text) (seg : Int) {cam : Text} (camera : cam ∈ CAMERA_FILES)
    (ran : process env it w = some w') :
    Stored env dongle ts w' seg cam ↔
      Stored env dongle ts w seg cam ∨ env.path it.name = env.path (.segment dongle ts seg cam) := by
  obtain ⟨body, w₁, _, blobs, register | ingest⟩ := process_ok ran
  · obtain ⟨there, done⟩ := register
    have other : ∀ f ∈ ARTIFACTS,
        env.path (.segment it.dongle it.ts it.seg f) ≠ env.path (.segment dongle ts seg cam) :=
      fun f listed => derived_not_camera (List.mem_cons_of_mem _ listed) camera
    have kept := blob_of_registers
      (writes_register_segment_file env it.dongle it.ts it.seg it.file body).only other w
    rw [done] at kept
    rw [Stored, Stored, blobs, kept]
    refine (or_iff_left_of_imp fun same => ?_).symm
    rw [← same]
    exact there
  · obtain ⟨absent, done⟩ := ingest
    obtain ⟨stored, registered, store, register, is⟩ := ingest_ok done
    have other : ∀ f ∈ ARTIFACTS,
        env.path (.segment it.dongle it.ts it.seg f) ≠ env.path (.segment dongle ts seg cam) :=
      fun f listed => derived_not_camera (List.mem_cons_of_mem _ listed) camera
    have kept := blob_of_registers
      (writes_register_segment_file env it.dongle it.ts it.seg it.file body).only other stored
    rw [register] at kept
    have last : w₁.blobs.read (env.path (.segment dongle ts seg cam)) =
        registered.blobs.read (env.path (.segment dongle ts seg cam)) := by
      rw [is]
      split
      · cases model : env.extract_model it.file body with
        | none =>
            rw [parse_model_and_store, model]
            rfl
        | some json =>
            rw [parse_model_alone model]
            exact (Dir.read_write ..).trans (if_neg (derived_not_camera List.mem_cons_self camera).symm)
      · rfl
    rw [Stored, Stored, blobs, last, kept, (store_ok store).blobs, Dir.read_write]
    split
    · rename_i here
      simp [show env.path it.name = env.path (.segment dongle ts seg cam) from here.symm]
    · rename_i elsewhere
      exact (or_iff_left fun same => elsewhere same.symm).symm

/-- The effect of an item on the segments of its route. -/
theorem registers_process (ran : process env it w = some w') :
    ∃ w₁ body e, w'.db = w₁.db ∧ Registers env it.dongle it.ts e w w₁ ∧
      e.urls = (Effect.registration env it.dongle it.ts it.seg it.file body w).urls ∧
      e.rows = (Effect.registration env it.dongle it.ts it.seg it.file body w).rows := by
  obtain ⟨body, w₁, db, _, register | ingest⟩ := process_ok ran
  · exact ⟨w₁, body, _, db, (registers_register_segment_file register.2).1, rfl, rfl⟩
  · exact ⟨w₁, body, _, db, (registers_ingest ingest.2).1, rfl, rfl⟩

theorem hasUrl_iff {db : Storage.Db} {dongle ts : Text} {n : Int} {col : UrlCol} :
    HasUrl db (canonical dongle ts n) col ↔ (row_of db dongle ts n).url col ≠ [] := by
  rw [HasUrl, row_of]
  cases db.segments.get? (canonical dongle ts n) with
  | none => cases col <;> simp [Write.segment_row, Segment.url]
  | some s => simp

theorem file_url_iff {dongle ts file : Text} {seg : Int} {col : UrlCol} :
    (∃ url, file_url env dongle ts seg file col url) ↔ column file = some col := by
  unfold file_url column
  cases file_kind file with
  | none => simp
  | some p =>
      obtain ⟨ty, c⟩ := p
      simp

theorem file_url_nonempty {dongle ts file url : Text} {seg : Int} {col : UrlCol}
    (is : file_url env dongle ts seg file col url) : url ≠ [] := by
  obtain ⟨ty, _, rfl⟩ := is
  simp [connectdata_url]

/-- Which files of the device's segments are registered after an item. -/
theorem hasUrl_process (natural : 0 ≤ it.seg) {ts : Text} {seg : Int} (natural' : 0 ≤ seg)
    {col : UrlCol} (ran : process env it w = some w') :
    HasUrl w'.db (canonical it.dongle ts seg) col ↔ HasUrl w.db (canonical it.dongle ts seg) col ∨
      it.ts = ts ∧ it.seg = seg ∧ (column it.file = some col ∨
        Text.contains it.file "qlog" = true ∧ ∃ cam ∈ CAMERA_FILES,
          Stored env it.dongle ts w seg cam ∧ column cam = some col) := by
  obtain ⟨w₁, body, e, db, registers, urls, rows⟩ := registers_process ran
  rw [db]
  by_cases own : it.ts = ts ∧ it.seg = seg
  · obtain ⟨rfl, rfl⟩ := own
    have assigned : (∃ url, e.urls (it.seg, col) url) ↔ (column it.file = some col ∨
        Text.contains it.file "qlog" = true ∧ ∃ cam ∈ CAMERA_FILES,
          Stored env it.dongle it.ts w it.seg cam ∧ column cam = some col) := by
      have in_column : ∀ f, column f = some col ↔
          ∃ url, file_url env it.dongle it.ts it.seg f col url := fun f => file_url_iff.symm
      rw [urls]
      simp only [Effect.registration, true_and, in_column]
      constructor
      · rintro ⟨url, own | ⟨qlog, cam, listed, stored, is⟩⟩
        · exact .inl ⟨url, own⟩
        · exact .inr ⟨qlog, cam, listed, stored, url, is⟩
      · rintro (⟨url, own⟩ | ⟨qlog, cam, listed, stored, url, is⟩)
        · exact ⟨url, .inl own⟩
        · exact ⟨url, .inr ⟨qlog, cam, listed, stored, is⟩⟩
    have nonempty : ∀ url, e.urls (it.seg, col) url → url ≠ [] := by
      rw [urls]
      rintro url ⟨_, own | ⟨_, cam, _, _, is⟩⟩
      · exact file_url_nonempty own
      · exact file_url_nonempty is
    simp only [true_and]
    rw [hasUrl_iff, hasUrl_iff, ← assigned]
    rcases registers.urls (it.seg, col) with holds | ⟨unassigned, kept⟩
    · exact iff_of_true (nonempty _ holds) (.inr ⟨_, holds⟩)
    · dsimp only at kept
      rw [kept]
      exact (or_iff_left fun is => is.elim unassigned).symm
  · have apart : ¬ (it.ts = ts ∧ it.seg = seg ∧ (column it.file = some col ∨
        Text.contains it.file "qlog" = true ∧ ∃ cam ∈ CAMERA_FILES,
          Stored env it.dongle ts w seg cam ∧ column cam = some col)) :=
      fun both => own ⟨both.1, both.2.1⟩
    rw [or_iff_left apart]
    by_cases route : ∃ n, canonical it.dongle ts seg = canonical it.dongle it.ts n
    · obtain ⟨n, same⟩ := route
      have elsewhere : n ≠ it.seg := by
        rintro rfl
        obtain ⟨rfl, rfl⟩ := canonical_natural natural' natural same
        exact own ⟨rfl, rfl⟩
      rw [same, hasUrl_iff, hasUrl_iff]
      rcases registers.urls (n, col) with holds | ⟨_, kept⟩
      · rw [urls] at holds
        exact (elsewhere holds.1).elim
      · dsimp only at kept
        rw [kept]
    · rw [HasUrl, HasUrl, registers.others _ fun n same => route ⟨n, same⟩]

/-- What a scan goes by, but for what is registered, is the same. -/
structure Scans (w w' : World) : Prop where
  settings : w'.db.settings = w.db.settings
  types : ∀ name, (w'.db.routes.get? name).bind Route.sync_types =
    (w.db.routes.get? name).bind Route.sync_types
  named : Named w.db → Named w'.db

theorem Scans.exec {s : Write} (syncs : SyncWrite it s) (done : s.exec env w = some w') : Scans w w' := by
  refine ⟨(Write.framed done).settings, ?_, fun named => named.exec done⟩
  have update : ∀ (p : Route → Bool) (f : Route → Route) (same : ∀ r, (f r).fullname = r.fullname),
      (∀ r, (f r).sync_types = r.sync_types) → ∀ name,
      ((w.db.routes.update p f same).get? name).bind Route.sync_types =
        (w.db.routes.get? name).bind Route.sync_types := by
    intro p f same kept name
    rw [Table.get?_update]
    cases w.db.routes.get? name with
    | none => rfl
    | some r =>
        simp only [Option.map_some, Option.bind_some]
        split
        · exact kept r
        · rfl
  cases s with
  | insert_route dongle ts =>
      simp only [Write.exec, Option.ite_none_left_eq_some] at done
      obtain ⟨_, done⟩ := done
      cases done
      intro name
      rw [Table.get?_insertIfAbsent]
      split
      · cases w.db.routes.get? name with
        | none => rfl
        | some r => rfl
      · rfl
  | set_aggregates name aggregates =>
      cases done
      exact update _ _ (fun _ => by rfl) fun _ => by rfl
  | set_meta name info =>
      cases done
      exact update _ _ (fun _ => by rfl) fun _ => by rfl
  | set_sync_types name types =>
      rcases syncs with (no | ⟨_, _, no, _⟩) | no
      · exact no.elim
      · cases no
      · cases no
  | delete_route name =>
      rcases syncs with (no | ⟨_, _, no, _⟩) | no
      · exact no.elim
      · cases no
      · cases no
  | _ => exact fun name => by rw [(Write.framed done).routes (by simp [Write.part])]

theorem Scans.refl (w : World) : Scans w w := ⟨rfl, fun _ => rfl, id⟩

theorem Scans.trans {a b c : World} (first : Scans a b) (second : Scans b c) : Scans a c :=
  ⟨second.settings.trans first.settings, fun name => (second.types name).trans (first.types name),
    fun named => second.named (first.named named)⟩

theorem scans_process (ran : process env it w = some w') : Scans w w' := by
  have kept : Scans w (alone env (process_item env it) w).2 :=
    WritesOnly.alone (R := Scans) Scans.refl Scans.trans Scans.exec
      (fun _ _ => ⟨rfl, fun _ => rfl, id⟩) (writes_process_item env it).only w
  unfold process at ran
  dsimp only at ran
  split at ran
  · cases ran
    exact kept
  · cases ran

end Process

end HomeConnect.Sync
