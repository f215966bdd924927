/-
# Sync.Links -- every link the server gives out resolves

A segment's `*_url` columns are what the viewer is handed.  They are written by
`set_segment_file` alone, which looks at nothing: that the file behind a link is on the
server is up to its callers.  Each has stored the file just before, has found it stored,
or has read it.

`Linked` says what a link owes: it is the `/connectdata` address of a file of that segment,
of the kind the column is for, and the file is stored.  A write keeps it when it is
`Backed`, and scans, workers, uploads and re-parsing only make backed writes (the triples
below), so `links_resolve`.  Deleting a drive's data is not among the jobs: it takes the
blobs first and the links after.
-/
import HomeConnect.Base.Triples
import HomeConnect.Drives.Poles
import HomeConnect.Drives.Registered
import HomeConnect.Sync.Prune
import HomeConnect.Sync.Reparse

namespace HomeConnect.Sync

open HomeConnect.Theory HomeConnect.Storage HomeConnect.Drives

set_option autoImplicit false

/-! ## The sync, and re-parsing beside it -/

inductive LinkJob
  | sync (job : SyncJob)
  | reparse
deriving DecidableEq, Repr

inductive LinkAct
  | sync (a : SyncAct)
  | reparse
deriving DecidableEq, Repr

abbrev LinkTask := Task LinkJob Op (AppResult Unit)

def LinkAct.act (env : Env) : LinkAct → World → Option (World × List LinkTask)
  | .sync a, w => (a.act env w).map fun r => (r.1, r.2.map fun t => ⟨.sync t.tag, t.prog⟩)
  | .reparse, w => some (w, [⟨.reparse, (Request.ignore (reparse_all env)).run⟩])

def linkRules (env : Env) : Pool.Rules World LinkTask LinkAct Outcome :=
  ⟨LinkAct.act env, Task.turn (Op.exec env)⟩

/-! ## Links -/

/-- The link is the address of a file of the segment, of the column's kind, that is stored. -/
def Resolves (env : Env) (w : World) (dongle ts : Text) (seg : Int) (col : UrlCol) (url : Text) :
    Prop :=
  ∃ file, file_url env dongle ts seg file col url ∧ Stored env w (.segment dongle ts seg file)

/-- Every link of a segment row resolves. -/
def Linked (env : Env) (w : World) : Prop :=
  ∀ s ∈ w.db.segments.rows, ∀ col, s.url col ≠ [] →
    ∃ dongle ts seg, s.canonical_name = canonical dongle ts seg ∧
      Resolves env w dongle ts seg col (s.url col)

/-- What a write owes: no blob goes away, and a link is written only to a stored file. -/
def Backed (env : Env) (w : World) : Write → Prop
  | .blob_delete _ => False
  | .set_url dongle ts seg col url => Resolves env w dongle ts seg col url
  | _ => True

/-- No blob goes away. -/
def Keeping (w w' : World) : Prop :=
  ∀ path, (w.blobs.read path).isSome → (w'.blobs.read path).isSome

theorem Resolves.keep {env : Env} {w w' : World} {dongle ts : Text} {seg : Int} {col : UrlCol}
    {url : Text} (resolves : Resolves env w dongle ts seg col url) (kept : Keeping w w') :
    Resolves env w' dongle ts seg col url := by
  obtain ⟨file, is, stored⟩ := resolves
  exact ⟨file, is, kept _ stored⟩

/-- Links stand as long as the blobs do, whatever rows are left out. -/
theorem Linked.keep {env : Env} {w w' : World} (linked : Linked env w) (kept : Keeping w w')
    (rows : ∀ s ∈ w'.db.segments.rows, ∀ col, s.url col ≠ [] →
      ∃ s₀ ∈ w.db.segments.rows, s₀.canonical_name = s.canonical_name ∧ s₀.url col = s.url col) :
    Linked env w' := by
  intro s member col some_url
  obtain ⟨s₀, old, name, same⟩ := rows s member col some_url
  obtain ⟨dongle, ts, seg, named, resolves⟩ := linked s₀ old col (by rwa [same])
  rw [same] at resolves
  exact ⟨dongle, ts, seg, name ▸ named, resolves.keep kept⟩

/-- A row as it is inserted has no links. -/
@[simp] theorem url_segment_row (dongle ts : Text) (seg now : Int) (data : SegData) (col : UrlCol) :
    (Write.segment_row dongle ts seg now data).url col = [] := by
  cases col <;> rfl

theorem Linked.exec {env : Env} {s : Write} {w w' : World} (linked : Linked env w)
    (backed : Backed env w s) (kept : Keeping w w') (done : s.exec env w = some w') :
    Linked env w' := by
  have framed := (Write.framed done).segments
  cases s with
  | insert_segment dongle ts seg =>
      simp only [Write.exec, Option.ite_none_left_eq_some] at done
      obtain ⟨_, done⟩ := done
      cases done
      refine linked.keep kept fun s member col some_url => ?_
      rcases Table.mem_insertIfAbsent.1 member with old | ⟨rfl, _⟩
      · exact ⟨s, old, rfl, rfl⟩
      · simp at some_url
  | upsert_segment dongle ts seg data =>
      simp only [Write.exec, Option.ite_none_left_eq_some] at done
      obtain ⟨_, done⟩ := done
      cases done
      refine linked.keep kept fun s member col some_url => ?_
      simp only [Table.upsert] at member
      split at member
      · rcases Table.mem_insertIfAbsent.1 member with old | ⟨rfl, _⟩
        · exact ⟨s, old, rfl, rfl⟩
        · simp at some_url
      · obtain ⟨s₀, old, rfl⟩ := List.mem_map.1 member
        refine ⟨s₀, old, ?_⟩
        split
        · exact ⟨rfl, by cases col <;> rfl⟩
        · exact ⟨rfl, rfl⟩
  | set_url dongle ts seg col url =>
      cases done
      intro s member c some_url
      obtain ⟨s₀, old, rfl⟩ := List.mem_map.1 member
      by_cases own : s₀.canonical_name = canonical dongle ts seg
      · rw [if_pos (decide_eq_true own)] at some_url ⊢
        rw [Segment.url_set_url] at some_url ⊢
        rw [Segment.set_url_canonical_name]
        by_cases here : c = col
        · subst here
          rw [if_pos rfl]
          exact ⟨dongle, ts, seg, own, backed.keep kept⟩
        · rw [if_neg here] at some_url ⊢
          obtain ⟨dongle', ts', seg', named, resolves⟩ := linked s₀ old c some_url
          exact ⟨dongle', ts', seg', named, resolves.keep kept⟩
      · rw [if_neg (by simpa using own)] at some_url ⊢
        obtain ⟨dongle', ts', seg', named, resolves⟩ := linked s₀ old c some_url
        exact ⟨dongle', ts', seg', named, resolves.keep kept⟩
  | delete_segments name =>
      cases done
      exact linked.keep kept fun s member col _ => ⟨s, (Table.mem_delete.1 member).1, rfl, rfl⟩
  | blob_delete name => exact backed.elim
  | _ =>
      have same := framed (by simp [Write.part])
      exact linked.keep kept fun s member col _ => ⟨s, same ▸ member, rfl, rfl⟩

/-- What the jobs rely on, and what each of their writes owes. -/
def linking (env : Env) : Guarantee World Op Outcome where
  exec := Op.exec env
  rely w w' := Keeping w w' ∧ (Linked env w → Linked env w')
  ok f w := ∀ s, f.write? = some s → Backed env w s
  legit _ _ _ := True

theorem Backed.checked {env : Env} {w : World} {s : Write} (backed : Backed env w s)
    (no_rm : ∀ dongle path, s ≠ .rm dongle path) : Checked env w s := by
  cases s with
  | blob_delete name => exact backed
  | rm dongle path => exact (no_rm dongle path rfl).elim
  | _ => trivial

/-- A backed write keeps the blobs. -/
theorem Backed.keeping {env : Env} {s : Write} {w w' : World} (backed : Backed env w s)
    (done : s.exec env w = some w') : Keeping w w' := by
  by_cases is_rm : ∃ dongle path, s = .rm dongle path
  · obtain ⟨dongle, path, rfl⟩ := is_rm
    cases done
    exact fun _ stored => stored
  · exact fun path stored => exec_keeps_blobs
      (backed.checked fun dongle path is => is_rm ⟨dongle, path, is⟩) done path stored

theorem linking_lawful (env : Env) : (linking env).Lawful where
  refl _ := ⟨fun _ stored => stored, fun linked => linked⟩
  trans first second :=
    ⟨fun path stored => second.1 path (first.1 path stored), fun linked => second.2 (first.2 linked)⟩
  keeps := by
    intro β f o w backed _
    rcases Op.exec_cases env f o w with same | ⟨s, w', is, _, done, after⟩ | ⟨q, same⟩
    · simp only [linking, same]
      exact ⟨fun _ stored => stored, fun linked => linked⟩
    · simp only [linking, after]
      have kept := (backed s is).keeping done
      exact ⟨kept, fun linked => linked.exec (backed s is) kept done⟩
    · simp only [linking, same]
      exact ⟨fun _ stored => stored, fun linked => linked⟩

/-! ## Triples -/

section Triples

variable {env : Env} {α : Type} {w : World}

/-- A value is returned with its postcondition, and every write is backed. -/
abbrev Links (env : Env) (Q : α → World → Prop) (p : Request Op α) (w : World) : Prop :=
  Request.Gives (linking env) Q p w

/-- Writes that write no link and delete no blob. -/
def Plain : Write → Prop
  | .blob_delete _ => False
  | .set_url .. => False
  | _ => True

theorem Plain.backed {s : Write} (plain : Plain s) (w : World) : Backed env w s := by
  cases s with
  | blob_delete name => exact plain
  | set_url dongle ts seg col url => exact plain.elim
  | _ => trivial

theorem links_plain {p : Request Op α} (writes : WritesOnly Plain p) (w : World) :
    Links env (fun _ _ => True) p w :=
  Request.Gives.of_uses (linking_lawful env) writes fun _ w' _ allowed s is =>
    (allowed s is).backed w'

/-- What is read is still there afterwards, as far as blobs go. -/
theorem links_select {q : World → α} {Q : α → World → Prop}
    (post : ∀ w' w'', Keeping w' w'' → Q (q w') w'') : Links env Q (select q) w := by
  refine Request.Gives.perform (fun w' _ s is => by cases is) fun w' o a w'' _ _ answered after => ?_
  cases o with
  | failed => cases answered
  | ok => cases answered; exact post w' w'' after.1
  | encoded bytes => cases answered; exact post w' w'' after.1
  | probed duration => cases answered; exact post w' w'' after.1

theorem links_execute {s : Write} (backed : ∀ w', Keeping w w' → Backed env w' s) :
    Links env (fun _ _ => True) (execute s) w :=
  Request.Gives.perform (fun w' kept s' is => by cases is; exact backed w' kept.1)
    fun _ _ _ _ _ _ _ _ => trivial

/-- A blob that was found is there. -/
theorem links_blob_exists (name : BlobName) :
    Links env (fun found w' => found = true → Stored env w' name) (blob_exists env name) w := by
  refine Guarantee.Ensures.map (links_select (Q := fun found w' => found = true →
    Stored env w' name) fun w' w'' kept found => kept _ found) fun r w' post a same => ?_
  cases r with
  | ok b => cases same; exact post b rfl
  | error e => cases same; exact fun absurd => nomatch absurd

theorem links_blob_get (name : BlobName) :
    Links env (fun _ w' => Stored env w' name) (blob_get env name) w := by
  refine Request.Gives.bind (linking_lawful env)
    (links_select (Q := fun found w' => found.isSome → Stored env w' name)
      fun w' w'' kept found => kept _ found) fun found w' _ stored => ?_
  cases found with
  | none => exact Request.Gives.throw _
  | some bytes =>
      exact Request.Gives.pure fun w'' kept => kept.1 _ (stored rfl)

theorem Stored.keep {w' : World} {name : BlobName} (stored : Stored env w name)
    (kept : Keeping w w') : Stored env w' name := kept _ stored

variable (dongle ts : Text) (seg : Int) (file : Text)

/-- The link of a file that is stored. -/
theorem links_set_segment_file (stored : Stored env w (.segment dongle ts seg file)) :
    Links env (fun _ _ => True) (set_segment_file env dongle ts seg file) w := by
  cases kind : file_kind file with
  | none =>
      rw [set_segment_file, kind]
      exact Request.Gives.pure fun _ _ => trivial
  | some k =>
      obtain ⟨ty, col⟩ := k
      simp only [set_segment_file, kind]
      refine Request.Gives.bind (linking_lawful env) (links_execute fun _ _ => trivial)
        fun _ w₁ first _ => ?_
      refine Request.Gives.bind (linking_lawful env) (links_execute fun _ _ => trivial)
        fun _ w₂ second _ => ?_
      refine links_execute fun w₃ third => ?_
      exact ⟨file, ⟨ty, kind, rfl⟩, third _ (second.1 _ (first.1 _ stored))⟩

theorem links_set_sibling (cam : Text) :
    Links env (fun _ _ => True) (set_sibling env dongle ts seg cam) w := by
  refine Request.Gives.bind (linking_lawful env) (links_blob_exists _) fun found w' _ there => ?_
  split
  · next yes => exact links_set_segment_file dongle ts seg cam (there yes)
  · exact Request.Gives.pure fun _ _ => trivial

theorem links_upsert_segment (acc : Accum) (stored : Stored env w (.segment dongle ts seg file)) :
    Links env (fun _ _ => True) (upsert_segment env dongle ts seg file acc) w := by
  refine Request.Gives.bind (linking_lawful env) (links_execute fun _ _ => trivial)
    fun _ w₁ first _ => ?_
  refine Request.Gives.bind (linking_lawful env) (links_execute fun _ _ => trivial)
    fun _ w₂ second _ => ?_
  refine Request.Gives.bind (linking_lawful env) (links_set_segment_file dongle ts seg file
    ((stored.keep first.1).keep second.1)) fun _ w₃ _ _ => ?_
  exact Request.Gives.forM (linking_lawful env) fun cam _ _ _ => links_set_sibling dongle ts seg cam

theorem plain_recompute_route : Writes Plain (recompute_route dongle ts) :=
  .bind (.select _) fun _ => .ite (.pure ()) (.execute trivial)

theorem plain_update_last_gps (acc : Accum) : Writes Plain (update_last_gps dongle acc) := by
  rw [update_last_gps]
  split
  · exact .attempt trivial
  · exact .pure ()

theorem links_parse_and_store (raw : Bytes) (stored : Stored env w (.segment dongle ts seg file)) :
    Links env (fun _ _ => True) (parse_and_store env dongle ts seg file raw) w := by
  refine Request.Gives.bind (linking_lawful env)
    (Request.Gives.of_result fun _ _ _ _ => trivial) fun acc w₁ first _ => ?_
  refine Request.Gives.bind (linking_lawful env) (Request.Gives.forM (linking_lawful env)
    fun artifact _ w' _ => Request.Gives.attempt fun _ _ s is => by cases is; trivial)
    fun _ w₂ second _ => ?_
  refine Request.Gives.bind (linking_lawful env) (links_upsert_segment dongle ts seg file acc
    ((stored.keep first.1).keep second.1)) fun _ w₃ _ _ => ?_
  refine Request.Gives.bind (linking_lawful env)
    (links_plain (plain_recompute_route dongle ts).only w₃) fun _ w₄ _ _ => ?_
  exact Request.Gives.bind (linking_lawful env) (links_execute fun _ _ => trivial) fun _ w₅ _ _ =>
    links_plain (plain_update_last_gps dongle acc).only w₅

theorem links_register_segment_file (body : Bytes)
    (stored : Stored env w (.segment dongle ts seg file)) :
    Links env (fun _ _ => True) (register_segment_file env dongle ts seg file body) w := by
  rw [register_segment_file]
  split
  · exact links_parse_and_store dongle ts seg file body stored
  · refine Request.Gives.bind (linking_lawful env)
      (links_set_segment_file dongle ts seg file stored) fun _ w' _ _ => ?_
    exact links_plain (plain_recompute_route dongle ts).ignore.only w'

/-- What was stored without an error is there. -/
theorem links_store (body : Bytes) : Links env (fun _ w' => Stored env w' (.segment dongle ts seg file))
    (store env dongle (.segment dongle ts seg file) body) w := by
  refine Request.Gives.bind (linking_lawful env) (links_blob_exists _) fun found w₁ _ _ => ?_
  refine Request.Gives.bind (linking_lawful env) Request.Gives.err_if fun _ w₂ _ _ => ?_
  refine Request.Gives.bind (linking_lawful env) (Request.Gives.map_err (Q := fun _ w' =>
    Stored env w' (.segment dongle ts seg file)) ?_ _) fun _ w₃ _ stored => ?_
  · refine Request.Gives.perform (fun w' _ s is => by cases is; trivial)
      fun w' o _ w'' _ _ answered after => after.1 _ ?_
    cases o with
    | failed => cases answered
    | ok | encoded _ | probed _ =>
        show ((w'.blobs.write _ body).read _).isSome
        rw [Dir.read_write, if_pos rfl]
        rfl
  · refine Guarantee.Ensures.op (fun _ _ s is => by cases is; trivial) fun w₄ o kept _ => ?_
    intro w₅ later _ _
    have step := (linking_lawful env).keeps (f := Op.write (.add_server_storage dongle body.length))
      (o := o) (s := w₄) (fun s is => by cases is; trivial) trivial
    exact later.1 _ (step.1 _ (kept.1 _ stored))

theorem links_ingest_segment_file (body : Bytes) :
    Links env (fun _ _ => True) (ingest_segment_file env dongle ts seg file body) w := by
  refine Request.Gives.bind (linking_lawful env) (links_store dongle ts seg file body)
    fun _ w₁ _ stored => ?_
  refine Request.Gives.bind (linking_lawful env)
    (links_register_segment_file dongle ts seg file body stored) fun _ w₂ _ _ => ?_
  split
  · refine links_plain (Writes.only (.ignore ?_)) w₂
    rw [parse_model_and_store]
    split
    · exact .pure ()
    · exact .map_err (.execute trivial) _
  · exact Request.Gives.pure fun _ _ => trivial

/-- Registering an upload is registering a file. -/
theorem links_upload_driving (auth : Auth) (body : Bytes) :
    Links env (fun _ _ => True) (upload_driving env auth dongle ts seg file body) w := by
  refine Request.Gives.bind (linking_lawful env)
    (Request.Gives.of_result fun _ _ _ _ => trivial) fun _ w₁ _ _ => ?_
  refine Request.Gives.bind (linking_lawful env) (links_store dongle ts seg file body)
    fun _ w₂ _ stored => ?_
  exact (Request.Gives.capture (links_register_segment_file dongle ts seg file body stored)).weaken
    fun _ _ _ => trivial

end Triples

section Jobs

variable {env : Env} {w : World}

/-- Deleting the device's copy is no concern of the links. -/
theorem plain_prune_if_ok (it : QueueItem) (r : AppResult Unit) :
    Writes Plain (prune_if_ok env it r) := by
  cases r with
  | ok _ =>
      exact .bind (writes_toggle _ _) fun _ => .ite (.bind (.blob_exists env _) fun _ =>
        .ite (.ite (.attempt trivial) (.pure _)) (.pure _)) (.pure _)
  | error e => exact .pure _

theorem links_process_item (it : QueueItem) :
    Links env (fun _ _ => True) (process_item env it) w := by
  refine Request.Gives.bind (linking_lawful env) (links_blob_exists it.name) fun found w₁ _ there => ?_
  split
  · next yes =>
      refine Request.Gives.bind (linking_lawful env) (Request.Gives.capture (Q := fun _ _ => True) ?_)
        fun r w₂ _ _ => links_plain (plain_prune_if_ok it r).only w₂
      -- the blob was found, and stays while its bytes are read
      refine Request.Gives.bind (linking_lawful env) (Q := fun _ _ => True) (R := fun _ _ => True)
        ?_ fun body w₂ kept _ =>
          links_register_segment_file it.dongle it.ts it.seg it.file body ((there yes).keep kept.1)
      rw [body_on_disk]
      split
      · exact (links_blob_get it.name).weaken fun _ _ _ => trivial
      · exact Request.Gives.pure fun _ _ => trivial
  · refine Request.Gives.bind (linking_lawful env) (Request.Gives.capture (Q := fun _ _ => True) ?_)
      fun r w₂ _ _ => links_plain (plain_prune_if_ok it r).only w₂
    refine Request.Gives.bind (linking_lawful env) (Q := fun _ _ => True) (R := fun _ _ => True)
      (links_plain (Writes.only ?_) _) fun bytes w₂ _ _ =>
        links_ingest_segment_file it.dongle it.ts it.seg it.file bytes
    refine .bind (.err_if _ _) fun _ => .bind (.select _) fun copy => ?_
    split
    · exact .pure _
    · exact .throw _

theorem links_work : Links env (fun _ _ => True) (work env) w := by
  refine Request.Gives.bind (linking_lawful env) (links_plain (writes_with_queue _) w)
    fun next w₁ _ _ => ?_
  cases next with
  | none => exact Request.Gives.pure fun _ _ => trivial
  | some it =>
      exact Request.Gives.bind (linking_lawful env) (links_process_item it) fun _ w₂ _ _ =>
        links_plain (writes_with_queue _) w₂

theorem links_reparse_segment (dongle ts : Text) (seg : Int) (files : List Text) :
    Links env (fun _ _ => True) (reparse_segment env dongle ts seg files) w := by
  induction files generalizing w with
  | nil => exact Request.Gives.pure fun _ _ => trivial
  | cons file files ih =>
      refine Request.Gives.bind (linking_lawful env)
        (Request.Gives.capture (links_blob_get _)) fun r w₁ _ read => ?_
      cases r with
      | error e => exact ih
      | ok bytes =>
          refine Request.Gives.bind (linking_lawful env) (Request.Gives.capture
            (links_parse_and_store dongle ts seg file bytes (read bytes rfl))) fun r' w₂ _ _ => ?_
          cases r' <;> exact Request.Gives.pure fun _ _ => trivial

theorem links_reparse_each (rows : List (Text × Int)) :
    Links env (fun _ _ => True) (reparse_each env rows) w := by
  induction rows generalizing w with
  | nil => exact Request.Gives.pure fun _ _ => trivial
  | cons row rows ih =>
      refine Request.Gives.bind (linking_lawful env) (R := fun _ _ => True) ?_ fun done w₁ _ _ =>
        Request.Gives.bind (linking_lawful env) ih fun n w₂ _ _ => Request.Gives.pure fun _ _ => trivial
      rw [reparse_row]
      split
      · exact Request.Gives.pure fun _ _ => trivial
      · exact links_reparse_segment _ _ _ _

theorem links_sync (job : SyncJob) : Links env (fun _ _ => True) (job.handle env) w := by
  cases job with
  | scan device opts => exact links_plain (Request.Uses.ignore (writes_scan env device opts)) w
  | work => exact links_work
  | upload auth dongle ts seg file body =>
      exact Request.Gives.ignore (links_upload_driving dongle ts seg file auth body)

theorem links_reparse : Links env (fun _ _ => True) (Request.ignore (reparse_all env)) w :=
  Request.Gives.ignore (Request.Gives.bind (linking_lawful env)
    (links_select (Q := fun _ _ => True) fun _ _ _ => trivial) fun rows _ _ _ =>
      links_reparse_each rows)

end Jobs

/-- **Links resolve.**  However scans, workers, uploads and re-parsing are interleaved, and
whichever steps fail, every link of every segment row is at any time the address of a
stored file of that segment, of the kind the column is for. -/
theorem links_resolve (env : Env) (w : World) (linked : Linked env w) (p : Pool World LinkTask)
    (reached : (linkRules env).system.Reach System.free ⟨w, []⟩ p) : Linked env p.shared := by
  have run := Guarantee.Reach.ensures (fun _ _ _ => True) (linking_lawful env) reached
    (fun q e _ => ?_) fun q a w' ts _ _ acted => ?_
  · exact run.1.2 linked
  · cases e with
    | act a => trivial
    | turn i o => exact fun _ _ _ _ _ _ => trivial
  · cases a with
    | reparse =>
        cases acted
        refine ⟨(linking_lawful env).refl _, fun t member => ?_⟩
        rw [List.mem_singleton.1 member]
        exact Guarantee.Ensures.weaken links_reparse fun _ _ _ => trivial
    | sync a =>
        cases a with
        | start job =>
            cases acted
            refine ⟨(linking_lawful env).refl _, fun t member => ?_⟩
            rw [List.mem_singleton.1 member]
            exact Guarantee.Ensures.weaken (links_sync job) fun _ _ _ => trivial
        | _ =>
            cases acted
            exact ⟨⟨fun _ stored => stored, fun linked => linked⟩,
              fun t member => (List.not_mem_nil member).elim⟩

/-! ## Poles -/

private def linking_env : Env := { plain_env with device_autoprune := true }

private def dashcam : Accounts.Device := { dongle_id := "d", last_addr := "a" }

private def unlinked : World := one_device dashcam

private theorem unlinked_linked : Linked linking_env unlinked := by
  intro s member
  cases member

private def sent (file : Text) : Pool.Event LinkAct Outcome :=
  .act (.sync (.start (.upload { identity := "d", device := some dashcam } "d" "t" 0 file [])))

private def linking_turns (i n : Nat) : List (Pool.Event LinkAct Outcome) :=
  List.replicate n (.turn i .ok)

/-- The links of a camera and of a qlog. -/
private def two_links : List (Text × Text) :=
  [("u/connectdata/qcam/d/t/0/qcamera.ts", "u/connectdata/qlog/d/t/0/qlog.zst")]

/-- A camera is uploaded, then a qlog. -/
theorem links_resolve_two_links : ∃ p : Pool World LinkTask,
    (linkRules linking_env).system.Reach System.free ⟨unlinked, []⟩ p ∧ Linked linking_env p.shared ∧
      p.shared.db.segments.rows.map (fun s => (s.qcam_url, s.qlog_url)) = two_links := by
  have run : ((linkRules linking_env).system.replay ⟨unlinked, []⟩
      ([sent "qcamera.ts"] ++ linking_turns 0 8 ++ [sent "qlog.zst"] ++ linking_turns 1 18)).any
        (fun p => p.shared.db.segments.rows.map (fun s => (s.qcam_url, s.qlog_url)) = two_links) =
      true := by
    decide +kernel
  obtain ⟨p, replayed, rows⟩ := (Option.any_eq_true _ _).1 run
  have reached := System.reach_of_replay replayed
  exact ⟨p, reached, links_resolve _ _ unlinked_linked p reached, of_decide_eq_true rows⟩

end HomeConnect.Sync
