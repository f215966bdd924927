/-
# Drives.Footprint -- what ingesting a file may write

Storing, parsing and registering a file of a segment writes that file's blob, the derived
artifacts and rows of the drive tables, and nothing else: it deletes no blob, touches no
transcode, movie or transcript, and nothing on the device.  `Write.ingests` is that list, and there
is one lemma per function.
-/
import HomeConnect.Drives.Ingest

namespace HomeConnect.Drives

open HomeConnect.Theory HomeConnect.Storage

set_option autoImplicit false

/-- An operation that leaves the sync queue alone. -/
def Op.off_queue {β : Type} : Op β → Prop
  | .queue _ => False
  | _ => True

/-- Every write a function may make is allowed. -/
def WritesOnly (allowed : Write → Prop) {α : Type} (p : Request Op α) : Prop :=
  p.run.Uses fun f => ∀ s, f.write? = some s → allowed s

/-- Every write a function may make is allowed, and it leaves the queue alone. -/
def Writes (allowed : Write → Prop) {α : Type} (p : Request Op α) : Prop :=
  p.run.Uses fun f => f.off_queue ∧ ∀ s, f.write? = some s → allowed s

/-- The files derived from a qlog. -/
def ARTIFACTS : List Text := ["coords.json", "events.json", "telemetry.json", "sprite.jpg"]

/-- What registering a file of the segment may write. -/
def Write.registers (dongle ts : Text) (seg : Int) : Write → Prop
  | .blob_put name _ => ∃ f ∈ ARTIFACTS, name = .segment dongle ts seg f
  | .add_server_storage .. => True
  | .set_last_gps .. => True
  | .insert_route d t => d = dongle ∧ t = ts
  | .insert_segment d t n => d = dongle ∧ t = ts ∧ n = seg
  | .upsert_segment d t n _ => d = dongle ∧ t = ts ∧ n = seg
  | .set_url d t n _ _ => d = dongle ∧ t = ts ∧ n = seg
  | .set_aggregates name _ => name = fullname dongle ts
  | .set_meta name _ => name = fullname dongle ts
  | _ => False

/-- What ingesting a file of the segment may write: its blob and an rlog's model, too. -/
def Write.ingests (dongle ts : Text) (seg : Int) (file : Text) (s : Write) : Prop :=
  s.registers dongle ts seg ∨
    ∃ f bytes, s = .blob_put (.segment dongle ts seg f) bytes ∧ (f = file ∨ f = "model.json")

section Rules

variable {allowed : Write → Prop} {α β : Type}

theorem Writes.mono {allowed' : Write → Prop} {p : Request Op α} (writes : Writes allowed p)
    (weaker : ∀ s, allowed s → allowed' s) : Writes allowed' p :=
  Prog.Uses.mono writes fun _ ok => ⟨ok.1, fun s is => weaker s (ok.2 s is)⟩

theorem Writes.only {p : Request Op α} (writes : Writes allowed p) : WritesOnly allowed p :=
  Prog.Uses.mono writes fun _ ok => ok.2

theorem WritesOnly.mono {allowed' : Write → Prop} {p : Request Op α} (writes : WritesOnly allowed p)
    (weaker : ∀ s, allowed s → allowed' s) : WritesOnly allowed' p :=
  Prog.Uses.mono writes fun _ ok s is => weaker s (ok s is)

theorem WritesOnly.bind {p : Request Op α} {g : α → Request Op β} (first : WritesOnly allowed p)
    (rest : ∀ a, WritesOnly allowed (g a)) : WritesOnly allowed (p >>= g) :=
  Request.Uses.bind first rest

theorem Writes.bind {p : Request Op α} {g : α → Request Op β} (first : Writes allowed p)
    (rest : ∀ a, Writes allowed (g a)) : Writes allowed (p >>= g) :=
  Request.Uses.bind first rest

theorem Writes.pure (a : α) : Writes allowed (pure a : Request Op α) := trivial

theorem Writes.throw (e : AppError) : Writes allowed (throw e : Request Op α) := trivial

theorem Writes.of_result (r : AppResult α) : Writes allowed (Request.of_result r) := trivial

theorem Writes.select (q : World → α) : Writes allowed (select q) :=
  Request.Uses.perform ⟨trivial, fun _ is => by cases is⟩

theorem Writes.execute {s : Write} (ok : allowed s) : Writes allowed (execute s) :=
  Request.Uses.perform ⟨trivial, fun _ is => by cases is; exact ok⟩

theorem Writes.attempt {s : Write} (ok : allowed s) :
    Writes allowed (Request.attempt (.write s)) :=
  Request.Uses.attempt ⟨trivial, fun _ is => by cases is; exact ok⟩

theorem Writes.map_err {p : Request Op α} (writes : Writes allowed p) (e : AppError) :
    Writes allowed (Request.map_err p e) :=
  Request.Uses.map_err writes e

theorem Writes.unwrap_or {p : Request Op α} (writes : Writes allowed p) (d : α) :
    Writes allowed (Request.unwrap_or p d) :=
  Request.Uses.unwrap_or writes d

theorem Writes.ignore {p : Request Op α} (writes : Writes allowed p) :
    Writes allowed (Request.ignore p) :=
  Request.Uses.ignore writes

theorem Writes.capture {p : Request Op α} (writes : Writes allowed p) :
    Writes allowed (Request.capture p) :=
  Request.Uses.capture writes

theorem Writes.blob_exists (env : Env) (name : BlobName) :
    Writes allowed (blob_exists env name) :=
  Writes.unwrap_or (.select _) _

theorem Writes.ite {c : Prop} [Decidable c] {p q : Request Op α} (yes : Writes allowed p)
    (no : Writes allowed q) : Writes allowed (if c then p else q) := by
  split
  · exact yes
  · exact no

theorem Writes.err_if (c : Prop) [Decidable c] (e : AppError) :
    Writes allowed (Request.err_if c e) :=
  .ite (.throw e) (.pure ())

end Rules

variable (env : Env) (dongle ts : Text) (seg : Int) (file : Text)

theorem writes_ensure_route : Writes (Write.registers dongle ts seg) (ensure_route dongle ts) :=
  Writes.execute ⟨rfl, rfl⟩

theorem writes_set_segment_file :
    Writes (Write.registers dongle ts seg) (set_segment_file env dongle ts seg file) := by
  rw [set_segment_file]
  split
  · exact .pure ()
  · refine .bind (writes_ensure_route dongle ts seg) fun _ => .bind ?_ fun _ => ?_
    · exact .execute ⟨rfl, rfl, rfl⟩
    · exact .execute ⟨rfl, rfl, rfl⟩

theorem writes_upsert_segment (acc : Accum) :
    Writes (Write.registers dongle ts seg) (upsert_segment env dongle ts seg file acc) := by
  refine .bind (writes_ensure_route dongle ts seg) fun _ => .bind ?_ fun _ => ?_
  · exact .execute ⟨rfl, rfl, rfl⟩
  · refine .bind (writes_set_segment_file env dongle ts seg file) fun _ => ?_
    refine Request.Uses.forM fun cam _ => ?_
    exact Writes.bind (.blob_exists env _) fun _ =>
      .ite (writes_set_segment_file env dongle ts seg cam) (.pure _)

theorem writes_recompute_route :
    Writes (Write.registers dongle ts seg) (recompute_route dongle ts) :=
  .bind (.select _) fun _ => .ite (.pure ()) (.execute rfl)

/-- The artifacts of a qlog are on the list. -/
theorem artifact_listed {acc : Accum} {artifact : Text × Bytes}
    (member : artifact ∈ acc.artifacts env) : artifact.1 ∈ ARTIFACTS := by
  simp only [Accum.artifacts, List.mem_append] at member
  rcases member with ((coords | events) | telemetry) | sprite
  · split at coords
    · cases coords
    · rw [List.mem_singleton.1 coords]
      show ("coords.json" : Text) ∈ ARTIFACTS
      decide
  · split at events
    · cases events
    · rw [List.mem_singleton.1 events]
      show ("events.json" : Text) ∈ ARTIFACTS
      decide
  · split at telemetry
    · cases telemetry
    · rw [List.mem_singleton.1 telemetry]
      show ("telemetry.json" : Text) ∈ ARTIFACTS
      decide
  · split at sprite
    · cases sprite
    · obtain ⟨bytes, _, rfl⟩ := Option.map_eq_some_iff.1 (Option.mem_toList.1 sprite)
      show ("sprite.jpg" : Text) ∈ ARTIFACTS
      decide

theorem writes_parse_and_store (raw : Bytes) :
    Writes (Write.registers dongle ts seg) (parse_and_store env dongle ts seg file raw) := by
  refine .bind (.of_result _) fun acc => .bind ?_ fun _ => ?_
  · exact Request.Uses.forM fun artifact member =>
      Writes.attempt ⟨_, artifact_listed env member, rfl⟩
  · refine .bind (writes_upsert_segment env dongle ts seg file acc) fun _ => ?_
    refine .bind (writes_recompute_route dongle ts seg) fun _ => .bind (.execute rfl) fun _ => ?_
    rw [update_last_gps]
    split
    · exact .attempt trivial
    · exact .pure ()

theorem writes_parse_model_and_store (raw : Bytes) :
    Writes (Write.ingests dongle ts seg file) (parse_model_and_store env dongle ts seg file raw) := by
  rw [parse_model_and_store]
  split
  · exact .pure ()
  · exact Writes.map_err (.execute (.inr ⟨_, _, rfl, .inr rfl⟩)) _

theorem writes_store (body : Bytes) :
    Writes (Write.ingests dongle ts seg file) (store env dongle (.segment dongle ts seg file) body) := by
  refine .bind (.blob_exists env _) fun _ => .bind (.err_if _ _) fun _ => ?_
  refine .bind (Writes.map_err (.execute (.inr ⟨_, _, rfl, .inl rfl⟩)) _) fun _ => ?_
  exact .attempt (.inl trivial)

theorem writes_register_segment_file (body : Bytes) :
    Writes (Write.registers dongle ts seg) (register_segment_file env dongle ts seg file body) :=
  .ite (writes_parse_and_store env dongle ts seg file body)
    (.bind (writes_set_segment_file env dongle ts seg file) fun _ =>
      Writes.ignore (writes_recompute_route dongle ts seg))

theorem writes_ingest_segment_file (body : Bytes) :
    Writes (Write.ingests dongle ts seg file) (ingest_segment_file env dongle ts seg file body) :=
  .bind (writes_store env dongle ts seg file body) fun _ =>
    .bind ((writes_register_segment_file env dongle ts seg file body).mono fun _ => .inl) fun _ =>
      .ite (Writes.ignore (writes_parse_model_and_store env dongle ts seg file body)) (.pure _)

theorem writes_upload_driving (auth : Auth) (body : Bytes) :
    Writes (Write.ingests dongle ts seg file) (upload_driving env auth dongle ts seg file body) :=
  .bind (.of_result _) fun _ => .bind (writes_store env dongle ts seg file body) fun _ =>
    Writes.capture ((writes_register_segment_file env dongle ts seg file body).mono fun _ => .inl)

end HomeConnect.Drives
