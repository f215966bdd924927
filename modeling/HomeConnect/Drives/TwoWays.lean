/-
# Drives.TwoWays -- a file that is uploaded and a file that is pulled

A segment file reaches the server over HTTP (`upload_driving`) or is pulled off the device
(`ingest_segment_file`).  Both store it and register it alike; but only the second goes on
to derive the model from an rlog.

So the two leave the same blobs, segments and routes, up to the dates of rows, exactly when
there is no model to derive, or it is stored already (`both_ways_agree_iff`): an rlog with a
model frame is browsable in the one case and not in the other
(`uploaded_rlog_without_model`).
-/
import HomeConnect.Drives.Poles
import HomeConnect.Drives.Undated
import HomeConnect.Storage.Keys

namespace HomeConnect.Drives

open HomeConnect.Theory HomeConnect.Storage

set_option autoImplicit false

/-- The same blobs, and the same rows of routes and segments up to their dates. -/
structure SameDrives (w w' : World) : Prop where
  blobs : ∀ path, w.blobs.read path = w'.blobs.read path
  routes : Table.Agree undated_route w.db.routes w'.db.routes
  segments : Table.Agree undated_segment w.db.segments w'.db.segments

theorem SameDrives.of_alike {w w' : World} (alike : Alike w w') : SameDrives w w' :=
  ⟨fun _ => by rw [alike.blobs], alike.routes, alike.segments⟩

def model_name (dongle ts : Text) (seg : Int) : BlobName := .segment dongle ts seg "model.json"

/-- An rlog whose model is not stored yet. -/
def ModelToDerive (env : Env) (w : World) (dongle ts : Text) (seg : Int) (file : Text) (body : Bytes) :
    Prop :=
  Text.contains file "rlog" = true ∧ ∃ json, env.extract_model file body = some json ∧
    w.blobs.read (env.path (model_name dongle ts seg)) ≠ some json

section Both

variable {env : Env} {dongle ts : Text} {seg : Int} {file : Text} {body : Bytes}

/-- What an accepted upload comes to: `store`, then the registration. -/
theorem upload_ok {auth : Auth} {w w' : World}
    (ran : alone env (upload_driving env auth dongle ts seg file body) w = (.ok (.ok ()), w')) :
    ∃ stored, alone env (store env dongle (.segment dongle ts seg file) body) w = (.ok (), stored) ∧
      alone env (register_segment_file env dongle ts seg file body) stored = (.ok (), w') := by
  rw [upload_driving, alone_bind] at ran
  cases allowed : require_device auth dongle with
  | error e =>
      rw [allowed] at ran
      cases ran
  | ok _ =>
      rw [allowed] at ran
      change alone env (store env dongle (.segment dongle ts seg file) body >>= fun _ =>
        Request.capture (register_segment_file env dongle ts seg file body)) w = _ at ran
      rw [alone_bind] at ran
      cases stored : alone env (store env dongle (.segment dongle ts seg file) body) w with
      | mk r w₁ =>
          rw [stored] at ran
          cases r with
          | error e => cases ran
          | ok _ =>
              dsimp only at ran
              rw [alone_capture] at ran
              obtain ⟨result, world⟩ := Prod.ext_iff.1 ran
              exact ⟨w₁, rfl, Prod.ext (Except.ok.inj result) world⟩

/-- A pulled file that was ingested: the same, and then an rlog's model. -/
theorem ingest_ok {w w' : World}
    (ran : alone env (ingest_segment_file env dongle ts seg file body) w = (.ok (), w')) :
    ∃ stored registered,
      alone env (store env dongle (.segment dongle ts seg file) body) w = (.ok (), stored) ∧
      alone env (register_segment_file env dongle ts seg file body) stored = (.ok (), registered) ∧
      w' = if Text.contains file "rlog" then
          (alone env (parse_model_and_store env dongle ts seg file body) registered).2
        else registered := by
  rw [ingest_segment_file, alone_bind] at ran
  cases stored : alone env (store env dongle (.segment dongle ts seg file) body) w with
  | mk r w₁ =>
      rw [stored] at ran
      cases r with
      | error e => cases ran
      | ok _ =>
          dsimp only at ran
          rw [alone_bind] at ran
          cases registered : alone env (register_segment_file env dongle ts seg file body) w₁ with
          | mk r w₂ =>
              rw [registered] at ran
              cases r with
              | error e => cases ran
              | ok _ =>
                  refine ⟨w₁, w₂, rfl, registered, ?_⟩
                  dsimp only at ran
                  split at ran
                  · rename_i rlog
                    rw [alone_ignore] at ran
                    rw [if_pos rlog]
                    exact (congrArg Prod.snd ran).symm
                  · rename_i other
                    rw [if_neg other]
                    exact (congrArg Prod.snd ran).symm

/-- Deriving the model stores it. -/
theorem parse_model_alone {json : Bytes} (model : env.extract_model file body = some json) (w : World) :
    (alone env (parse_model_and_store env dongle ts seg file body) w).2 =
      { w with
        blobs := w.blobs.write (env.path (model_name dongle ts seg)) json
        made := model_name dongle ts seg :: w.made } := by
  rw [parse_model_and_store, model]
  dsimp only
  rw [alone_map_err]
  rfl

/-- Storing and registering a file does not touch the segment's model. -/
theorem model_untouched {w stored registered : World} (named : file ≠ "model.json")
    (first : alone env (store env dongle (.segment dongle ts seg file) body) w = (.ok (), stored))
    (second : alone env (register_segment_file env dongle ts seg file body) stored =
      (.ok (), registered)) :
    registered.blobs.read (env.path (model_name dongle ts seg)) =
      w.blobs.read (env.path (model_name dongle ts seg)) := by
  have plain : '_' ∉ sanitize "model.json" := by decide
  have own : env.path (.segment dongle ts seg file) ≠ env.path (model_name dongle ts seg) :=
    fun same => named (segment_of_path plain same).2
  have derived : ∀ f ∈ ARTIFACTS,
      env.path (.segment dongle ts seg f) ≠ env.path (model_name dongle ts seg) := by
    intro f listed same
    have distinct : ∀ f ∈ ARTIFACTS, f ≠ ("model.json" : Text) := by decide
    exact distinct f listed (segment_of_path plain same).2
  have kept := blob_of_registers (writes_register_segment_file env dongle ts seg file body).only
    derived stored
  rw [second] at kept
  rw [kept, (store_ok first).blobs, Dir.read_write, if_neg own.symm]

/-- **Uploaded and pulled.**  When both succeed, each at its own time, they leave the same
drives exactly when there is no model to derive. -/
theorem both_ways_agree_iff (env : Env) (auth : Auth) (dongle ts : Text) (seg : Int) (file : Text)
    (body : Bytes) (w uploaded pulled : World) (t t' : Int)
    (upload : alone env (upload_driving env auth dongle ts seg file body) { w with now := t } =
      (.ok (.ok ()), uploaded))
    (pull : alone env (ingest_segment_file env dongle ts seg file body) { w with now := t' } =
      (.ok (), pulled)) :
    SameDrives uploaded pulled ↔ ¬ ModelToDerive env w dongle ts seg file body := by
  obtain ⟨stored, store, register⟩ := upload_ok upload
  obtain ⟨stored', registered, store', register', is⟩ := ingest_ok pull
  have alike : Alike stored stored' := by
    have both := undated_store env dongle ts seg file body _ _ (Alike.of_clock w t t')
    rw [store, store'] at both
    exact both.2
  have alike' : Alike uploaded registered := by
    have both := undated_register_segment_file env dongle ts seg file body _ _ alike
    rw [register, register'] at both
    exact both.2
  by_cases rlog : Text.contains file "rlog" = true
  · rw [if_pos rlog] at is
    cases model : env.extract_model file body with
    | none =>
        have nothing : pulled = registered := by
          rw [is, parse_model_and_store, model]
          rfl
        rw [nothing]
        refine ⟨fun _ derive => ?_, fun _ => .of_alike alike'⟩
        obtain ⟨_, json, found, _⟩ := derive
        rw [model] at found
        cases found
    | some json =>
        have named : file ≠ "model.json" := by
          rintro rfl
          exact absurd rlog (by decide)
        rw [parse_model_alone model] at is
        have blobs : pulled.blobs =
            registered.blobs.write (env.path (model_name dongle ts seg)) json := by rw [is]
        have rows : pulled.db = registered.db := by rw [is]
        have before := model_untouched named store' register'
        constructor
        · rintro same ⟨_, json', found, missing⟩
          rw [model] at found
          cases found
          have there := same.blobs (env.path (model_name dongle ts seg))
          rw [blobs, Dir.read_write, if_pos rfl, alike'.blobs, before] at there
          exact missing there
        · intro derived
          have there : w.blobs.read (env.path (model_name dongle ts seg)) = some json := by
            by_contra missing
            exact derived ⟨rlog, json, model, missing⟩
          refine ⟨fun path => ?_, rows ▸ alike'.routes, rows ▸ alike'.segments⟩
          rw [blobs, Dir.read_write, alike'.blobs]
          split
          · rename_i here
            rw [here, before]
            exact there
          · rfl
  · rw [if_neg rlog] at is
    rw [is]
    exact ⟨fun _ derive => rlog derive.1, fun _ => .of_alike alike'⟩

end Both

/-! ## Poles -/

private def uploading : Accounts.Device := { dongle_id := "d" }

private def as_device : Auth := { identity := "d", device := some uploading }

/-- Every rlog has a model. -/
private def ways_env : Env := { plain_env with extract_model := fun _ _ => some [7] }

private def registered_device : World := one_device uploading

private def uploaded_as (file : Text) (t : Int) : AppResult (AppResult Unit) × World :=
  alone ways_env (upload_driving ways_env as_device "d" "t" 0 file [1])
    { registered_device with now := t }

private def pulled_as (file : Text) (t : Int) : AppResult Unit × World :=
  alone ways_env (ingest_segment_file ways_env "d" "t" 0 file [1]) { registered_device with now := t }

/-- An rlog with a model, by one way and by the other. -/
theorem uploaded_rlog_without_model :
    ¬ ∀ (env : Env) (auth : Auth) (dongle ts : Text) (seg : Int) (file : Text) (body : Bytes)
      (w uploaded pulled : World) (t t' : Int),
      alone env (upload_driving env auth dongle ts seg file body) { w with now := t } =
        (.ok (.ok ()), uploaded) →
      alone env (ingest_segment_file env dongle ts seg file body) { w with now := t' } =
        (.ok (), pulled) →
      SameDrives uploaded pulled := by
  intro claim
  have same := claim ways_env as_device "d" "t" 0 "rlog.zst" [1] registered_device
    (uploaded_as "rlog.zst" 1).2 (pulled_as "rlog.zst" 2).2 1 2 rfl rfl
  have model := same.blobs (ways_env.path (model_name "d" "t" 0))
  exact absurd model (by decide)

/-- A camera file, by both ways. -/
theorem both_ways_agree_camera :
    SameDrives (uploaded_as "qcamera.ts" 1).2 (pulled_as "qcamera.ts" 2).2 :=
  (both_ways_agree_iff ways_env as_device "d" "t" 0 "qcamera.ts" [1] registered_device
    (uploaded_as "qcamera.ts" 1).2 (pulled_as "qcamera.ts" 2).2 1 2 rfl rfl).2
    fun derive => absurd derive.1 (by decide)

end HomeConnect.Drives
