/-
# Sync.Prune -- when auto-prune deletes only what the server holds

`maybe_prune` deletes a file off the device when some blob is stored under its key.
Nothing ties that blob to the file: it may have been copied before openpilot wrote more,
or come from elsewhere, and then the rest of the file is gone
(`grown_file_pruned`).

`Held` says that no stored blob differs from the device's file of the same name.  Two
kinds of step can break it (`Faithful` rules them out): the device changing a file that
is stored already, and a put of bytes that are not the device's.  Without such a step,
whatever is pruned is stored with exactly its bytes (`pruned_is_held`).  That there
still is a blob when the `rm` is issued is a matter of `Theory.Rely`: none of the tasks
deletes one.
-/
import HomeConnect.Drives.Poles
import HomeConnect.Sync.Footprint
import HomeConnect.Theory.Rely

namespace HomeConnect.Sync

open HomeConnect.Theory HomeConnect.Storage HomeConnect.Drives

set_option autoImplicit false

/-! ## Scans, workers, uploads and a device that keeps recording -/

inductive SyncJob
  | scan (device : Accounts.Device) (opts : SyncOpts)
  | work
  | upload (auth : Auth) (dongle ts : Text) (seg : Int) (file : Text) (body : Bytes)
deriving DecidableEq, Repr

def SyncJob.handle (env : Env) : SyncJob → Request Op Unit
  | .scan device opts => Request.ignore (Sync.scan env device opts)
  | .work => Sync.work env
  | .upload auth dongle ts seg file body =>
      Request.ignore (upload_driving env auth dongle ts seg file body)

inductive SyncAct
  | start (job : SyncJob)
  /-- openpilot creates, extends or replaces a file. -/
  | device_write (dongle path : Text) (bytes : Bytes)
  | device_remove (dongle path : Text)
  | set_setting (key value : Text)
deriving DecidableEq, Repr

abbrev SyncTask := Task SyncJob Op (AppResult Unit)

def SyncAct.act (env : Env) : SyncAct → World → Option (World × List SyncTask)
  | .start job, w => some (w, [⟨job, (job.handle env).run⟩])
  | .device_write dongle path bytes, w =>
      some ({ w with remote := w.remote.write (dongle, path) bytes }, [])
  | .device_remove dongle path, w =>
      some ({ w with remote := w.remote.remove (dongle, path) }, [])
  | .set_setting key value, w =>
      let settings := put_setting w.db.settings key value
      some ({ w with db.settings := settings }, [])

def syncRules (env : Env) : Pool.Rules World SyncTask SyncAct Outcome :=
  ⟨SyncAct.act env, Task.turn (Op.exec env)⟩

/-! ## No blob goes away -/

def Stored (env : Env) (w : World) (name : BlobName) : Prop :=
  (w.blobs.read (env.path name)).isSome

/-- What a write needs of the world it finds: nothing is deleted from the store, and a
file is deleted from the device only if its blob is stored. -/
def Checked (env : Env) (w : World) : Write → Prop
  | .blob_delete _ => False
  | .rm dongle path => ∃ ts seg file,
      path = remote_path ts seg file ∧ Stored env w (.segment dongle ts seg file)
  | _ => True

def holding (env : Env) : Rely World Op Outcome where
  exec := Op.exec env
  rely w w' := ∀ path, (w.blobs.read path).isSome → (w'.blobs.read path).isSome
  ok f w := ∀ s, f.write? = some s → Checked env w s

theorem exec_keeps_blobs {env : Env} {s : Write} {w w' : World} (checked : Checked env w s)
    (done : s.exec env w = some w') (path : BlobPath) (stored : (w.blobs.read path).isSome) :
    (w'.blobs.read path).isSome := by
  rw [Write.exec_blobs done]
  cases s with
  | blob_put name bytes =>
      rw [Dir.read_write]
      split
      · rfl
      · exact stored
  | blob_delete name => exact checked.elim
  | _ => exact stored

theorem holding_lawful (env : Env) : (holding env).Lawful where
  refl := fun w path stored => stored
  trans := fun first second path stored => second path (first path stored)
  keeps := by
    intro β f w checked o path stored
    rcases Op.exec_cases env f o w with same | ⟨s, w', is, _, done, after⟩ | ⟨q, same⟩
    · simp only [holding, same]; exact stored
    · simp only [holding, after]; exact exec_keeps_blobs (checked s is) done path stored
    · simp only [holding, same]; exact stored

/-- Writes that need nothing of the world. -/
def Harmless : Write → Prop
  | .blob_delete _ => False
  | .rm .. => False
  | _ => True

theorem assured_of_harmless {env : Env} {α : Type} {p : Request Op α}
    (writes : WritesOnly Harmless p) (w : World) : (holding env).Assured p.run w := by
  refine Rely.Assured.of_uses (fun f w allowed s is => ?_) writes w
  have harmless := allowed s is
  cases s <;> trivial

theorem harmless_of_registers {dongle ts : Text} {seg : Int} (s : Write)
    (registers : s.registers dongle ts seg) : Harmless s := by
  cases s <;> trivial

theorem harmless_of_ingests {dongle ts file : Text} {seg : Int} (s : Write)
    (ingests : s.ingests dongle ts seg file) : Harmless s := by
  rcases ingests with registers | ⟨f, bytes, rfl, _⟩
  · exact harmless_of_registers s registers
  · trivial

section Programs

variable {env : Env}

theorem assured_bind {α β : Type} {p : Request Op α} {g : α → Request Op β} {w : World}
    (first : (holding env).Assured p.run w)
    (rest : ∀ a w', (holding env).Assured (g a).run w') : (holding env).Assured (p >>= g).run w := by
  rw [Request.run_bind]
  refine first.bind (holding_lawful env) fun r w' _ => ?_
  cases r with
  | ok a => exact rest a w'
  | error e => trivial

/-- Deleting the copy of a file whose blob is stored. -/
theorem rm_assured (it : QueueItem) {w : World} (stored : Stored env w it.name) :
    (holding env).Assured (if safe_component it.file then
      Request.attempt (.write (.rm it.dongle (remote_path it.ts it.seg it.file)))
      else pure ()).run w := by
  split
  · intro w' kept
    refine ⟨fun s is => ?_, fun o => trivial⟩
    cases is
    exact ⟨it.ts, it.seg, it.file, rfl, kept _ stored⟩
  · trivial

/-- The copy is deleted only after a look found the blob. -/
theorem maybe_prune_assured (it : QueueItem) (w : World) :
    (holding env).Assured (maybe_prune env it).run w := by
  refine assured_bind (assured_of_harmless (writes_toggle _ _).only w) fun enabled w' => ?_
  split
  · intro w₁ _
    refine ⟨fun s is => (by cases is), fun o => ?_⟩
    have looked : (holding env).Assured (if (w₁.blobs.read (env.path it.name)).isSome then
        if safe_component it.file then
          Request.attempt (.write (.rm it.dongle (remote_path it.ts it.seg it.file)))
        else pure ()
      else pure () : Request Op Unit).run w₁ := by
      split
      · rename_i stored
        exact rm_assured it stored
      · trivial
    cases o with
    | failed => trivial
    | ok => exact looked
    | encoded bytes => exact looked
    | probed duration => exact looked
  · trivial

theorem prune_if_ok_assured (it : QueueItem) (r : AppResult Unit) (w : World) :
    (holding env).Assured (prune_if_ok env it r).run w := by
  cases r with
  | ok _ => exact maybe_prune_assured it w
  | error e => trivial

theorem process_item_assured (it : QueueItem) (w : World) :
    (holding env).Assured (process_item env it).run w := by
  refine assured_bind (assured_of_harmless (Writes.blob_exists env _).only w) fun found w' => ?_
  split
  · exact assured_bind (assured_of_harmless (Writes.capture
      ((writes_register_on_disk env it).mono harmless_of_registers)).only w')
      fun r w'' => prune_if_ok_assured it r w''
  · exact assured_bind (assured_of_harmless (Writes.capture
      ((writes_pull_and_ingest env it).mono harmless_of_ingests)).only w')
      fun r w'' => prune_if_ok_assured it r w''

theorem work_assured (w : World) : (holding env).Assured (work env).run w := by
  refine assured_bind (assured_of_harmless (writes_with_queue _) w) fun next w' => ?_
  cases next with
  | none => trivial
  | some it =>
      refine assured_bind (process_item_assured it w') fun _ w'' => ?_
      exact assured_of_harmless (writes_with_queue _) w''

theorem handle_assured (job : SyncJob) (w : World) :
    (holding env).Assured (job.handle env).run w := by
  cases job with
  | scan device opts => exact assured_of_harmless (Request.Uses.ignore (writes_scan env device opts)) w
  | work => exact work_assured w
  | upload auth dongle ts seg file body =>
      exact assured_of_harmless (Writes.ignore
        ((writes_upload_driving env dongle ts seg file auth body).mono harmless_of_ingests)).only w

end Programs

/-! ## Blobs and device files that agree -/

/-- No stored blob differs from the device's file of the same name. -/
def Held (env : Env) (w : World) : Prop :=
  ∀ dongle ts seg file stored found,
    w.blobs.read (env.path (.segment dongle ts seg file)) = some stored →
    w.remote.read (dongle, remote_path ts seg file) = some found → found = stored

/-- The device changes a file only while no blob is stored for it, unless to the bytes
stored; and bytes are put under a device file's key only if they are the file's. -/
def Faithful (env : Env) (p : Pool World SyncTask) : Pool.Event SyncAct Outcome → Prop
  | .act (.device_write dongle path bytes) => ∀ ts seg file stored,
      path = remote_path ts seg file →
      p.shared.blobs.read (env.path (.segment dongle ts seg file)) = some stored → bytes = stored
  | .act _ => True
  | .turn i _ => ∀ t, p.tasks[i]? = some t → ∀ name bytes k,
      t.prog = .op (.write (.blob_put name bytes)) k → ∀ dongle ts seg file found,
      env.path name = env.path (.segment dongle ts seg file) →
      p.shared.remote.read (dongle, remote_path ts seg file) = some found → found = bytes

theorem Held.exec {env : Env} {s : Write} {w w' : World} (held : Held env w)
    (faithful : ∀ name bytes, s = .blob_put name bytes → ∀ dongle ts seg file found,
      env.path name = env.path (.segment dongle ts seg file) →
      w.remote.read (dongle, remote_path ts seg file) = some found → found = bytes)
    (done : s.exec env w = some w') : Held env w' := by
  intro dongle ts seg file stored found blob copy
  rw [Write.exec_blobs done] at blob
  rw [Write.exec_remote done] at copy
  cases s with
  | blob_put name bytes =>
      rw [Dir.read_write] at blob
      split at blob
      · rename_i here
        cases blob
        exact faithful name stored rfl dongle ts seg file found here.symm copy
      · exact held dongle ts seg file stored found blob copy
  | blob_delete name =>
      rw [Dir.read_remove, Option.ite_none_left_eq_some] at blob
      exact held dongle ts seg file stored found blob.2 copy
  | rm d path =>
      rw [Dir.read_remove, Option.ite_none_left_eq_some] at copy
      exact held dongle ts seg file stored found blob copy.2
  | _ => exact held dongle ts seg file stored found blob copy

theorem Held.act {env : Env} {a : SyncAct} {w w' : World} {ts' : List SyncTask} (held : Held env w)
    (faithful : ∀ dongle path bytes, a = .device_write dongle path bytes → ∀ ts seg file stored,
      path = remote_path ts seg file →
      w.blobs.read (env.path (.segment dongle ts seg file)) = some stored → bytes = stored)
    (acted : a.act env w = some (w', ts')) : Held env w' := by
  cases a with
  | start job => cases acted; exact held
  | set_setting key value => cases acted; exact held
  | device_write d path bytes =>
      cases acted
      intro dongle ts seg file stored found blob copy
      rw [Dir.read_write] at copy
      split at copy
      · rename_i here
        cases copy
        cases here
        exact faithful _ _ _ rfl ts seg file stored rfl blob
      · exact held dongle ts seg file stored found blob copy
  | device_remove d path =>
      cases acted
      intro dongle ts seg file stored found blob copy
      rw [Dir.read_remove, Option.ite_none_left_eq_some] at copy
      exact held dongle ts seg file stored found blob copy.2

/-- The invariant of every faithful run. -/
theorem held_of_reach {env : Env} {w : World} (held : Held env w) {p : Pool World SyncTask}
    (reached : (syncRules env).system.Reach (Faithful env) ⟨w, []⟩ p) : Held env p.shared := by
  refine reached.invariant (I := fun p => Held env p.shared) held ?_
  intro p e p' held faithful stepped
  obtain ⟨a, w', ts, rfl, acted, rfl⟩ | ⟨i, o, t, w', t', rfl, found, turned, rfl⟩ :=
    Pool.Rules.step_cases stepped
  · refine held.act (fun dongle path bytes is => ?_) acted
    subst is
    exact faithful
  · obtain ⟨β, f, k, next, rfl, rfl⟩ := Task.turn_cases turned
    rcases Op.exec_cases env f o p.shared with same | ⟨s, w', is, _, done, after⟩ | ⟨q, same⟩
    · simp only [same]; exact held
    · simp only [after]
      refine held.exec (fun name bytes put => ?_) done
      subst put
      cases f with
      | write s =>
          cases is
          exact faithful t found name bytes k next
      | _ => cases is
    · simp only [same]; exact held

/-- Whatever a task is about to delete off a device is stored with exactly its bytes. -/
def PrunesHeld (env : Env) (p : Pool World SyncTask) : Prop :=
  ∀ t ∈ p.tasks, ∀ dongle path k, t.prog = .op (.write (.rm dongle path)) k →
    ∃ ts seg file stored, path = remote_path ts seg file ∧
      p.shared.blobs.read (env.path (.segment dongle ts seg file)) = some stored ∧
      ∀ found, p.shared.remote.read (dongle, path) = some found → found = stored

/-- **What is pruned is held.**  In every faithful run, whenever `maybe_prune` is about
to delete a file off the device, the blob under the file's key has exactly its bytes. -/
theorem pruned_is_held (env : Env) (w : World) (held : Held env w) (p : Pool World SyncTask)
    (reached : (syncRules env).system.Reach (Faithful env) ⟨w, []⟩ p) : PrunesHeld env p := by
  intro t member dongle path k next
  have assured := Rely.Reach.assured (holding_lawful env) reached (fun a w w' ts acted => by
    cases a with
    | start job =>
        cases acted
        refine ⟨fun path stored => stored, fun t member => ?_⟩
        rw [List.mem_singleton.1 member]
        exact handle_assured job w
    | _ => cases acted; exact ⟨fun path stored => stored, fun t member => (List.not_mem_nil member).elim⟩)
    t member
  rw [next] at assured
  obtain ⟨ts, seg, file, rfl, stored⟩ :=
    (assured p.shared ((holding_lawful env).refl _)).1 _ rfl
  obtain ⟨bytes, blob⟩ := Option.isSome_iff_exists.1 stored
  exact ⟨ts, seg, file, bytes, rfl, blob, fun found copy =>
    held_of_reach held reached dongle ts seg file bytes found blob copy⟩

/-! ## Poles -/

private def pruning_env : Env := { plain_env with device_autoprune := true }

private def recorder : Accounts.Device := { dongle_id := "d", last_addr := "a" }

private def recording : World := one_device recorder

private theorem recording_held : Held pruning_env recording := by
  intro dongle ts seg file stored found blob
  cases blob

private def camera_path : Text := remote_path "t" 0 "qcamera.ts"

private def copied : Text × Text := ("d", camera_path)

private def record (bytes : Bytes) : Pool.Event SyncAct Outcome :=
  .act (.device_write "d" camera_path bytes)

private def turns (i n : Nat) : List (Pool.Event SyncAct Outcome) := List.replicate n (.turn i .ok)

/-- The file the task is about to delete off a device. -/
private def about_to_rm (t : SyncTask) : Option (Text × Text) :=
  match t.prog with
  | .op (.write (.rm dongle path)) _ => some (dongle, path)
  | _ => none

private theorem prog_of_about_to_rm {t : SyncTask} {dongle path : Text}
    (next : about_to_rm t = some (dongle, path)) :
    ∃ k, t.prog = .op (.write (.rm dongle path)) k := by
  unfold about_to_rm at next
  split at next
  · rename_i k prog
    cases next
    exact ⟨k, prog⟩
  · cases next

/-- The camera is copied at one byte, the device writes a second, and the worker then
deletes the device's file. -/
theorem grown_file_pruned : ¬ ∀ (env : Env) (w : World), Held env w → ∀ p : Pool World SyncTask,
    (syncRules env).system.Reach System.free ⟨w, []⟩ p → PrunesHeld env p := by
  intro claim
  have run : ((syncRules pruning_env).system.replay ⟨recording, []⟩
      ([record [1], .act (.start (.scan recorder {}))] ++ turns 0 5 ++ [.act (.start .work)] ++
        turns 1 3 ++ [record [1, 2]] ++ turns 1 10)).any (fun p =>
      p.tasks.map about_to_rm = [none, some copied] ∧
      p.shared.remote.read copied = some [1, 2] ∧
      p.shared.blobs.rows.all (fun f => f.bytes = [1])) = true := by
    decide +kernel
  obtain ⟨p, replayed, checked⟩ := (Option.any_eq_true _ _).1 run
  obtain ⟨heads, copy, blobs⟩ := of_decide_eq_true checked
  have listed : some copied ∈ p.tasks.map about_to_rm := by
    rw [heads]
    exact List.mem_cons_of_mem _ List.mem_cons_self
  obtain ⟨t, member, next⟩ := List.mem_map.1 listed
  obtain ⟨k, prog⟩ := prog_of_about_to_rm next
  obtain ⟨ts, seg, file, stored, _, blob, same⟩ :=
    claim _ _ recording_held p (System.reach_of_replay replayed) t member _ _ k prog
  obtain ⟨f, row, rfl⟩ := Option.map_eq_some_iff.1 blob
  have one := List.all_eq_true.1 blobs f (Table.get?_eq_some.1 row).1
  have two := same _ copy
  rw [← two] at one
  cases of_decide_eq_true one

/-- A check for `Faithful`: all stored blobs, and all device files, are the bytes in
question. -/
private def one_content (p : Pool World SyncTask) : Pool.Event SyncAct Outcome → Bool
  | .act (.device_write _ _ bytes) => p.shared.blobs.rows.all fun f => f.bytes = bytes
  | .act _ => true
  | .turn i _ =>
      match p.tasks[i]? with
      | some ⟨_, .op (.write (.blob_put _ bytes)) _⟩ =>
          p.shared.remote.rows.all fun f => f.bytes = bytes
      | _ => true

private theorem read_of_all {π : Type} [DecidableEq π] {d : Dir π} {bytes found : Bytes} {path : π}
    (all : (d.rows.all fun f => decide (f.bytes = bytes)) = true)
    (read : d.read path = some found) : found = bytes := by
  obtain ⟨f, row, rfl⟩ := Option.map_eq_some_iff.1 read
  exact of_decide_eq_true (List.all_eq_true.1 all f (Table.get?_eq_some.1 row).1)

private theorem faithful_of_one_content (p : Pool World SyncTask)
    (e : Pool.Event SyncAct Outcome) (checked : one_content p e = true) :
    Faithful pruning_env p e := by
  cases e with
  | act a =>
      cases a with
      | device_write dongle path bytes =>
          intro ts seg file stored _ blob
          exact (read_of_all checked blob).symm
      | _ => trivial
  | turn i o =>
      intro t found name bytes k prog dongle ts seg file copy _ read
      obtain ⟨tag, prog'⟩ := t
      cases prog
      simp only [one_content, found] at checked
      exact read_of_all checked read

/-- The same run without the second byte, up to the `rm`. -/
theorem pruned_is_held_complete : ∃ p : Pool World SyncTask,
    (syncRules pruning_env).system.Reach (Faithful pruning_env) ⟨recording, []⟩ p ∧
      PrunesHeld pruning_env p ∧ p.tasks.map about_to_rm = [none, some copied] ∧
      p.shared.remote.read copied = some [1] := by
  have run : (((syncRules pruning_env).system.guard fun p e => one_content p e = true).replay
      ⟨recording, []⟩
      ([record [1], .act (.start (.scan recorder {}))] ++ turns 0 5 ++ [.act (.start .work)] ++
        turns 1 13)).any (fun p =>
      p.tasks.map about_to_rm = [none, some copied] ∧
      p.shared.remote.read copied = some [1]) = true := by
    decide +kernel
  obtain ⟨p, replayed, checked⟩ := (Option.any_eq_true _ _).1 run
  obtain ⟨heads, copy⟩ := of_decide_eq_true checked
  have reached := (System.reach_of_replay_guard replayed).mono faithful_of_one_content
  exact ⟨p, reached, pruned_is_held _ _ recording_held p reached, heads, copy⟩

end HomeConnect.Sync
