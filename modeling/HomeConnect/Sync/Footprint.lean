/-
# Sync.Footprint -- what scans and workers may write

A scan writes nothing.  A worker writes what ingesting its item's file may write
(`Write.ingests`), and may delete the device's copy of that file.
-/
import HomeConnect.Sync.Scan
import HomeConnect.Drives.Footprint

namespace HomeConnect.Sync

open HomeConnect.Theory HomeConnect.Storage HomeConnect.Drives

set_option autoImplicit false

/-- What processing a queue item may write. -/
def SyncWrite (it : QueueItem) (s : Write) : Prop :=
  s.ingests it.dongle it.ts it.seg it.file ∨ s = .rm it.dongle (remote_path it.ts it.seg it.file)

variable (env : Env)

theorem writes_toggle {allowed : Write → Prop} (key : Text) (default : Bool) :
    Writes allowed (toggle key default) := by
  refine .bind (Writes.unwrap_or (.select _) _) fun s => ?_
  split <;> exact .pure _

theorem writes_with_queue {allowed : Write → Prop} {α : Type} (f : SyncQueue → α × SyncQueue) :
    WritesOnly allowed (with_queue f) :=
  ⟨fun s is => (by cases is), fun _ => trivial⟩

theorem writes_scan {allowed : Write → Prop} (device : Accounts.Device) (opts : SyncOpts) :
    WritesOnly allowed (scan env device opts) := by
  refine .bind (Writes.err_if _ _).only fun _ => .bind (Writes.select _).only fun listing => ?_
  refine .bind (Writes.select _).only fun reg => .bind (Writes.only ?_) fun types =>
    writes_with_queue _
  rw [scan_types]
  split
  · exact .pure _
  · refine .bind (.bind ?_ fun _ => .pure _) fun _ => .bind (.select _) fun _ => .pure _
    exact Writes.unwrap_or (.select _) _

variable (it : QueueItem)

theorem writes_register_on_disk :
    Writes (Write.registers it.dongle it.ts it.seg) (register_on_disk env it) := by
  refine .bind (.ite (.bind (.select _) fun found => ?_) (.pure _)) fun body =>
    writes_register_segment_file env _ _ _ _ body
  cases found with
  | some bytes => exact .pure _
  | none => exact .throw _

theorem writes_pull_and_ingest :
    Writes (Write.ingests it.dongle it.ts it.seg it.file) (pull_and_ingest env it) := by
  refine .bind ?_ fun bytes => writes_ingest_segment_file env _ _ _ _ bytes
  refine .bind (.err_if _ _) fun _ => .bind (.select _) fun found => ?_
  split
  · exact .pure _
  · exact .throw _

theorem writes_maybe_prune : Writes (SyncWrite it) (maybe_prune env it) := by
  refine .bind (writes_toggle _ _) fun enabled => .ite ?_ (.pure _)
  exact .bind (.blob_exists env _) fun found => .ite (.ite (.attempt (.inr rfl)) (.pure _)) (.pure _)

theorem writes_prune_if_ok (r : AppResult Unit) : Writes (SyncWrite it) (prune_if_ok env it r) := by
  cases r with
  | ok _ => exact writes_maybe_prune env it
  | error e => exact .pure _

theorem writes_process_item : Writes (SyncWrite it) (process_item env it) := by
  refine .bind (.blob_exists env _) fun found => .ite ?_ ?_
  · refine .bind (Writes.capture ?_) fun r => writes_prune_if_ok env it r
    exact (writes_register_on_disk env it).mono fun s registers => .inl (.inl registers)
  · refine .bind (Writes.capture ?_) fun r => writes_prune_if_ok env it r
    exact (writes_pull_and_ingest env it).mono fun s ingests => .inl ingests

theorem writes_work : WritesOnly (fun s => ∃ it, SyncWrite it s) (work env) := by
  refine .bind (writes_with_queue _) fun next => ?_
  cases next with
  | none => exact (Writes.pure _).only
  | some it =>
      exact .bind ((writes_process_item env it).only.mono fun s allowed => ⟨it, allowed⟩) fun _ =>
        writes_with_queue _

end HomeConnect.Sync
