/-
# Manage.Delete -- deleting selected types of a drive's files

`delete` removes the files of the selected types off the device, off the server, or both.
On the server the blobs and the stale transcodes go, each segment's URL is cleared, the
route is aggregated anew, and last the drive's types are pinned: what is in effect, less the
deleted types.  A cleared URL makes a file look missing to the next scan, so it is the pin
that keeps the scan from pulling it back.
-/
import HomeConnect.Manage.Override
import HomeConnect.Retention.DeleteRoute

namespace HomeConnect.Manage

open HomeConnect.Theory HomeConnect.Storage HomeConnect.Drives HomeConnect.Media HomeConnect.Sync

set_option autoImplicit false

/-! ## Types and segments -/

/-- Map a selectable type to (candidate filenames, segment URL column). -/
def type_spec (t : Text) : Option (List Text × UrlCol) :=
  if t = "qcamera" then some (["qcamera.ts"], .qcam)
  else if t = "fcamera" then some (["fcamera.hevc"], .fcam)
  else if t = "dcamera" then some (["dcamera.hevc"], .dcam)
  else if t = "ecamera" then some (["ecamera.hevc"], .ecam)
  else if t = "qlog" then some (["qlog.zst", "qlog.bz2"], .qlog)
  else if t = "rlog" then some (["rlog.zst", "rlog.bz2"], .rlog)
  else none

/-- `SELECT number FROM segments WHERE canonical_route_name = ? ORDER BY number`. -/
def segment_numbers (name : Text) : Request Op (List Int) :=
  select fun w => (w.db.route_segments name).map Segment.number

/-! ## The request -/

structure DeleteReq where
  types : List Text
  /-- `server` (the default), `device` or `both`. -/
  target : Option Text := none
deriving DecidableEq, Repr

def DeleteReq.do_server (req : DeleteReq) : Bool :=
  decide (req.target.getD "server" ∈ [("server" : Text), "both"])

def DeleteReq.do_device (req : DeleteReq) : Bool :=
  decide (req.target.getD "server" ∈ [("device" : Text), "both"])

/-- Add up what a step counts, over a list. -/
def total {α : Type} (step : α → Request Op (Nat × Nat)) : List α → Request Op (Nat × Nat)
  | [] => pure (0, 0)
  | x :: rest => do
      let (n, m) ← step x
      let (n', m') ← total step rest
      pure (n + n', m + m')

/-! ## The device's files -/

/-- `[ -e '{p}' ] && rm -f '{p}' && echo '{p}'`, on the device that the address reaches. -/
def remove_remote (dongle path : Text) : Request Op (Nat × Nat) := do
  if ← select fun w => (w.remote.read (dongle, path)).isSome then
    execute (.rm dongle path)
    pure (1, 0)
  else pure (0, 0)

/-- Delete files of one route off the device; returns how many there were.  A failed step is
the connection breaking off. -/
def delete_on_device (device : Accounts.Device) (ts : Text) (files : List (Int × Text)) :
    Request Op Nat := do
  Request.err_if (device.last_addr = [])
    (.BadRequest "device address unknown (not seen online yet)")
  Request.err_if (!safe_component ts) (.BadRequest "bad route id")
  let paths := (files.filter fun f => safe_component f.2).map fun f => remote_path ts f.1 f.2
  let (removed, _) ← total (remove_remote device.dongle_id) paths
  pure removed

/-- The candidate files of the types, for every segment. -/
def candidates (segs : List Int) (types : List Text) : List (Int × Text) :=
  segs.flatMap fun seg => types.flatMap fun t =>
    match type_spec t with
    | none => []
    | some (names, _) => names.map fun name => (seg, name)

def remove_from_device (dongle ts : Text) (segs : List Int) (types : List Text) :
    Request Op Nat := do
  match ← load_device dongle with
  | none => throw (.NotFound "unknown device")
  | some device => delete_on_device device ts (candidates segs types)

def device_part (req : DeleteReq) (dongle ts : Text) (segs : List Int) : Request Op Nat :=
  if req.do_device then remove_from_device dongle ts segs req.types else pure 0

/-! ## The server's -/

/-- Delete a blob; how many that were there, and the bytes freed. -/
def remove_blob (env : Env) (name : BlobName) : Request Op (Nat × Nat) := do
  match ← Request.unwrap_or (select fun w => (w.blobs.read (env.path name)).map List.length) none with
  | none => pure (0, 0)
  | some size =>
      Request.attempt (.write (.blob_delete name))
      pure (1, size)

/-- Clear a segment's URL column for a deleted type. -/
def clear_segment_col (dongle ts : Text) (seg : Int) (col : UrlCol) : Request Op Unit :=
  Request.attempt (.write (.set_url dongle ts seg col []))

/-- Camera transcode caches become stale once the source is gone. -/
def remove_transcode (dongle ts : Text) (seg : Int) (t : Text) : Request Op Unit :=
  if t ∈ Retention.TRANSCODED then Request.attempt (.write (.ts_remove ⟨dongle, ts, seg, t⟩))
  else pure ()

/-- One round of the loop over segments and types. -/
def delete_type (env : Env) (dongle ts : Text) (seg : Int) (t : Text) : Request Op (Nat × Nat) :=
  match type_spec t with
  | none => pure (0, 0)
  | some (names, col) => do
      let counts ← total (fun name => remove_blob env (.segment dongle ts seg name)) names
      clear_segment_col dongle ts seg col
      remove_transcode dongle ts seg t
      pure counts

/-- A camera's stitched movie is dropped with its segments. -/
def drop_movie (dongle ts t : Text) : Request Op Unit :=
  if t ∈ MOVIE_CAMS then delete_movie dongle ts t else pure ()

/-- Don't let sync re-pull what was just deleted. -/
def pin_types (env : Env) (name : Text) (types : List Text) : Request Op Unit := do
  let kept := (← effective_route_types env name).filter fun t => decide (t ∉ types)
  Request.ignore (set_route_override name (some kept))

def remove_from_server (env : Env) (name dongle ts : Text) (segs : List Int) (types : List Text) :
    Request Op (Nat × Nat) := do
  let counts ← total (fun seg => total (delete_type env dongle ts seg) types) segs
  recompute_route dongle ts
  types.forM (drop_movie dongle ts)
  pin_types env name types
  pure counts

def server_part (env : Env) (req : DeleteReq) (name dongle ts : Text) (segs : List Int) :
    Request Op (Nat × Nat) :=
  if req.do_server then remove_from_server env name dongle ts segs req.types else pure (0, 0)

/-! ## The handler -/

structure DeleteReply where
  removed : Nat
  freed_bytes : Nat
  device_removed : Nat
deriving DecidableEq, Repr

/-- POST /v1/route/:fullname/delete. -/
def delete (env : Env) (user : Accounts.User) (name : Text) (req : DeleteReq) :
    Request Op DeleteReply := do
  let (dongle, ts) ← Request.of_result (split_fullname name)
  let _ ← can_manage_device user dongle
  let segs ← segment_numbers name
  Request.err_if (!req.do_server && !req.do_device)
    (.BadRequest "target must be server, device, or both")
  let device_removed ← device_part req dongle ts segs
  let (removed, freed_bytes) ← server_part env req name dongle ts segs
  pure { removed, freed_bytes, device_removed }

/-! ## What it writes -/

/-- The writes of a delete: files and rows go, URLs and aggregates change, and the only types
it pins leave the deleted ones out. -/
def Deletes (name : Text) (types : List Text) : Write → Prop
  | .rm .. | .blob_delete _ | .ts_remove _ | .set_url .. | .set_aggregates .. | .delete_movie .. => True
  | .set_sync_types n value =>
      n = name ∧ ∃ kept, (∀ t ∈ kept, t ∉ types) ∧ value = some (joined_types kept)
  | _ => False

section Writes

variable {allowed : Write → Prop} (env : Env)

theorem writes_total {α : Type} {step : α → Request Op (Nat × Nat)} {xs : List α}
    (each : ∀ x ∈ xs, Writes allowed (step x)) : Writes allowed (total step xs) := by
  induction xs with
  | nil => exact .pure _
  | cons x rest ih =>
      refine .bind (each x List.mem_cons_self) fun _ => .bind ?_ fun _ => .pure _
      exact ih fun y member => each y (List.mem_cons_of_mem _ member)

theorem writes_device_part (req : DeleteReq) (name dongle ts : Text) (segs : List Int) :
    Writes (Deletes name req.types) (device_part req dongle ts segs) := by
  refine .ite ?_ (.pure _)
  refine .bind (.select _) fun found => ?_
  cases found with
  | none => exact .throw _
  | some device =>
      refine .bind (.err_if _ _) fun _ => .bind (.err_if _ _) fun _ => .bind ?_ fun _ => .pure _
      refine writes_total fun path _ => .bind (.select _) fun _ => .ite ?_ (.pure _)
      exact .bind (.execute trivial) fun _ => .pure _

theorem writes_delete_type (name dongle ts : Text) (types : List Text) (seg : Int) (t : Text) :
    Writes (Deletes name types) (delete_type env dongle ts seg t) := by
  rw [delete_type]
  split
  · exact .pure _
  · refine .bind (writes_total fun file _ => ?_) fun _ => .bind (.attempt trivial) fun _ => .bind ?_
      fun _ => .pure _
    · refine .bind (.unwrap_or (.select _) _) fun size => ?_
      split
      · exact .pure _
      · exact .bind (.attempt trivial) fun _ => .pure _
    · exact .ite (.attempt trivial) (.pure _)

theorem writes_pin_types (name : Text) (types : List Text) :
    Writes (Deletes name types) (pin_types env name types) := by
  refine .bind (writes_effective_route_types env name) fun effective => .ignore (.execute ?_)
  refine ⟨rfl, _, fun t member => ?_, rfl⟩
  exact of_decide_eq_true (List.mem_filter.1 member).2

theorem writes_server_part (req : DeleteReq) (name dongle ts : Text) (segs : List Int) :
    Writes (Deletes name req.types) (server_part env req name dongle ts segs) := by
  refine .ite ?_ (.pure _)
  refine .bind ?_ fun _ => .bind ?_ fun _ => .bind ?_ fun _ =>
    .bind (writes_pin_types env name req.types) fun _ => .pure _
  · exact writes_total fun seg _ => writes_total fun t _ =>
      writes_delete_type env name dongle ts req.types seg t
  · exact .bind (.select _) fun _ => .ite (.pure _) (.execute trivial)
  · refine Request.Uses.forM fun t _ => Writes.ite ?_ (.pure _)
    exact .bind (.attempt trivial) fun _ => .attempt trivial

theorem writes_delete (user : Accounts.User) (name : Text) (req : DeleteReq) :
    Writes (Deletes name req.types) (delete env user name req) := by
  refine .bind (.of_result _) fun _ => .bind (writes_can_manage_device user _) fun _ => ?_
  refine .bind (.select _) fun segs => .bind (.err_if _ _) fun _ => ?_
  exact .bind (writes_device_part req name _ _ segs) fun _ =>
    .bind (writes_server_part env req name _ _ segs) fun _ => .pure _

end Writes

end HomeConnect.Manage
