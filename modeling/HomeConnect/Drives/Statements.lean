/-
# Drives.Statements -- the atomic steps of drive handling

Everything the drive-handling code does to the outside is one of these: read
something, write something, change the in-memory queue, or run an encoder.  `Write`
lists the SQL statements that change rows and the file operations, each as the code
issues it; `Write.exec` is its effect, `none` when a foreign key refuses it or there is no
file to rename.

An operation's `Outcome` says whether it is carried out; one that is not replies an
error and leaves the world as it was (`exec_failed`).
-/
import HomeConnect.Drives.Aggregate
import HomeConnect.Theory.Pool

namespace HomeConnect.Drives

open HomeConnect.Theory HomeConnect.Storage

set_option autoImplicit false

inductive Write
  -- the blob store
  | blob_put (name : BlobName) (bytes : Bytes)
  | blob_delete (name : BlobName)
  -- the transcode directory
  | ts_write (name : TsName) (bytes : Bytes)
  | ts_rename (tmp out : TsName)
  | ts_remove (name : TsName)
  -- the device
  | rm (dongle path : Text)
  -- `devices`
  | add_server_storage (dongle : Text) (len : Nat)
  | set_last_gps (dongle : Text) (lat lng : Rat) (time : Int)
  -- `routes` and `segments`
  | insert_route (dongle ts : Text)
  | insert_segment (dongle ts : Text) (seg : Int)
  | upsert_segment (dongle ts : Text) (seg : Int) (data : SegData)
  | set_url (dongle ts : Text) (seg : Int) (col : UrlCol) (url : Text)
  | set_aggregates (fullname : Text) (aggregates : Aggregates)
  | set_meta (fullname : Text) (info : RouteMeta)
  | set_sync_types (fullname : Text) (types : Option Text)
  | delete_segments (fullname : Text)
  | delete_route (fullname : Text)
  -- `movies` and `subs`
  | record_movie (fullname cam : Text) (seg_count bytes : Int) (duration : Rat)
  | delete_movie (fullname cam : Text)
  | disable_movie (fullname cam : Text)
  | delete_enabled_movies
  | record_subs (fullname : Text) (seg_count cues bytes : Int)
  | delete_subs (fullname : Text)
  | disable_subs (fullname : Text)
deriving DecidableEq, Repr

/-- The parts of the world a write can touch. -/
inductive Part
  | blobs
  | transcode
  | remote
  | accounts
  | routes
  | segments
  | movies
  | subs
deriving DecidableEq, Repr

namespace Write

def part : Write → Part
  | .blob_put .. | .blob_delete _ => .blobs
  | .ts_write .. | .ts_rename .. | .ts_remove _ => .transcode
  | .rm .. => .remote
  | .add_server_storage .. | .set_last_gps .. => .accounts
  | .insert_route .. | .set_aggregates .. | .set_meta .. | .set_sync_types ..
  | .delete_route _ => .routes
  | .insert_segment .. | .upsert_segment .. | .set_url .. | .delete_segments _ => .segments
  | .record_movie .. | .delete_movie .. | .disable_movie .. | .delete_enabled_movies => .movies
  | .record_subs .. | .delete_subs _ | .disable_subs _ => .subs

/-- The row `INSERT INTO segments` adds; the other columns take their defaults. -/
def segment_row (dongle ts : Text) (seg now : Int) (data : SegData) : Segment :=
  { canonical_name := canonical dongle ts seg
    canonical_route_name := fullname dongle ts
    number := seg
    data
    created_at := now }

def exec (env : Env) : Write → World → Option World
  | .blob_put name bytes, w =>
      some { w with blobs := w.blobs.write (env.path name) bytes, made := name :: w.made }
  | .blob_delete name, w => some { w with blobs := w.blobs.remove (env.path name) }
  | .ts_write name bytes, w =>
      some { w with
        transcode := w.transcode.write name.file bytes, transcoded := name :: w.transcoded }
  | .ts_rename tmp out, w =>
      (w.transcode.read tmp.file).map fun bytes =>
        { w with
          transcode := (w.transcode.remove tmp.file).write out.file bytes
          transcoded := out :: w.transcoded }
  | .ts_remove name, w => some { w with transcode := w.transcode.remove name.file }
  | .rm dongle path, w => some { w with remote := w.remote.remove (dongle, path) }
  | .add_server_storage dongle len, w =>
      let devices := w.db.accounts.devices.update (fun d => decide (d.dongle_id = dongle))
        (fun d => { d with server_storage := d.server_storage + len }) fun _ => rfl
      some { w with db.accounts.devices := devices }
  | .set_last_gps dongle lat lng time, w =>
      let devices := w.db.accounts.devices.update (fun d => decide (d.dongle_id = dongle))
        (fun d => { d with last_gps_lat := lat, last_gps_lng := lng, last_gps_time := time })
        fun _ => rfl
      some { w with db.accounts.devices := devices }
  | .insert_route dongle ts, w =>
      -- `OR IGNORE` does not cover the foreign key
      if (w.db.routes.get? (fullname dongle ts)).isNone &&
          (w.db.accounts.devices.get? dongle).isNone then none
      else
        let row : Route :=
          { fullname := fullname dongle ts, device_dongle_id := dongle, created_at := w.now }
        some { w with db.routes := w.db.routes.insertIfAbsent row }
  | .insert_segment dongle ts seg, w =>
      if w.refuses_segment dongle ts seg then none
      else
        let row := segment_row dongle ts seg w.now {}
        some { w with db.segments := w.db.segments.insertIfAbsent row }
  | .upsert_segment dongle ts seg data, w =>
      if w.refuses_segment dongle ts seg then none
      else
        let segments := w.db.segments.upsert (segment_row dongle ts seg w.now data)
          (fun s => { s with data }) fun _ => rfl
        some { w with db.segments := segments }
  | .set_url dongle ts seg col url, w =>
      let segments := w.db.segments.update
        (fun s => decide (s.canonical_name = canonical dongle ts seg))
        (fun s => s.set_url col url) fun s => s.set_url_canonical_name col url
      some { w with db.segments := segments }
  | .set_aggregates name aggregates, w =>
      let routes := w.db.routes.update (fun r => decide (r.fullname = name))
        (fun r => { r with aggregates }) fun _ => rfl
      some { w with db.routes := routes }
  | .set_meta name info, w =>
      let routes := w.db.routes.update (fun r => decide (r.fullname = name))
        (fun r => { r with info := r.info.overwrite info }) fun _ => rfl
      some { w with db.routes := routes }
  | .set_sync_types name types, w =>
      let routes := w.db.routes.update (fun r => decide (r.fullname = name))
        (fun r => { r with sync_types := types }) fun _ => rfl
      some { w with db.routes := routes }
  | .delete_segments name, w =>
      let segments := w.db.segments.delete fun s => decide (s.canonical_route_name = name)
      some { w with db.segments := segments }
  | .delete_route name, w =>
      -- refused while a segment refers to the row
      if (w.db.routes.get? name).isSome &&
          w.db.segments.rows.any fun s => decide (s.canonical_route_name = name) then none
      else some { w with db.routes := w.db.routes.delete fun r => decide (r.fullname = name) }
  | .record_movie name cam seg_count bytes duration, w =>
      let movies := w.db.movies.upsert
        { fullname := name, cam, seg_count, bytes, duration, built_at := w.now / 1000 }
        (fun m => { m with seg_count, bytes, duration, built_at := w.now / 1000 }) fun _ => rfl
      some { w with db.movies := movies }
  | .delete_movie name cam, w =>
      some { w with db.movies := w.db.movies.delete fun m => decide (m.id = (name, cam)) }
  | .disable_movie name cam, w =>
      let movies := w.db.movies.upsert
        { fullname := name, cam, seg_count := 0, built_at := w.now / 1000, disabled := 1 }
        (fun m => { m with disabled := 1, bytes := 0 }) fun _ => rfl
      some { w with db.movies := movies }
  | .delete_enabled_movies, w =>
      some { w with db.movies := w.db.movies.delete fun m => decide (m.disabled = 0) }
  | .record_subs name seg_count cues bytes, w =>
      let subs := w.db.subs.upsert
        { fullname := name, seg_count, cues, bytes, built_at := w.now / 1000 }
        (fun s => { s with seg_count, cues, bytes, built_at := w.now / 1000 }) fun _ => rfl
      some { w with db.subs := subs }
  | .delete_subs name, w =>
      some { w with db.subs := w.db.subs.delete fun s => decide (s.fullname = name) }
  | .disable_subs name, w =>
      let subs := w.db.subs.upsert
        { fullname := name, seg_count := 0, built_at := w.now / 1000, disabled := 1 }
        (fun s => { s with disabled := 1, bytes := 0 }) fun _ => rfl
      some { w with db.subs := subs }

/-! ## What a write leaves alone -/

/-- Everything outside the part that a write touches is as it was. -/
structure Framed (s : Write) (w w' : World) : Prop where
  blobs : s.part ≠ .blobs → w'.blobs = w.blobs ∧ w'.made = w.made
  transcode : s.part ≠ .transcode → w'.transcode = w.transcode ∧ w'.transcoded = w.transcoded
  remote : s.part ≠ .remote → w'.remote = w.remote
  accounts : s.part ≠ .accounts → w'.db.accounts = w.db.accounts
  routes : s.part ≠ .routes → w'.db.routes = w.db.routes
  segments : s.part ≠ .segments → w'.db.segments = w.db.segments
  movies : s.part ≠ .movies → w'.db.movies = w.db.movies
  subs : s.part ≠ .subs → w'.db.subs = w.db.subs
  settings : w'.db.settings = w.db.settings
  sync_queue : w'.sync_queue = w.sync_queue
  now : w'.now = w.now

theorem framed {env : Env} {s : Write} {w w' : World} (done : s.exec env w = some w') :
    s.Framed w w' := by
  cases s
  case insert_route | insert_segment | upsert_segment | delete_route =>
    simp only [exec, Option.ite_none_left_eq_some] at done
    obtain ⟨_, done⟩ := done
    cases done
    constructor <;> simp [part]
  case ts_rename =>
    obtain ⟨_, _, rfl⟩ := Option.map_eq_some_iff.1 done
    constructor <;> simp [part]
  all_goals
    cases done
    constructor <;> simp [part]

/-- What the store holds after a write. -/
theorem exec_blobs {env : Env} {s : Write} {w w' : World} (done : s.exec env w = some w') :
    w'.blobs =
      match s with
      | .blob_put name bytes => w.blobs.write (env.path name) bytes
      | .blob_delete name => w.blobs.remove (env.path name)
      | _ => w.blobs := by
  cases s
  case blob_put | blob_delete => cases done; rfl
  all_goals exact ((framed done).blobs (by simp [part])).1

/-- What is on the devices after a write. -/
theorem exec_remote {env : Env} {s : Write} {w w' : World} (done : s.exec env w = some w') :
    w'.remote =
      match s with
      | .rm dongle path => w.remote.remove (dongle, path)
      | _ => w.remote := by
  cases s
  case rm => cases done; rfl
  all_goals exact (framed done).remote (by simp [part])

end Write

/-! ## Operations -/

inductive Op : Type → Type 1
  /-- A `SELECT`, a look at a file, or a copy off the device. -/
  | read {α : Type} (q : World → α) : Op (AppResult α)
  | write (s : Write) : Op (AppResult Unit)
  /-- One turn with the queue's lock held. -/
  | queue {α : Type} (f : SyncQueue → α × SyncQueue) : Op α
  /-- An ffmpeg (or whisper) run over the given blobs; `none` when it fails. -/
  | encode (inputs : List BlobName) : Op (Option Bytes)
  /-- An ffprobe run for a duration. -/
  | probe : Op (Option Rat)

/-- How the outside answers: an operation is carried out, or fails, or what an outside
program came up with. -/
inductive Outcome
  | ok
  | failed
  | encoded (bytes : Bytes)
  | probed (duration : Rat)
deriving DecidableEq, Repr

def Op.exec (env : Env) {β : Type} : Op β → Outcome → World → β × World
  | .read _, .failed, w => (.error .Sqlx, w)
  | .read q, _, w => (.ok (q w), w)
  | .write _, .failed, w => (.error .Sqlx, w)
  | .write s, _, w =>
      match s.exec env w with
      | some w' => (.ok (), w')
      | none => (.error .Sqlx, w)
  | .queue f, _, w => ((f w.sync_queue).1, { w with sync_queue := (f w.sync_queue).2 })
  | .encode _, .encoded bytes, w => (some bytes, w)
  | .encode _, _, w => (none, w)
  | .probe, .probed duration, w => (some duration, w)
  | .probe, _, w => (none, w)

/-- The write an operation is. -/
def Op.write? {β : Type} : Op β → Option Write
  | .write s => some s
  | _ => none

/-- All that an operation can do to the world. -/
theorem Op.exec_cases (env : Env) {β : Type} (f : Op β) (o : Outcome) (w : World) :
    (f.exec env o w).2 = w ∨
    (∃ s w', f.write? = some s ∧ o ≠ .failed ∧ s.exec env w = some w' ∧ (f.exec env o w).2 = w') ∨
    ∃ q, (f.exec env o w).2 = { w with sync_queue := q } := by
  cases f with
  | read q => cases o <;> exact .inl rfl
  | write s =>
      cases o with
      | failed => exact .inl rfl
      | _ =>
          cases done : s.exec env w with
          | none => left; simp only [exec, done]
          | some w' =>
              right; left
              exact ⟨s, w', rfl, by simp, done, by simp only [exec, done]⟩
  | queue g => exact .inr (.inr ⟨_, rfl⟩)
  | encode inputs => cases o <;> exact .inl rfl
  | probe => cases o <;> exact .inl rfl

/-- The write a task is about to make. -/
def next_write {T α : Type} (t : Task T Op α) : Option Write :=
  match t.prog with
  | .op f _ => f.write?
  | .ret _ => none

end HomeConnect.Drives
