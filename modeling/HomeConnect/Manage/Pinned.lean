/-
# Manage.Pinned -- when deleted data is not pulled again

`delete` clears the URLs of what it deleted, by which the files look missing to a scan, and
ends by pinning the drive's types without the deleted ones.  The pin holds back a scan that
reads it.  It does nothing about an item that is queued already, a worker that has taken
one, or a scan that read the types before: any of these stores a deleted file again
(`queued_file_stored_again`).

`Settled` says that none of these is there when the pin is written, that the drive has a row
to hold it, and that no qlog was deleted: a list of types says nothing of qlogs.
`Undisturbed` rules out the steps that take the pin back and the explicit pulls of what was
deleted.  In every run that starts settled and goes on undisturbed, no worker stores a
deleted file (`not_pulled_again`): the pin is held (`Held`), so every scan that reads it
leaves the deleted types out, so none of their files is on the queue.
-/
import HomeConnect.Drives.Poles
import HomeConnect.Manage.Delete
import HomeConnect.Retention.Repull
import HomeConnect.Theory.During

namespace HomeConnect.Manage

open HomeConnect.Theory HomeConnect.Storage HomeConnect.Drives HomeConnect.Media HomeConnect.Sync

set_option autoImplicit false

/-! ## Deletes, scans and workers -/

/-- What is started from outside. -/
inductive Job
  | delete (user : Accounts.User) (name : Text) (req : DeleteReq)
  | set_types (user : Accounts.User) (name : Text) (req : RouteSyncReq)
  | scan (device : Accounts.Device) (opts : SyncOpts)
  | upload (auth : Auth) (dongle ts : Text) (seg : Int) (file : Text) (body : Bytes)
  | retention (policy : Retention.Policy) (rounds : Nat)
deriving DecidableEq

/-- What a task was started for; a worker, with the item it took. -/
inductive Role
  | job (job : Job)
  | work (it : QueueItem)
deriving DecidableEq

def Job.handle (env : Env) : Job → Request Op Unit
  | .delete user name req => do let _ ← Manage.delete env user name req
  | .set_types user name req => do let _ ← set_route_sync env user name req
  | .scan device opts => do let _ ← Sync.scan env device opts
  | .upload auth dongle ts seg file body => do
      let _ ← upload_driving env auth dongle ts seg file body
  | .retention policy rounds => do let _ ← Retention.run_once policy rounds

/-- A worker's round, once it has its item. -/
def handle_item (env : Env) (it : QueueItem) : Request Op Unit := do
  process_item env it
  with_queue fun q => ((), q.done it.key)

inductive Act
  | start (job : Job)
  /-- A worker takes the next item. -/
  | take
  | device_write (dongle path : Text) (bytes : Bytes)
  | set_setting (key value : Text)

abbrev RoleTask := Task Role Op (AppResult Unit)

def Act.act (env : Env) : Act → World → Option (World × List RoleTask)
  | .start job, w => some (w, [⟨.job job, (job.handle env).run⟩])
  | .take, w =>
      w.sync_queue.next.map fun next =>
        ({ w with sync_queue := next.2 }, [⟨.work next.1, (handle_item env next.1).run⟩])
  | .device_write dongle path bytes, w =>
      some ({ w with remote := w.remote.write (dongle, path) bytes }, [])
  | .set_setting key value, w =>
      let settings := put_setting w.db.settings key value
      some ({ w with db.settings := settings }, [])

def rules (env : Env) : Pool.Rules World RoleTask Act Outcome := ⟨Act.act env, Task.turn (Op.exec env)⟩

abbrev State := Pool World RoleTask

/-! ## What was deleted -/

/-- The selectable type a file belongs to. -/
def data_type (file : Text) : Option Text :=
  if Text.contains file "qlog" then some "qlog" else file_type file

/-- The selectable types. -/
def SELECTABLE : List Text := ["qcamera", "fcamera", "dcamera", "ecamera", "qlog", "rlog"]

/-- A route and the types that were deleted of it. -/
structure Deletion where
  dongle : Text
  ts : Text
  types : List Text
deriving DecidableEq, Repr

namespace Deletion

variable (x : Deletion)

def name : Text := fullname x.dongle x.ts

/-- The blob is a file of a deleted type. -/
def Covers : BlobName → Prop
  | .segment dongle ts _ file =>
      dongle = x.dongle ∧ ts = x.ts ∧ ∃ t ∈ x.types, data_type file = some t
  | _ => False

instance : DecidablePred x.Covers := fun name =>
  match name with
  | .segment .. => inferInstanceAs (Decidable (_ ∧ _ ∧ ∃ _ ∈ _, _))
  | .movie .. => inferInstanceAs (Decidable False)
  | .subs .. => inferInstanceAs (Decidable False)

/-- An explicit pull of a deleted type. -/
def AskedBy (device : Accounts.Device) (opts : SyncOpts) : Prop :=
  device.dongle_id = x.dongle ∧ (∀ route ∈ opts.route, route = x.ts) ∧
    ∃ forced ∈ opts.types, ∃ t ∈ x.types, t ∈ forced

/-- A value of the column that leaves the deleted types out. -/
def LeavesOut (value : Option Text) : Prop := ∃ s ∈ value, ∀ t ∈ x.types, t ∉ split_types s

/-- A write that takes the pin back. -/
def Reopens : Write → Prop
  | .delete_route n => n = x.name
  | .set_sync_types n value => n = x.name ∧ ¬ x.LeavesOut value
  | _ => False

/-- No file of a deleted type is queued. -/
def Clean (q : SyncQueue) : Prop := ∀ it ∈ q.pending, ¬ x.Covers it.name

/-- An operation that queues no such file. -/
def Keeps {β : Type} : Op β → Prop
  | .queue f => ∀ q, x.Clean q → x.Clean (f q).2
  | _ => True

/-- An operation that stores no such file. -/
def Stores {β : Type} (f : Op β) : Prop :=
  ∃ name bytes, f.write? = some (.blob_put name bytes) ∧ x.Covers name

/-- What a task may do: queue no such file, and store none as a worker. -/
def Harmless (role : Role) {β : Type} (f : Op β) : Prop :=
  x.Keeps f ∧ ∀ it, role = .work it → ¬ x.Stores f

/-- A worker is about to store a file of a deleted type. -/
def Storing (p : State) : Prop :=
  ∃ t ∈ p.tasks, ∃ it name bytes, t.tag = .work it ∧
    next_write t = some (.blob_put name bytes) ∧ x.Covers name

/-- The task is about to queue such a file. -/
def Queueing : Prog Op (AppResult Unit) → Prop
  | .op f _ => ¬ x.Keeps f
  | .ret _ => False

/-- A task that goes by what it knew before the pin: a worker that may still store its item,
a scan about to queue what it found, an explicit pull. -/
def Threat (t : RoleTask) : Prop :=
  match t.tag with
  | .work it => x.Covers it.name ∧ ¬ t.prog.Uses fun f => ¬ x.Stores f
  | .job (.scan device opts) => x.Queueing t.prog ∨ (x.AskedBy device opts ∧ t.prog.done = false)
  | .job _ => False

/-- The pin can be held, and is all there is to be held. -/
structure Settled (p : State) : Prop where
  expressible : ("qlog" : Text) ∉ x.types
  listed : ∃ r ∈ p.shared.db.routes.rows, r.fullname = x.name
  pending : x.Clean p.shared.sync_queue
  tasks : ∀ t ∈ p.tasks, ¬ x.Threat t

/-- Task `i`, a delete, makes its last write: the pin. -/
def Completes (env : Env) (p₀ : State) (i : Nat) (o : Outcome) (p₁ : State) : Prop :=
  ∃ t user name req n value, p₀.tasks[i]? = some t ∧ t.tag = .job (.delete user name req) ∧
    split_fullname name = .ok (x.dongle, x.ts) ∧ req.types = x.types ∧
    next_write t = some (.set_sync_types n value) ∧
    (rules env).system.step p₀ (.turn i o) = some p₁

/-- The user neither changes the drive's types nor asks for an explicit pull. -/
def Unasked (_ : State) : Pool.Event Act Outcome → Prop
  | .act (.start (.set_types _ name _)) => name ≠ x.name
  | .act (.start (.scan device opts)) => ¬ x.AskedBy device opts
  | _ => True

/-- No explicit pull of a deleted type is started, and no write takes the pin back. -/
def Undisturbed (p : State) : Pool.Event Act Outcome → Prop
  | .act (.start (.scan device opts)) => ¬ x.AskedBy device opts
  | .act _ => True
  | .turn i _ => ∀ s ∈ (p.tasks[i]?).bind next_write, ¬ x.Reopens s

/-- The pin is held: the drive's row leaves the deleted types out, and none of their files is
queued. -/
structure Held (w : World) : Prop where
  named : Named w.db
  pinned : ∃ r ∈ w.db.routes.rows, r.fullname = x.name ∧ x.LeavesOut r.sync_types
  clean : x.Clean w.sync_queue

/-! ## What a scan takes -/

variable {x}

/-- An item of a deleted type is taken only on the strength of that type. -/
theorem taken_covered {device : Accounts.Device} {opts : SyncOpts} {st : ScanState} {line : Text}
    {it : QueueItem} (expressible : ("qlog" : Text) ∉ x.types)
    (takes : scan_line device opts st line = some it) (covered : x.Covers it.name) :
    device.dongle_id = x.dongle ∧ (∀ route ∈ opts.route, route = x.ts) ∧
      ∃ t ∈ x.types, t ∈ st.types opts.types x.ts := by
  unfold scan_line at takes
  split at takes
  · cases takes
  · rename_i ts seg file parsed
    split at takes
    · cases takes
    · rename_i within
      split at takes
      · cases takes
      · rename_i chosen
        split at takes
        · cases takes
        · cases takes
          obtain ⟨own, here, t, deleted, is⟩ := covered
          have here' : ts = x.ts := here
          subst here'
          refine ⟨own, fun route member => ?_, t, deleted, ?_⟩
          · by_contra other
            refine within (Option.any_eq_true _ _ |>.2 ⟨route, member, ?_⟩)
            exact decide_eq_true (Ne.symm other)
          · -- the file is wanted, and not as a qlog
            have known : file_type file = some t := by
              unfold data_type at is
              split at is
              · cases is
                exact absurd deleted expressible
              · exact is
            have no_qlog : ¬ Text.contains file "qlog" = true := by
              intro qlog
              rw [data_type, if_pos qlog] at is
              cases is
              exact expressible deleted
            simp only [wanted, if_neg no_qlog, known, Bool.not_eq_true', decide_eq_false_iff_not,
              not_not] at chosen
            exact chosen

/-- Queueing what a scan takes. -/
theorem keeps_enqueue {items : List QueueItem} (clean : ∀ it ∈ items, ¬ x.Covers it.name) :
    x.Keeps (.queue fun q => q.enqueue items) := by
  intro q before it member
  rw [SyncQueue.enqueue_snd, SyncQueue.pending_foldl_push] at member
  rcases List.mem_append.1 member with old | new
  · exact before it old
  · obtain ⟨pre, post, rfl, _⟩ := SyncQueue.mem_added.1 new
    exact clean it (List.mem_append_right _ List.mem_cons_self)

/-- Without an explicit pull, nothing covered is taken by a scan that has read the pin. -/
theorem clean_of_forced {device : Accounts.Device} {opts : SyncOpts} {st : ScanState}
    {listing : Text} {forced : List Text} (expressible : ("qlog" : Text) ∉ x.types)
    (is : opts.types = some forced) (unasked : ¬ x.AskedBy device opts) :
    ∀ it ∈ (Text.lines listing).filterMap (scan_line device opts st), ¬ x.Covers it.name := by
  intro it member covered
  obtain ⟨line, _, takes⟩ := List.mem_filterMap.1 member
  obtain ⟨own, within, t, deleted, chosen⟩ := taken_covered expressible takes covered
  rw [is] at chosen
  exact unasked ⟨own, within, forced, is, t, deleted, chosen⟩

theorem clean_of_held {device : Accounts.Device} {opts : SyncOpts} {w : World}
    {listing : Text} {reg : List (Text × Reg)} {global : List Text}
    (expressible : ("qlog" : Text) ∉ x.types) (plain : '|' ∉ x.dongle) (held : x.Held w)
    (is : opts.types = none) :
    ∀ it ∈ (Text.lines listing).filterMap (scan_line device opts
      { reg, global, overrides := load_route_overrides device.dongle_id w.db }),
      ¬ x.Covers it.name := by
  intro it member covered
  obtain ⟨line, _, takes⟩ := List.mem_filterMap.1 member
  obtain ⟨own, _, t, deleted, chosen⟩ := taken_covered expressible takes covered
  obtain ⟨r, listed, name, s, value, out⟩ := held.pinned
  have found := lookup_override held.named listed name plain
  rw [is, ScanState.types, own, found, Option.mem_def.1 value] at chosen
  exact out t deleted chosen

/-! ## Scans -/

variable (x) in
/-- Unless it is about to queue a file of a deleted type, the task is harmless from here on. -/
def Tamed (env : Env) (role : Role) (q : Prog Op (AppResult Unit)) : Prop :=
  ¬ x.Queueing q → q.During (Op.exec env) x.Held (x.Harmless role)

section Scan

variable {env : Env} {job : Job}

theorem harmless_of_keeps {β : Type} {f : Op β} (keeps : x.Keeps f) :
    x.Harmless (.job job) f :=
  ⟨keeps, fun it is => by cases is⟩

theorem tamed_of_during {q : Prog Op (AppResult Unit)}
    (during : q.During (Op.exec env) x.Held (x.Harmless (.job job))) : x.Tamed env (.job job) q :=
  fun _ => during

/-- What follows a read is harmless when it is so for what a held state answers. -/
theorem during_select {α : Type} {q : World → α} {g : α → Request Op Unit}
    (rest : ∀ w, x.Held w → (g (q w)).run.During (Op.exec env) x.Held (x.Harmless (.job job))) :
    (select q >>= g).run.During (Op.exec env) x.Held (x.Harmless (.job job)) := by
  refine ⟨harmless_of_keeps trivial, fun o w held => ?_⟩
  cases o with
  | failed => trivial
  | _ => exact rest w held

theorem tamed_select {α : Type} {q : World → α} {g : α → Request Op Unit}
    (whole : (select q >>= g).run.During (Op.exec env) x.Held (x.Harmless (.job job)))
    (rest : ∀ a, (g a).run.Throughout (x.Tamed env (.job job))) :
    (select q >>= g).run.Throughout (x.Tamed env (.job job)) := by
  refine ⟨tamed_of_during whole, fun r => ?_⟩
  cases r with
  | ok a => exact rest a
  | error e => exact tamed_of_during trivial

/-- The end of a scan. -/
def enqueue_taken (device : Accounts.Device) (opts : SyncOpts) (listing : Text)
    (reg : List (Text × Reg)) (types : List Text × List (Text × Option (List Text))) :
    Request Op Unit :=
  with_queue (fun q => q.enqueue ((Text.lines listing).filterMap
    (scan_line device opts { reg, global := types.1, overrides := types.2 }))) >>= fun _ => pure ()

theorem handle_scan (env : Env) (device : Accounts.Device) (opts : SyncOpts) :
    (Job.scan device opts).handle env =
      (Request.err_if (device.last_addr = [])
          (.BadRequest "device address unknown (not seen online yet)") >>= fun _ =>
        select (fun w => find_listing device.dongle_id w.remote) >>= fun listing =>
        select (fun w => load_registration device.dongle_id w.db) >>= fun reg =>
        scan_types env device.dongle_id opts >>= enqueue_taken device opts listing reg) := by
  simp only [Job.handle, scan, bind_assoc]
  rfl

theorem tamed_enqueue_taken {device : Accounts.Device} {opts : SyncOpts} {listing : Text}
    {reg : List (Text × Reg)} {types : List Text × List (Text × Option (List Text))} :
    (enqueue_taken device opts listing reg types).run.Throughout (x.Tamed env (.job job)) := by
  refine ⟨fun free => ⟨harmless_of_keeps (not_not.1 free), fun _ _ _ => trivial⟩, fun n => ?_⟩
  exact tamed_of_during trivial

section Stages

variable {device : Accounts.Device} {opts : SyncOpts} (expressible : ("qlog" : Text) ∉ x.types)
  (plain : '|' ∉ x.dongle) (unasked : ¬ x.AskedBy device opts)

include expressible unasked in
theorem during_forced {forced : List Text} (is : opts.types = some forced) (listing : Text)
    (reg : List (Text × Reg)) (types : List Text × List (Text × Option (List Text))) :
    (enqueue_taken device opts listing reg types).run.During (Op.exec env) x.Held
      (x.Harmless (.job job)) :=
  ⟨harmless_of_keeps (keeps_enqueue (clean_of_forced expressible is unasked)),
    fun _ _ _ => trivial⟩

theorem scan_types_forced {forced : List Text} (is : opts.types = some forced) (dongle : Text)
    (g : List Text × List (Text × Option (List Text)) → Request Op Unit) :
    (scan_types env dongle opts >>= g) = g ([], []) := by
  rw [scan_types, is]
  rfl

theorem scan_types_none (is : opts.types = none) (dongle : Text)
    (g : List Text × List (Text × Option (List Text)) → Request Op Unit) :
    (scan_types env dongle opts >>= g) =
      (get_sync_types env >>= fun global =>
        select (fun w => load_route_overrides dongle w.db) >>= fun overrides =>
          g (global, overrides)) := by
  simp only [scan_types, is, bind_assoc, pure_bind]

include expressible plain unasked

/-- The types are resolved by a read of the pin, or forced by a pull that was not asked for
the deleted ones. -/
theorem during_scan_types (env : Env) (job : Job) (listing : Text) (reg : List (Text × Reg)) :
    (scan_types env device.dongle_id opts >>= enqueue_taken device opts listing reg).run.During
      (Op.exec env) x.Held (x.Harmless (.job job)) := by
  cases is : opts.types with
  | some forced =>
      rw [scan_types_forced is]
      exact during_forced expressible unasked is listing reg _
  | none =>
      rw [scan_types_none is]
      refine ⟨harmless_of_keeps trivial, fun o w _ => ?_⟩
      refine during_select fun w' held => ?_
      exact ⟨harmless_of_keeps (keeps_enqueue (clean_of_held expressible plain held is)),
        fun _ _ _ => trivial⟩

theorem tamed_scan_types (listing : Text) (reg : List (Text × Reg)) :
    (scan_types env device.dongle_id opts >>= enqueue_taken device opts listing reg).run.Throughout
      (x.Tamed env (.job job)) := by
  have whole := during_scan_types expressible plain unasked env job listing reg
  cases is : opts.types with
  | some forced =>
      rw [scan_types_forced is]
      exact tamed_enqueue_taken
  | none =>
      rw [scan_types_none is] at whole ⊢
      refine ⟨tamed_of_during whole, fun r => tamed_select ?_ fun overrides => tamed_enqueue_taken⟩
      refine during_select fun w' held => ?_
      exact ⟨harmless_of_keeps (keeps_enqueue (clean_of_held expressible plain held is)),
        fun _ _ _ => trivial⟩

theorem during_scan (env : Env) (job : Job) :
    ((Job.scan device opts).handle env).run.During (Op.exec env) x.Held (x.Harmless (.job job)) := by
  rw [handle_scan]
  by_cases unknown : device.last_addr = []
  · rw [Request.err_if, if_pos unknown]
    trivial
  · rw [Request.err_if, if_neg unknown]
    refine during_select fun w _ => during_select fun w' _ => ?_
    exact during_scan_types expressible plain unasked env job _ _

theorem tamed_scan :
    ((Job.scan device opts).handle env).run.Throughout (x.Tamed env (.job job)) := by
  have whole := during_scan expressible plain unasked env job
  rw [handle_scan] at whole ⊢
  by_cases unknown : device.last_addr = []
  · rw [Request.err_if, if_pos unknown]
    exact tamed_of_during trivial
  · rw [Request.err_if, if_neg unknown] at whole ⊢
    refine tamed_select whole fun listing => tamed_select ?_ fun reg => ?_
    · exact during_select fun w' _ => during_scan_types expressible plain unasked env job _ _
    · exact tamed_scan_types expressible plain unasked listing reg

end Stages

end Scan

/-! ## The other tasks -/

theorem keeps_of_off_queue {β : Type} {f : Op β} (off : f.off_queue) : x.Keeps f := by
  cases f with
  | queue g => exact off.elim
  | _ => trivial

theorem off_queue_of_writes {allowed : Write → Prop} {α : Type} {p : Request Op α}
    (writes : Writes allowed p) : p.run.Uses fun f => f.off_queue :=
  Prog.Uses.mono writes fun _ ok => ok.1

/-- A worker stores its item's file and what is derived of logs. -/
theorem not_stores_of_sync {it : QueueItem} (uncovered : ¬ x.Covers it.name) {β : Type} {f : Op β}
    (ok : ∀ s, f.write? = some s → SyncWrite it s) : ¬ x.Stores f := by
  rintro ⟨name, bytes, is, covered⟩
  -- no derived file is of a selectable type
  have none : ∀ f ∈ ("model.json" : Text) :: ARTIFACTS, data_type f = none := by decide
  rcases ok _ is with (⟨f, derived, rfl⟩ | ⟨f, _, put, own⟩) | other
  · obtain ⟨_, _, t, _, typed⟩ := covered
    rw [none f (List.mem_cons_of_mem _ derived)] at typed
    cases typed
  · cases put
    rcases own with rfl | rfl
    · exact uncovered covered
    · obtain ⟨_, _, t, _, typed⟩ := covered
      rw [none _ List.mem_cons_self] at typed
      cases typed
  · cases other

theorem keeps_done (key : Text) : x.Keeps (.queue fun q => ((), q.done key)) :=
  fun _ clean => clean

theorem handle_item_keeps (env : Env) (it : QueueItem) : (handle_item env it).run.Uses x.Keeps := by
  refine Request.Uses.bind ?_ fun _ => ⟨keeps_done it.key, fun _ => trivial⟩
  exact (off_queue_of_writes (writes_process_item env it)).mono fun _ off => keeps_of_off_queue off

theorem handle_item_stores (env : Env) {it : QueueItem} (uncovered : ¬ x.Covers it.name) :
    (handle_item env it).run.Uses fun f => ¬ x.Stores f := by
  refine Request.Uses.bind ?_ fun _ => ⟨?_, fun _ => trivial⟩
  · exact Prog.Uses.mono (writes_process_item env it) fun _ ok => not_stores_of_sync uncovered ok.2
  · rintro ⟨name, bytes, is, _⟩
    cases is

/-- What is known of a task at any point of a run. -/
def Underway (x : Deletion) (env : Env) (role : Role) (q : Prog Op (AppResult Unit)) : Prop :=
  match role with
  | .job (.scan device opts) => ¬ x.AskedBy device opts → x.Tamed env role q
  | .job (.delete _ name req) =>
      q.Uses fun f => f.off_queue ∧ ∀ s, f.write? = some s → Deletes name req.types s
  | .job _ => q.Uses fun f => f.off_queue
  | .work it => q.Uses x.Keeps ∧ (¬ x.Covers it.name → q.Uses fun f => ¬ x.Stores f)

theorem underway_start (env : Env) (expressible : ("qlog" : Text) ∉ x.types) (plain : '|' ∉ x.dongle)
    (job : Job) : (job.handle env).run.Throughout (x.Underway env (.job job)) := by
  cases job with
  | scan device opts =>
      by_cases asked : x.AskedBy device opts
      · exact Prog.Throughout.of_all (fun _ unasked => absurd asked unasked) _
      · exact (tamed_scan expressible plain asked).mono fun _ tamed _ => tamed
  | delete user name req =>
      have writes : Writes (Deletes name req.types) ((Job.delete user name req).handle env) :=
        .bind (writes_delete env user name req) fun _ => .pure _
      exact Prog.Uses.throughout writes
  | set_types user name req =>
      have writes := writes_set_route_sync env user name req
      exact (off_queue_of_writes (writes.bind fun _ => .pure ())).throughout
  | upload auth dongle ts seg file body =>
      have writes := writes_upload_driving env dongle ts seg file auth body
      exact (off_queue_of_writes (writes.bind fun _ => .pure ())).throughout
  | retention policy rounds =>
      have writes := Retention.writes_run_once policy rounds
      exact (off_queue_of_writes (writes.bind fun _ => .pure ())).throughout

theorem underway_take (env : Env) (it : QueueItem) :
    (handle_item env it).run.Throughout (x.Underway env (.work it)) := by
  have both : ∀ q : Prog Op (AppResult Unit), q.Uses x.Keeps →
      (¬ x.Covers it.name → q.Uses fun f => ¬ x.Stores f) → q.Throughout (x.Underway env (.work it)) := by
    intro q keeps stores
    induction q with
    | ret a => exact ⟨trivial, fun _ => trivial⟩
    | op f k ih =>
        exact ⟨⟨keeps, stores⟩, fun b => ih b (keeps.2 b) fun free => (stores free).2 b⟩
  exact both _ (handle_item_keeps env it) fun free => handle_item_stores env free

/-- A task that is no threat is harmless from here on. -/
theorem during_of_underway {env : Env} {t : RoleTask} (under : x.Underway env t.tag t.prog)
    (safe : ¬ x.Threat t) : t.prog.During (Op.exec env) x.Held (x.Harmless t.tag) := by
  obtain ⟨role, q⟩ := t
  cases role with
  | work it =>
      have stores : q.Uses fun f => ¬ x.Stores f := by
        by_contra may
        by_cases covered : x.Covers it.name
        · exact safe ⟨covered, may⟩
        · exact may (under.2 covered)
      exact Prog.Uses.during ((under.1.and stores).mono fun _ ok => ⟨ok.1, fun _ _ => ok.2⟩)
  | job job =>
      have quiet : (q.Uses fun f => f.off_queue) →
          q.During (Op.exec env) x.Held (x.Harmless (.job job)) := fun off =>
        Prog.Uses.during (off.mono fun _ off => harmless_of_keeps (keeps_of_off_queue off))
      cases job with
      | scan device opts =>
          obtain ⟨free, unasked⟩ := not_or.1 safe
          by_cases asked : x.AskedBy device opts
          · cases q with
            | ret a => trivial
            | op f k => exact absurd ⟨asked, rfl⟩ unasked
          · exact under asked free
      | delete user name req => exact quiet (under.mono fun _ ok => ok.1)
      | _ => exact quiet under

/-! ## The pin is held -/

/-- A write that does not take the pin back. -/
theorem Held.exec {env : Env} {s : Write} {w w' : World} (held : x.Held w) (kept : ¬ x.Reopens s)
    (done : s.exec env w = some w') : x.Held w' := by
  have framed := Write.framed done
  refine ⟨held.named.exec done, ?_, framed.sync_queue ▸ held.clean⟩
  obtain ⟨r, listed, name, out⟩ := held.pinned
  have updated : ∀ {n : Text} {f : Route → Route} (same : ∀ a, (f a).fullname = a.fullname),
      (n = x.name → x.LeavesOut (f r).sync_types) →
      ∃ r' ∈ (w.db.routes.update (fun r => decide (r.fullname = n)) f same).rows,
        r'.fullname = x.name ∧ x.LeavesOut r'.sync_types := by
    intro n f same left
    refine ⟨_, List.mem_map.2 ⟨r, listed, rfl⟩, ?_, ?_⟩
    · split
      · exact (same r).trans name
      · exact name
    · split
      · rename_i here
        exact left ((of_decide_eq_true here).symm.trans name)
      · exact out
  cases s with
  | insert_route dongle ts =>
      simp only [Write.exec, Option.ite_none_left_eq_some] at done
      obtain ⟨_, done⟩ := done
      cases done
      exact ⟨r, Table.mem_insertIfAbsent.2 (.inl listed), name, out⟩
  | set_aggregates n aggregates =>
      cases done
      exact updated (fun _ => by rfl) fun _ => out
  | set_meta n info =>
      cases done
      exact updated (fun _ => by rfl) fun _ => out
  | set_sync_types n types =>
      cases done
      exact updated (fun _ => by rfl) fun here => not_not.1 fun other => kept ⟨here, other⟩
  | delete_route n =>
      simp only [Write.exec, Option.ite_none_left_eq_some] at done
      obtain ⟨_, done⟩ := done
      cases done
      refine ⟨r, Table.mem_delete.2 ⟨listed, decide_eq_false fun here => kept ?_⟩, name, out⟩
      exact here.symm.trans name
  | _ => exact framed.routes (by simp [Write.part]) ▸ ⟨r, listed, name, out⟩

/-- An operation of a task that is harmless, at a step that does not take the pin back. -/
theorem Held.op {env : Env} {β : Type} {f : Op β} {w : World} (held : x.Held w) (keeps : x.Keeps f)
    (kept : ∀ s, f.write? = some s → ¬ x.Reopens s) (o : Outcome) : x.Held (f.exec env o w).2 := by
  rcases Op.exec_cases env f o w with same | ⟨s, w', is, _, done, after⟩ | ⟨q, _⟩
  · rw [same]
    exact held
  · rw [after]
    exact held.exec (kept s is) done
  · cases f with
    | queue g => exact ⟨held.named, held.pinned, keeps _ held.clean⟩
    | read q => cases o <;> exact held
    | encode inputs => cases o <;> exact held
    | probe => cases o <;> exact held
    | write s =>
        cases o with
        | failed => exact held
        | _ =>
            cases done : s.exec env w with
            | none => simpa only [Op.exec, done] using held
            | some w' => simpa only [Op.exec, done] using held.exec (kept s rfl) done

theorem Held.act {env : Env} {a : Act} {w w' : World} {ts : List RoleTask} (held : x.Held w)
    (acted : a.act env w = some (w', ts)) : x.Held w' := by
  cases a with
  | start job => cases acted; exact held
  | device_write dongle path bytes => cases acted; exact ⟨held.named, held.pinned, held.clean⟩
  | set_setting key value =>
      cases acted
      exact ⟨⟨held.named.devices, held.named.routes, held.named.segments⟩, held.pinned, held.clean⟩
  | take =>
      obtain ⟨⟨it, q⟩, next, made⟩ := Option.map_eq_some_iff.1 acted
      cases made
      refine ⟨held.named, held.pinned, fun it' member => held.clean it' ?_⟩
      rw [SyncQueue.pending_of_next next]
      exact List.mem_cons_of_mem _ member

/-! ## Runs -/

section Runs

variable {env : Env} {w : World} {p₀ p₁ p : State} {i : Nat}

theorem named_of_reach (named : Named w.db)
    (reached : (rules env).system.Reach System.free ⟨w, []⟩ p) : Named p.shared.db := by
  refine reached.invariant (I := fun p => Named p.shared.db) named ?_
  intro p e p' named _ stepped
  obtain ⟨a, w', ts, rfl, acted, rfl⟩ | ⟨i, o, t, w', t', rfl, _, turned, rfl⟩ :=
    Pool.Rules.step_cases stepped
  · cases a with
    | take =>
        obtain ⟨next, _, made⟩ := Option.map_eq_some_iff.1 acted
        cases made
        exact named
    | set_setting key value =>
        cases acted
        exact ⟨named.devices, named.routes, named.segments⟩
    | _ => cases acted; exact named
  · obtain ⟨β, f, k, _, rfl, rfl⟩ := Task.turn_cases turned
    rcases Op.exec_cases env f o p.shared with same | ⟨s, w', _, _, done, after⟩ | ⟨q, same⟩
    · simp only [same]; exact named
    · simp only [after]; exact named.exec done
    · simp only [same]; exact named

theorem underway_of_reach (expressible : ("qlog" : Text) ∉ x.types) (plain : '|' ∉ x.dongle)
    (reached : (rules env).system.Reach System.free ⟨w, []⟩ p) :
    ∀ t ∈ p.tasks, t.prog.Throughout (x.Underway env t.tag) := by
  refine Pool.Rules.Reach.throughout reached (fun t member => (List.not_mem_nil member).elim) ?_
  intro a w' w'' ts acted t member
  cases a with
  | start job =>
      cases acted
      rw [List.mem_singleton.1 member]
      exact underway_start env expressible plain job
  | take =>
      obtain ⟨next, _, made⟩ := Option.map_eq_some_iff.1 acted
      cases made
      rw [List.mem_singleton.1 member]
      exact underway_take env next.1
  | _ => cases acted; cases member

/-- The pin a delete writes leaves its types out. -/
theorem held_of_completes (completes : x.Completes env p₀ i .ok p₁) (settled : x.Settled p₁)
    (named : Named p₁.shared.db)
    (under : ∀ t ∈ p₀.tasks, t.prog.Throughout (x.Underway env t.tag)) : x.Held p₁.shared := by
  obtain ⟨t, user, name, req, n, value, found, role, split, types, pin, stepped⟩ := completes
  refine ⟨named, ?_, settled.pending⟩
  have deletes := (under t (List.mem_of_getElem? found)).here
  obtain ⟨tag, prog⟩ := t
  cases role
  obtain ⟨a, _, _, event, _⟩ | ⟨j, o, t', w', t'', event, found', turned, rfl⟩ :=
    Pool.Rules.step_cases stepped
  · cases event
  · cases event
    cases found.symm.trans found'
    obtain ⟨β, f, k, next, rfl, rfl⟩ := Task.turn_cases turned
    cases next
    cases f with
    | write s =>
        cases pin
        obtain ⟨rfl, kept, out, rfl⟩ := deletes.1.2 _ rfl
        obtain ⟨r, listed, is⟩ := settled.listed
        refine ⟨r, listed, is, ?_⟩
        obtain ⟨r', _, rfl⟩ := List.mem_map.1 listed
        have named' : r'.fullname = n := by
          rw [(fullname_of_split split).1]
          refine Eq.trans ?_ is
          split <;> rfl
        rw [if_pos (decide_eq_true named')]
        refine ⟨_, rfl, fun t deleted pinned => ?_⟩
        rw [split_joined_types] at pinned
        exact out t (mem_clean_types.1 pinned).2 (types ▸ deleted)
    | _ => cases pin

/-- **Deleted data is not pulled again.**  From a delete's pin on, in every run that starts
settled and goes on undisturbed, no worker stores a file of a deleted type. -/
theorem not_pulled_again (env : Env) (x : Deletion) (w : World) (named : Named w.db)
    (p₀ p₁ p : State) (i : Nat) (before : (rules env).system.Reach System.free ⟨w, []⟩ p₀)
    (completes : x.Completes env p₀ i .ok p₁) (settled : x.Settled p₁)
    (after : (rules env).system.Reach x.Undisturbed p₁ p) : ¬ x.Storing p := by
  have plain : '|' ∉ x.dongle := by
    obtain ⟨_, _, _, _, _, _, _, _, split, _⟩ := completes
    exact (fullname_of_split split).2
  have pinned : (rules env).system.Reach System.free ⟨w, []⟩ p₁ := by
    obtain ⟨_, _, _, _, _, _, _, _, _, _, _, stepped⟩ := completes
    exact .next before trivial stepped
  have under := underway_of_reach (x := x) settled.expressible plain pinned
  have held := held_of_completes completes settled (named_of_reach named pinned)
    (underway_of_reach settled.expressible plain before)
  have both : x.Held p.shared ∧ ∀ t ∈ p.tasks,
      t.prog.During (Op.exec env) x.Held (x.Harmless t.tag) := by
    refine Pool.Rules.Reach.during after held (fun t member => ?_) ?_ ?_
    · exact during_of_underway (under t member).here (settled.tasks t member)
    · intro q a w' ts inv undisturbed acted
      refine ⟨inv.act acted, fun t member => ?_⟩
      cases a with
      | start job =>
          cases acted
          rw [List.mem_singleton.1 member]
          have under' := (underway_start env settled.expressible plain job).here
          cases job with
          | scan device opts => exact during_scan settled.expressible plain undisturbed env _
          | _ => exact during_of_underway under' fun threat => threat
      | take =>
          obtain ⟨next, taken, made⟩ := Option.map_eq_some_iff.1 acted
          cases made
          rw [List.mem_singleton.1 member]
          have uncovered := inv.clean next.1 (by
            rw [SyncQueue.pending_of_next taken]
            exact List.mem_cons_self)
          exact during_of_underway (underway_take env next.1).here fun threat =>
            uncovered threat.1
      | _ => cases acted; cases member
    · intro q j o t β f k inv undisturbed found next harmless
      refine inv.op harmless.1 (fun s is => undisturbed s ?_) o
      rw [found, Option.bind_some, next_write, next]
      exact is
  rintro ⟨t, member, it, name, bytes, role, next, covered⟩
  have during := both.2 t member
  obtain ⟨tag, prog⟩ := t
  cases role
  cases prog with
  | ret a => cases next
  | op f k => exact during.1.2 it rfl ⟨name, bytes, next, covered⟩

end Runs

end Deletion

/-! ## Poles -/

private def pin_env : Env := { plain_env with sync_fullres := true }

private def dashcam : Accounts.Device := { dongle_id := "d", last_addr := "a" }

private def owner : Accounts.User := { id := 1, identity := "u", username := "u", is_admin := 1 }

private def camera_file (file : Text) : File (Text × Text) := ⟨("d", remote_path "t" 0 file), [1]⟩

/-- One drive with one segment, and both its cameras on the device. -/
private def pinned_drive (queue : SyncQueue) : World :=
  { one_drive (.single (drive_segment 0)) with
    db.accounts.devices := .single dashcam
    remote := ⟨[camera_file "fcamera.hevc", camera_file "qcamera.ts"], by decide⟩
    sync_queue := queue }

private theorem pinned_drive_named (queue : SyncQueue) : Named (pinned_drive queue).db where
  devices := fun d member => by
    rw [List.mem_singleton.1 member]
    show '|' ∉ ("d" : Text)
    decide
  routes := fun r member => by
    rw [List.mem_singleton.1 member]
    exact ⟨by decide, "t", rfl⟩
  segments := fun s member => by
    rw [List.mem_singleton.1 member]
    exact ⟨"d", "t", by decide, rfl, rfl⟩

private def fcamera_item : QueueItem :=
  { dongle := "d", addr := "a", ts := "t", seg := 0, file := "fcamera.hevc" }

private def waiting : SyncQueue := { pending := [fcamera_item], pending_keys := [fcamera_item.key] }

private def fcamera_deleted : Deletion := { dongle := "d", ts := "t", types := ["fcamera"] }

private def delete_fcamera : Job := .delete owner "d|t" { types := ["fcamera"] }

private def ok_turns (i n : Nat) : List (Pool.Event Act Outcome) := List.replicate n (.turn i .ok)

private def up_to_pin : List (Pool.Event Act Outcome) := .act (.start delete_fcamera) :: ok_turns 0 11

/-- The first task is the delete, about to write the pin. -/
private def at_pin (p : State) : Bool :=
  match p.tasks[0]? with
  | some t => t.tag = .job delete_fcamera ∧ (next_write t).any fun s =>
      match s with
      | .set_sync_types .. => true
      | _ => false
  | none => false

private theorem completes_of_at_pin {p₀ p₁ : State} (ready : at_pin p₀ = true)
    (stepped : (rules pin_env).system.step p₀ (.turn 0 .ok) = some p₁) :
    fcamera_deleted.Completes pin_env p₀ 0 .ok p₁ := by
  unfold at_pin at ready
  split at ready
  · rename_i t found
    obtain ⟨tag, next⟩ := of_decide_eq_true ready
    obtain ⟨s, is, pin⟩ := (Option.any_eq_true _ _).1 next
    split at pin
    · exact ⟨t, _, _, _, _, _, found, tag, rfl, rfl, is, stepped⟩
    · cases pin
  · cases ready

/-- A worker is about to store the camera file. -/
private def about_to_store (t : RoleTask) : Bool :=
  decide (t.tag = .work fcamera_item) && (next_write t).any fun s =>
    match s with
    | .blob_put name _ => fcamera_deleted.Covers name
    | _ => false

private theorem storing_of_about {p : State} (about : p.tasks.any about_to_store = true) :
    fcamera_deleted.Storing p := by
  obtain ⟨t, member, checked⟩ := List.any_eq_true.1 about
  obtain ⟨tag, next⟩ := (Bool.and_eq_true _ _).mp checked
  obtain ⟨s, is, covered⟩ := (Option.any_eq_true _ _).1 next
  split at covered
  · exact ⟨t, member, _, _, _, of_decide_eq_true tag, is, of_decide_eq_true covered⟩
  · cases covered

/-- A check for both conditions: nothing is started but a scan that forces no types, and no
task sets types or deletes a route. -/
private def plain_step (p : State) : Pool.Event Act Outcome → Bool
  | .act (.start (.scan _ opts)) => opts.types.isNone
  | .act (.start _) => false
  | .act _ => true
  | .turn i _ => ((p.tasks[i]?).bind next_write).all fun s =>
      match s with
      | .set_sync_types .. | .delete_route _ => false
      | _ => true

private theorem admitted_of_plain (x : Deletion) (p : State) (e : Pool.Event Act Outcome)
    (plain : plain_step p e = true) : x.Unasked p e ∧ x.Undisturbed p e := by
  cases e with
  | act a =>
      cases a with
      | start job =>
          cases job with
          | scan device opts =>
              have unforced : opts.types = none := Option.isNone_iff_eq_none.1 plain
              have unasked : ¬ x.AskedBy device opts := by
                rintro ⟨_, _, forced, is, _⟩
                rw [unforced] at is
                cases is
              exact ⟨unasked, unasked⟩
          | _ => cases plain
      | _ => exact ⟨trivial, trivial⟩
  | turn i o =>
      refine ⟨trivial, fun s is reopens => ?_⟩
      have checked := Option.all_eq_true _ _ |>.1 plain s is
      cases s with
      | set_sync_types => cases checked
      | delete_route => cases checked
      | _ => exact reopens

/-- In every run from a delete's last write on, without a change of the drive's types and
without an explicit pull, no worker stores a file of a deleted type. -/
def NeverAgain (env : Env) (x : Deletion) : Prop :=
  ∀ (w : World) (p₀ p₁ p : State) (i : Nat) (o : Outcome), Named w.db →
    (rules env).system.Reach System.free ⟨w, []⟩ p₀ → x.Completes env p₀ i o p₁ →
    (rules env).system.Reach x.Unasked p₁ p → ¬ x.Storing p

/-- The camera file is queued when the camera's files are deleted; after the delete the worker
takes the item, copies the file and stores it. -/
theorem queued_file_stored_again :
    ¬ ∀ (env : Env) (x : Deletion), (∀ t ∈ x.types, t ∈ SELECTABLE) → NeverAgain env x := by
  intro claim
  have run : ((rules pin_env).system.replay ⟨pinned_drive waiting, []⟩ up_to_pin).any (fun p₀ =>
      at_pin p₀ && ((rules pin_env).system.step p₀ (.turn 0 .ok)).any fun p₁ =>
        (((rules pin_env).system.guard fun p e => plain_step p e = true).replay p₁
          (.act .take :: ok_turns 1 3)).any fun p => p.tasks.any about_to_store) = true := by
    decide
  obtain ⟨p₀, first, checked⟩ := (Option.any_eq_true _ _).1 run
  obtain ⟨ready, more⟩ := (Bool.and_eq_true _ _).mp checked
  obtain ⟨p₁, stepped, more⟩ := (Option.any_eq_true _ _).1 more
  obtain ⟨p, last, about⟩ := (Option.any_eq_true _ _).1 more
  have after := (System.reach_of_replay_guard last).mono fun p e plain =>
    (admitted_of_plain fcamera_deleted p e plain).1
  exact claim pin_env fcamera_deleted (by decide) _ p₀ p₁ p 0 .ok (pinned_drive_named waiting)
    (System.reach_of_replay first) (completes_of_at_pin ready stepped) after
    (storing_of_about about)

/-- With nothing queued and both files on the device, the scan after the same delete queues
the other camera only. -/
theorem not_pulled_again_other_camera : ∃ p₀ p₁ p : State,
    fcamera_deleted.Completes pin_env p₀ 0 .ok p₁ ∧ fcamera_deleted.Settled p₁ ∧
    (rules pin_env).system.Reach fcamera_deleted.Undisturbed p₁ p ∧ ¬ fcamera_deleted.Storing p ∧
    p.shared.sync_queue.pending.map QueueItem.file = [("qcamera.ts" : Text)] := by
  have run : ((rules pin_env).system.replay ⟨pinned_drive {}, []⟩ up_to_pin).any (fun p₀ =>
      at_pin p₀ && ((rules pin_env).system.step p₀ (.turn 0 .ok)).any fun p₁ =>
        (p₁.shared.sync_queue.pending.isEmpty &&
          p₁.shared.db.routes.rows.any (fun r => r.fullname = fcamera_deleted.name) &&
          p₁.tasks.all fun t => t.tag = .job delete_fcamera) &&
        (((rules pin_env).system.guard fun p e => plain_step p e = true).replay p₁
          (.act (.start (.scan dashcam {})) :: ok_turns 1 5)).any fun p =>
            p.shared.sync_queue.pending.map QueueItem.file = [("qcamera.ts" : Text)]) = true := by
    decide
  obtain ⟨p₀, first, checked⟩ := (Option.any_eq_true _ _).1 run
  obtain ⟨ready, more⟩ := (Bool.and_eq_true _ _).mp checked
  obtain ⟨p₁, stepped, more⟩ := (Option.any_eq_true _ _).1 more
  obtain ⟨calm, more⟩ := (Bool.and_eq_true _ _).mp more
  obtain ⟨p, last, queued⟩ := (Option.any_eq_true _ _).1 more
  obtain ⟨calm, tasks⟩ := (Bool.and_eq_true _ _).mp calm
  obtain ⟨empty, rows⟩ := (Bool.and_eq_true _ _).mp calm
  have completes := completes_of_at_pin ready stepped
  have settled : fcamera_deleted.Settled p₁ := by
    refine ⟨by decide, ?_, fun it member => ?_, fun t member threat => ?_⟩
    · obtain ⟨r, listed, is⟩ := List.any_eq_true.1 rows
      exact ⟨r, listed, of_decide_eq_true is⟩
    · rw [List.isEmpty_iff.1 empty] at member
      cases member
    · have tag : t.tag = .job delete_fcamera := of_decide_eq_true (List.all_eq_true.1 tasks t member)
      unfold Deletion.Threat at threat
      rw [tag] at threat
      exact threat
  have after := (System.reach_of_replay_guard last).mono fun p e plain =>
    (admitted_of_plain fcamera_deleted p e plain).2
  have kept := Deletion.not_pulled_again pin_env fcamera_deleted _ (pinned_drive_named {}) p₀ p₁ p 0
    (System.reach_of_replay first) completes settled after
  exact ⟨p₀, p₁, p, completes, settled, after, kept, of_decide_eq_true queued⟩

end HomeConnect.Manage
