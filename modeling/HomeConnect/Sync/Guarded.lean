/-
# Sync.Guarded -- automatic scans, one at a time for each device

A device that connects is scanned (`trigger`), and a loop scans every device that is online
(`sync_all`); both first take the device's sync slot, and give it back when the scan has
ended, however it ended.  A scan asked for by a user (`sync_now`) does not look at the slot.

`one_scan_at_a_time`: in every run of these together with workers and uploads, no two
automatic scans of one device are under way, and each slot taken is held by exactly one task
that is still under way, so that none stays taken.
-/
import HomeConnect.Base.Triples
import HomeConnect.Drives.Poles
import HomeConnect.Sync.Prune
import HomeConnect.Theory.Brackets

namespace HomeConnect.Sync

open HomeConnect.Theory HomeConnect.Storage HomeConnect.Drives

set_option autoImplicit false

/-- The world, and the connection manager's set of devices being scanned. -/
structure Manager where
  world : World
  syncing : List Text := []

inductive ManagerOp : Type → Type 1
  | store {β : Type} (f : Op β) : ManagerOp β
  /-- A step of an automatic scan of the device. -/
  | scan {β : Type} (dongle : Text) (f : Op β) : ManagerOp β
  | try_begin_sync (dongle : Text) : ManagerOp Bool
  | end_sync (dongle : Text) : ManagerOp Unit

def ManagerOp.exec (env : Env) {β : Type} : ManagerOp β → Outcome → Manager → β × Manager
  | .store f, o, m => ((f.exec env o m.world).1, { m with world := (f.exec env o m.world).2 })
  | .scan _ f, o, m => ((f.exec env o m.world).1, { m with world := (f.exec env o m.world).2 })
  | .try_begin_sync dongle, _, m =>
      if dongle ∈ m.syncing then (false, m)
      else (true, { m with syncing := dongle :: m.syncing })
  | .end_sync dongle, _, m =>
      ((), { m with syncing := m.syncing.filter fun d => decide (d ≠ dongle) })

/-- An operation that does not fail. -/
def managed {β : Type} (f : ManagerOp β) : Request ManagerOp β :=
  ExceptT.mk (.op f fun b => .ret (.ok b))

/-! ## The functions -/

/-- `devsync::is_enabled`; `sync_enabled` is the configuration's. -/
def is_enabled (sync_enabled : Bool) : Request ManagerOp Bool :=
  (toggle "sync_enabled" sync_enabled).embed ManagerOp.store

/-- Scan with the slot held, log how it went, and give the slot back. -/
def scan_and_end (env : Env) (device : Accounts.Device) (dongle : Text) : Request ManagerOp Unit := do
  Request.ignore ((scan env device {}).embed (ManagerOp.scan dongle))
  managed (.end_sync dongle)

/-- Scan a device that has connected. -/
def trigger (env : Env) (sync_enabled : Bool) (dongle : Text) : Request ManagerOp Unit := do
  if ← is_enabled sync_enabled then
    if ← managed (.try_begin_sync dongle) then
      match ← Request.capture
        ((select fun w => w.db.accounts.devices.get? dongle).embed ManagerOp.store) with
      | .ok (some device) => scan_and_end env device dongle
      | _ => managed (.end_sync dongle)

/-- `SELECT * FROM devices WHERE last_addr != '' AND online = 1`. -/
def online_devices (w : World) : List Accounts.Device :=
  w.db.accounts.devices.rows.filter fun d => d.last_addr ≠ [] && d.online = 1

/-- One device of a background pass. -/
def sync_one (env : Env) (device : Accounts.Device) : Request ManagerOp Unit := do
  if ← managed (.try_begin_sync device.dongle_id) then
    scan_and_end env device device.dongle_id

/-- One background pass over every device that is currently online. -/
def sync_all (env : Env) (sync_enabled : Bool) : Request ManagerOp Unit := do
  if ← is_enabled sync_enabled then
    let devices ← (select online_devices).embed ManagerOp.store
    devices.forM (sync_one env)

/-! ## Any number of them at once -/

inductive ManagerJob
  | trigger (dongle : Text)
  | sync_all
  /-- `sync_now`'s scan, a worker's round, or an upload. -/
  | other (job : SyncJob)
deriving DecidableEq, Repr

def ManagerJob.handle (env : Env) (sync_enabled : Bool) : ManagerJob → Request ManagerOp Unit
  | .trigger dongle => Sync.trigger env sync_enabled dongle
  | .sync_all => Sync.sync_all env sync_enabled
  | .other job => (job.handle env).embed ManagerOp.store

inductive ManagerAct
  | start (job : ManagerJob)
  /-- Whatever else moves the world: a device records, a setting is put, a socket opens. -/
  | outside (change : World → World)

abbrev ManagerTask := Task ManagerJob ManagerOp (AppResult Unit)

def ManagerAct.act (env : Env) (sync_enabled : Bool) :
    ManagerAct → Manager → Option (Manager × List ManagerTask)
  | .start job, m => some (m, [⟨job, (job.handle env sync_enabled).run⟩])
  | .outside change, m => some ({ m with world := change m.world }, [])

def managerRules (env : Env) (sync_enabled : Bool) : Pool.Rules Manager ManagerTask ManagerAct Outcome :=
  ⟨ManagerAct.act env sync_enabled, Task.turn (ManagerOp.exec env)⟩

/-! ## The sections -/

/-- A scan's steps are for the task that holds its device's slot. -/
def slots (env : Env) : Sections Manager ManagerOp Outcome Text where
  exec := ManagerOp.exec env
  enter
    | .try_begin_sync dongle, true => some dongle
    | _, _ => none
  leave
    | .end_sync dongle => some dongle
    | _ => none
  inside
    | .scan dongle _ => some dongle
    | _ => none
  taken m dongle := dongle ∈ m.syncing

variable {env : Env}

theorem slots_lawful (env : Env) : (slots env).Lawful where
  enters {β f o s d} entered := by
    cases f with
    | try_begin_sync dongle =>
        simp only [slots, ManagerOp.exec] at entered ⊢
        split
        · next held => simp [held] at entered
        · next free =>
            simp only [if_neg free] at entered
            cases entered
            exact ⟨free, fun e => by simp [or_comm]⟩
    | _ => cases entered
  leaves {β f o s d} _ left e := by
    cases f with
    | end_sync dongle =>
        cases left
        simp [slots, ManagerOp.exec]
    | _ => cases left
  others {β f o s} entered left e := by
    cases f with
    | store f => rfl
    | scan dongle f => rfl
    | try_begin_sync dongle =>
        simp only [slots, ManagerOp.exec] at entered ⊢
        split
        · rfl
        · next free => simp [free] at entered
    | end_sync dongle => cases left

/-- The function keeps to the slots: begun holding `held`, it ends holding `held'`. -/
abbrev Keeps (env : Env) (held held' : Option Text) {α : Type} (p : Request ManagerOp α) : Prop :=
  (slots env).Brackets (fun _ => held') held p.run

theorem keeps_bind {held held' : Option Text} {α β : Type} {p : Request ManagerOp α}
    {g : α → Request ManagerOp β} (first : Keeps env held held p)
    (rest : ∀ a, Keeps env held held' (g a)) (same : held = held') : Keeps env held held' (p >>= g) := by
  rw [Keeps, Request.run_bind]
  refine Sections.Brackets.bind first fun r => ?_
  cases r with
  | ok a => exact rest a
  | error e => exact same

theorem keeps_pure (held : Option Text) {α : Type} (a : α) :
    Keeps env held held (pure a : Request ManagerOp α) := rfl

theorem keeps_store (held : Option Text) {α : Type} (p : Request Op α) :
    Keeps env held held (p.embed ManagerOp.store) :=
  Sections.Brackets.of_uses <| Prog.Uses.embed_any
    (fun _ => ⟨fun _ inside => (nomatch inside), rfl, fun _ => rfl⟩) _

theorem keeps_scan (dongle : Text) {α : Type} (p : Request Op α) :
    Keeps env (some dongle) (some dongle) (p.embed (ManagerOp.scan dongle)) :=
  Sections.Brackets.of_uses <| Prog.Uses.embed_any
    (fun _ => ⟨fun _ inside => inside, rfl, fun _ => rfl⟩) _

theorem keeps_end (dongle : Text) : Keeps env (some dongle) none (managed (.end_sync dongle)) :=
  ⟨fun _ inside => (nomatch inside), fun _ left => left, fun _ =>
    ⟨fun entered => (entered rfl).elim, rfl⟩⟩

/-- With the slot held a function keeps it, without it the function is another. -/
theorem keeps_begin {dongle : Text} {g : Bool → Request ManagerOp Unit}
    (held : Keeps env (some dongle) none (g true)) (refused : Keeps env none none (g false)) :
    Keeps env none none (managed (.try_begin_sync dongle) >>= g) := by
  refine ⟨fun _ inside => (nomatch inside), fun _ left => (nomatch left), fun b => ⟨fun _ => rfl, ?_⟩⟩
  cases b with
  | true => exact held
  | false => exact refused

theorem keeps_scan_and_end (device : Accounts.Device) (dongle : Text) :
    Keeps env (some dongle) none (scan_and_end env device dongle) := by
  unfold scan_and_end
  rw [Keeps, Request.run_bind, Request.run_ignore, Prog.bind_assoc]
  exact Sections.Brackets.bind (keeps_scan dongle (scan env device {})) fun _ => keeps_end dongle

theorem keeps_trigger (sync_enabled : Bool) (dongle : Text) :
    Keeps env none none (trigger env sync_enabled dongle) := by
  unfold trigger is_enabled
  refine keeps_bind (keeps_store none _) (fun on => ?_) rfl
  split
  · refine keeps_begin ?_ (keeps_pure none ())
    rw [if_pos rfl, Keeps, Request.run_bind, Request.run_capture, Prog.bind_assoc]
    refine Sections.Brackets.bind (keeps_store (some dongle) _) fun found => ?_
    cases found with
    | error e => exact keeps_end dongle
    | ok device =>
        cases device with
        | none => exact keeps_end dongle
        | some device => exact keeps_scan_and_end device dongle
  · exact keeps_pure none ()

theorem keeps_sync_one (device : Accounts.Device) : Keeps env none none (sync_one env device) :=
  keeps_begin (keeps_scan_and_end device device.dongle_id) (keeps_pure none ())

theorem keeps_sync_all (sync_enabled : Bool) : Keeps env none none (sync_all env sync_enabled) := by
  unfold sync_all is_enabled
  refine keeps_bind (keeps_store none _) (fun on => ?_) rfl
  split
  · refine keeps_bind (keeps_store none _) (fun devices => ?_) rfl
    induction devices with
    | nil => exact keeps_pure none ()
    | cons device rest ih => exact keeps_bind (keeps_sync_one device) (fun _ => ih) rfl
  · exact keeps_pure none ()

theorem keeps_handle (sync_enabled : Bool) (job : ManagerJob) :
    Keeps env none none (job.handle env sync_enabled) := by
  cases job with
  | trigger dongle => exact keeps_trigger sync_enabled dongle
  | sync_all => exact keeps_sync_all sync_enabled
  | other job => exact keeps_store none _

/-! ## Every run -/

/-- The task is at a step of an automatic scan of the device. -/
def Scanning (dongle : Text) (t : ManagerTask) : Prop :=
  ∃ (β : Type) (f : Op β) (k : β → Prog ManagerOp (AppResult Unit)), t.prog = .op (.scan dongle f) k

/-- The task gives this slot back on every path, and takes no other before. -/
def Owes (env : Env) (dongle : Text) (t : ManagerTask) : Prop :=
  (slots env).Brackets (fun _ => none) (some dongle) t.prog

/-- **One scan at a time.**  In every run, two tasks at a step of an automatic scan of one
device are the same, and its slot is taken; each slot taken will be given back by a task
under way; and once every task has returned, no slot is taken. -/
theorem one_scan_at_a_time (env : Env) (sync_enabled : Bool) (w : World)
    (p : Pool Manager ManagerTask)
    (reached : (managerRules env sync_enabled).system.Reach System.free ⟨⟨w, []⟩, []⟩ p) :
    (∀ (dongle : Text) (i j : Nat) (t t' : ManagerTask), p.tasks[i]? = some t →
      p.tasks[j]? = some t' → Scanning dongle t → Scanning dongle t' →
      i = j ∧ dongle ∈ p.shared.syncing) ∧
    (∀ dongle ∈ p.shared.syncing, ∃ t ∈ p.tasks, t.prog.done = false ∧ Owes env dongle t) ∧
    (Task.finished p.tasks = true → p.shared.syncing = []) := by
  obtain ⟨holds, held⟩ := Sections.Reach.held (A := slots env) (slots_lawful env) reached
    (fun _ taken => List.not_mem_nil taken) (by
      intro a m m' ts acted
      cases a with
      | start job =>
          cases acted
          refine ⟨fun _ => Iff.rfl, fun t member => ?_⟩
          rw [List.mem_singleton.1 member]
          exact keeps_handle sync_enabled job
      | outside change =>
          cases acted
          exact ⟨fun _ => Iff.rfl, fun t member => (List.not_mem_nil member).elim⟩)
  refine ⟨?_, ?_, ?_⟩
  · rintro dongle i j t t' at_i at_j ⟨β, f, k, next⟩ ⟨γ, g, l, next'⟩
    refine ⟨held.exclusive at_i at_j next next' rfl rfl, (held.taken dongle).2 ⟨i, ?_⟩⟩
    have brackets := held.brackets i t at_i
    rw [next] at brackets
    exact brackets.1 dongle rfl
  · intro dongle taken
    obtain ⟨i, t, found, under_way, own⟩ := held.holder taken
    have brackets := held.brackets i t found
    rw [own] at brackets
    exact ⟨t, List.mem_of_getElem? found, under_way, brackets⟩
  · intro finished
    exact List.eq_nil_iff_forall_not_mem.2 fun dongle => held.released finished dongle

/-! ## Poles -/

private def one_online : World :=
  one_device { dongle_id := "d", last_addr := "10.0.0.2", online := 1 }

/-- The device connects while a pass scans it: the trigger is turned away, and in the end the
slot is free. -/
theorem one_scan_at_a_time_turned_away : ∃ p : Pool Manager ManagerTask,
    (managerRules plain_env true).system.Reach System.free ⟨⟨one_online, []⟩, []⟩ p ∧
      p.shared.syncing = [] := by
  have run : ∃ p : Pool Manager ManagerTask,
      (managerRules plain_env true).system.replay ⟨⟨one_online, []⟩, []⟩
      [.act (.start .sync_all), .turn 0 .ok, .turn 0 .ok, .turn 0 .ok, .turn 0 .ok,
        .act (.start (.trigger "d")), .turn 1 .ok, .turn 1 .ok, .turn 0 .failed, .turn 0 .ok] = some p ∧
      Task.finished p.tasks = true := by
    refine ⟨_, rfl, rfl⟩
  obtain ⟨p, replayed, finished⟩ := run
  have reached := System.reach_of_replay replayed
  exact ⟨p, reached, (one_scan_at_a_time plain_env true one_online p reached).2.2 finished⟩

end HomeConnect.Sync
