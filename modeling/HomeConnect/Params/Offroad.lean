/-
# Params.Offroad -- when software is changed only while the car is off

Every update request reads `IsOffroad` before it acts, but as an SSH command of its own: a
car that is started between the two is updated, or rebooted, while it drives
(`rebooted_while_driving`); so is one that is started after a command has timed out and before
it comes through (`rebooted_after_timeout`).  And a flush of the param cache has no gate at
all, though one of the params it may write, `DisableUpdates`, is one the requests guard
(`updates_paused_while_driving`).

`Parked` is a condition on ignitions and on when pending edits are read: the car is not started
while a request for its device is between its gate and its end, while a flush still has an edit
of a software param to write, or while a software command that timed out may still come
through; and no flush reads such an edit while the car is on.  Then every command that changes
software takes effect while the car is off (`only_while_off`).  What carries the proof is that
whatever is under way has found the car off.
-/
import HomeConnect.Params.Update

namespace HomeConnect.Params

open HomeConnect.Theory

set_option autoImplicit false

/-! ## The condition -/

/-- Reading whether the car is off. -/
def UpdateOp.is_gate {β : Type} : UpdateOp β → Bool
  | .read_snippet key => decide (key = "IsOffroad")
  | _ => false

/-- A pair that a flush would write, of a software param. -/
def risky (q : Text × Text) : Bool := q.1 ∈ SOFTWARE_PARAMS && is_writable q.1 q.2

/-- The pairs a flush has read and not yet come to. -/
def Worker.queued (w : Worker) : List (Text × Text) :=
  match w.stage with
  | .pend pairs _ => pairs
  | .clear _ _ rest _ => rest
  | _ => []

/-- A request for the device is past its gate and not at its end, or a flush has a software
param to write. -/
def Party.under_way (dongle : Text) : Party → Bool
  | .worker w => w.dongle = dongle && w.queued.any risky
  | .request t =>
      decide (t.tag = dongle) &&
        match t.prog with
        | .ret _ => false
        | .op f _ => !f.is_gate

/-- A software command for the device may still come through. -/
def UpdateWorld.awaits (s : UpdateWorld) (dongle : Text) : Bool :=
  s.sent.any fun e => e.1 = dongle && e.2.software

/-- The event starts no car with something under way, and reads no edit of a software param
while a car is on. -/
def parked (p : Pool UpdateWorld Party) : Pool.Event UpdateAct Waited → Bool
  | .act (.device_param dongle key value) =>
      offroad ((p.shared.params.set_param dongle key value).devices dongle) ||
        !(p.tasks.any (Party.under_way dongle) || p.shared.awaits dongle)
  | .turn i (.came .ok) =>
      match p.tasks[i]? with
      | some (.worker ⟨dongle, _, .select⟩) =>
          !(pending_rows dongle p.shared.params.device_params).any risky || p.shared.is_offroad dongle
      | _ => true
  | _ => true

def Parked (p : Pool UpdateWorld Party) (e : Pool.Event UpdateAct Waited) : Prop :=
  parked p e = true

instance (p : Pool UpdateWorld Party) (e : Pool.Event UpdateAct Waited) :
    Decidable (Parked p e) :=
  inferInstanceAs (Decidable (_ = true))

/-- Every command that changed software took effect while the car was off. -/
def OnlyWhileOff (s : UpdateWorld) : Prop := ∀ e ∈ s.effects, e.offroad = true

instance (s : UpdateWorld) : Decidable (OnlyWhileOff s) :=
  inferInstanceAs (Decidable (∀ e ∈ s.effects, e.offroad = true))

/-! ## The shape of a request -/

/-- An operation past the gate: it does not read `IsOffroad`, and writes software params
only. -/
def UpdateOp.acts {β : Type} : UpdateOp β → Prop
  | .read_snippet key => key ≠ "IsOffroad"
  | .pkill _ => True
  | .put key _ => key ∈ SOFTWARE_PARAMS

def Acts (p : Prog UpdateOp (AppResult Unit)) : Prop := p.Uses UpdateOp.acts

/-- The request is about to read `IsOffroad`, and ends there unless it reads `1`. -/
def AtGate (p : Prog UpdateOp (AppResult Unit)) : Prop :=
  ∃ k, p = .op (.read_snippet "IsOffroad") k ∧ (∀ r, Acts (k r)) ∧
    ∀ r, (k r).done = true ∨ ∃ out, r = .ok out ∧ Text.trim out = "1"

theorem acts_err_if {c : Prop} [Decidable c] (e : AppError) {rest : Unit → Request UpdateOp Unit}
    (acts : Acts (rest ()).run) : Acts (Request.err_if c e >>= rest).run := by
  refine Request.Uses.bind ?_ fun _ => acts
  rw [Request.err_if]
  split
  · trivial
  · trivial

/-- What a request does after reading `IsOffroad`. -/
theorem require_offroad_run (rest : Unit → Request UpdateOp Unit) :
    (require_offroad >>= rest).run = .op (.read_snippet "IsOffroad") fun
      | .ok out => (Request.err_if (Text.trim out ≠ "1")
          (.BadRequest "the car must be off before changing software on the device") >>= rest).run
      | .error e => .ret (.error e) := by
  rw [require_offroad, bind_assoc, read_snippet, Request.run_perform_bind]
  congr 1
  funext r
  cases r <;> rfl

theorem at_gate {rest : Unit → Request UpdateOp Unit} (acts : Acts (rest ()).run) :
    AtGate (require_offroad >>= rest).run := by
  refine ⟨_, require_offroad_run rest, fun r => ?_, fun r => ?_⟩
  · cases r with
    | error e => trivial
    | ok out => exact acts_err_if _ acts
  · cases r with
    | error e => exact .inl rfl
    | ok out =>
        by_cases off : Text.trim out ≠ "1"
        · left
          dsimp only
          rw [Request.err_if, if_pos off]
          rfl
        · exact .inr ⟨out, rfl, not_not.1 off⟩

theorem acts_pkill (name : Text) : Acts (pkill name).run := ⟨trivial, fun _ => trivial⟩

theorem acts_write_param {key value : Text} (software : key ∈ SOFTWARE_PARAMS) :
    Acts (write_param key value).run := by
  refine Request.Uses.bind ?_ fun _ => ⟨software, fun _ => trivial⟩
  rw [Request.err_if]
  split
  · trivial
  · trivial

theorem acts_read_then {key : Text} {rest : Text → Request UpdateOp Unit}
    (other : key ≠ "IsOffroad") (acts : ∀ out, Acts (rest out).run) :
    Acts (read_snippet key >>= rest).run :=
  Request.Uses.bind ⟨other, fun _ => trivial⟩ acts

/-- Every request starts at its gate, or is refused. -/
theorem post_update_shape (req : UpdateAction) :
    AtGate (post_update req).run ∨ ((post_update req).run).done = true := by
  unfold post_update
  split
  · exact .inl (at_gate (acts_pkill _))
  split
  · exact .inl (at_gate (acts_pkill _))
  split
  · refine .inl (at_gate (acts_read_then (by decide) fun out => acts_err_if _ ?_))
    exact acts_write_param (by decide)
  split
  · exact .inl (at_gate (acts_write_param (by decide)))
  split
  · refine .inl (at_gate (acts_read_then (by decide) fun out => acts_err_if _ ?_))
    exact Request.Uses.bind (acts_write_param (by decide)) fun _ => acts_pkill _
  split
  · exact .inl (at_gate (acts_write_param (by decide)))
  · exact .inr rfl

/-! ## What keeps the car's state -/

/-- The settings cache does not write `IsOffroad`. -/
theorem ignition_not_writable (value : Text) : is_writable "IsOffroad" value = false := by
  have unlisted : spec "IsOffroad" = none := by decide +kernel
  rw [is_writable, unlisted]

theorem offroad_write (s : World) {key : Text} (value : Text) (other : key ≠ "IsOffroad")
    (dongle d : Text) : offroad ((s.write dongle key value).devices d) = offroad (s.devices d) := by
  have unread : (s.write dongle key value).devices d "IsOffroad" = s.devices d "IsOffroad" := by
    simp only [World.write]
    rw [if_neg fun same => other same.2.symm]
  rw [offroad, offroad, shown, shown, unread]

theorem ignition_not_software : ∀ key ∈ SOFTWARE_PARAMS, key ≠ "IsOffroad" := by decide

theorem puts_writable {w : Worker} {o : Outcome} {q : Text × Text} (puts : w.puts o = some q) :
    is_writable q.1 q.2 = true := by
  unfold Worker.puts at puts
  split at puts
  · cases puts
  · split at puts
    · rename_i valid
      cases puts
      exact valid
    · cases puts
  · cases puts

/-- No worker changes what a car's state reads as. -/
theorem offroad_turn {w w' : Worker} {o : Outcome} {s s' : World}
    (turned : w.turn o s = some (s', w')) (d : Text) :
    offroad (s'.devices d) = offroad (s.devices d) := by
  rw [Worker.devices_turn turned]
  cases puts : w.puts o with
  | none => rfl
  | some q =>
      refine offroad_write s q.2 (fun same => ?_) w.dongle d
      have writable := puts_writable puts
      rw [same, ignition_not_writable] at writable
      cases writable

/-! ## What is under way -/

/-- What is written to a device is one of the pairs the flush had read. -/
theorem Worker.mem_queued_of_puts {w : Worker} {o : Outcome} {q : Text × Text} (puts : w.puts o = some q) :
    q ∈ w.queued := by
  obtain ⟨dongle, reconcile, stage⟩ := w
  unfold Worker.puts at puts
  split at puts
  · cases puts
  · rename_i k v rest n at_pair _
    split at puts
    · cases puts
      have is : stage = .pend ((k, v) :: rest) n := at_pair
      rw [is]
      exact List.mem_cons_self
    · cases puts
  · cases puts

/-- A flush has what it read, and reads the pending edits. -/
theorem Worker.queued_turn {w w' : Worker} {o : Outcome} {s s' : World} (turned : w.turn o s = some (s', w')) :
    w'.dongle = w.dongle ∧ ∀ q ∈ w'.queued, q ∈ w.queued ∨
      o = .ok ∧ w.stage = .select ∧ q ∈ pending_rows w.dongle s.device_params := by
  obtain ⟨dongle, reconcile, stage⟩ := w
  have flushed : ∀ st, (Worker.flushed ⟨dongle, reconcile, st⟩).queued = [] := by
    intro st
    rw [Worker.flushed, Worker.queued]
    cases reconcile <;> rfl
  cases stage with
  | select =>
      cases o <;> cases turned
      · exact ⟨rfl, fun q read => .inr ⟨rfl, rfl, read⟩⟩
      all_goals exact ⟨rfl, by simp [flushed]⟩
  | pend pairs n =>
      cases pairs with
      | nil =>
          cases turned
          exact ⟨rfl, by simp [flushed]⟩
      | cons p rest =>
          obtain ⟨k, v⟩ := p
          simp only [Worker.turn] at turned
          split at turned
          all_goals
            cases o <;> cases turned
            all_goals exact ⟨rfl, fun q member => .inl (List.mem_cons_of_mem _ member)⟩
  | clear k v rest n =>
      cases o <;> cases turned
      · exact ⟨rfl, fun q member => .inl member⟩
      all_goals exact ⟨rfl, by simp [flushed]⟩
  | read_all => cases o <;> cases turned <;> exact ⟨rfl, by simp [Worker.queued]⟩
  | store pairs =>
      cases pairs with
      | nil =>
          cases turned
          exact ⟨rfl, by simp [Worker.queued]⟩
      | cons p rest => cases o <;> cases turned <;> exact ⟨rfl, by simp [Worker.queued]⟩
  | returned => cases turned

/-- Workers start with nothing read. -/
theorem queued_of_act {a : Action} {s s' : World} {ws : List Worker} (acted : act a s = some (s', ws)) :
    ∀ w ∈ ws, w.queued = [] := by
  intro w member
  cases a with
  | set_param dongle key value device stored =>
      simp only [act] at acted
      split at acted <;> cases acted
      · cases member
      · split at member
        · rw [List.mem_singleton.1 member]
          rfl
        · cases member
  | on_connect dongle device =>
      cases acted
      split at member
      · cases member
      · rw [List.mem_singleton.1 member]
        rfl
  | get_params dongle device =>
      cases acted
      split at member
      · rw [List.mem_singleton.1 member]
        rfl
      · cases member

/-- A flush with a software param to write has the car off; a request is at its gate, or has
the car off, or is over. -/
def Guarded (s : UpdateWorld) : Party → Prop
  | .worker w => ∀ q ∈ w.queued, risky q = true → s.is_offroad w.dongle = true
  | .request t =>
      AtGate t.prog ∨ (Acts t.prog ∧ (t.prog.done = true ∨ s.is_offroad t.tag = true))

/-- A command that may still come through does not start the car, and has it off if it changes
software. -/
def Landable (s : UpdateWorld) (e : Text × Command) : Prop :=
  (∀ key value, e.2 = .write key value → key ≠ "IsOffroad") ∧ (e.2.software = true → s.is_offroad e.1 = true)

/-- The history is clean, and stays so whatever comes through. -/
structure Blameless (s : UpdateWorld) : Prop where
  effects : OnlyWhileOff s
  sent : ∀ e ∈ s.sent, Landable s e

theorem Guarded.congr {s s' : UpdateWorld} {party : Party} (guarded : Guarded s party)
    (same : ∀ d, s'.is_offroad d = s.is_offroad d) : Guarded s' party := by
  cases party with
  | worker w => exact fun q member is => (same w.dongle).trans (guarded q member is)
  | request t =>
      rcases guarded with gate | ⟨acts, above | off⟩
      · exact .inl gate
      · exact .inr ⟨acts, .inl above⟩
      · exact .inr ⟨acts, .inr ((same t.tag).trans off)⟩

theorem Landable.congr {s s' : UpdateWorld} {e : Text × Command} (landable : Landable s e)
    (same : ∀ d, s'.is_offroad d = s.is_offroad d) : Landable s' e :=
  ⟨landable.1, fun software => (same e.1).trans (landable.2 software)⟩

/-- What is under way finds its car off. -/
theorem under_way_of_acts {t : UpdateTask} (acts : Acts t.prog) (running : ¬ t.prog.done = true) :
    Party.under_way t.tag (.request t) = true := by
  obtain ⟨dongle, prog⟩ := t
  cases prog with
  | ret r => exact (running rfl).elim
  | op f k =>
      have first : f.acts := acts.1
      simp only [Party.under_way, decide_true, Bool.true_and, Bool.not_eq_true']
      cases f with
      | read_snippet key => exact decide_eq_false first
      | pkill name => rfl
      | put key value => rfl

/-! ## One command -/

/-- A command that may come through takes effect. -/
theorem Blameless.perform {s : UpdateWorld} (clean : Blameless s) {dongle : Text} {c : Command}
    (landable : Landable s (dongle, c)) :
    Blameless (s.perform dongle c) ∧ ∀ d, (s.perform dongle c).is_offroad d = s.is_offroad d := by
  have recorded : c.software = true →
      ∀ e ∈ s.effects ++ [(⟨dongle, c, s.is_offroad dongle⟩ : Effect)], e.offroad = true := by
    intro software e member
    rcases List.mem_append.1 member with old | new
    · exact clean.effects e old
    · rw [List.mem_singleton.1 new]
      exact landable.2 software
  cases c with
  | signal name => exact ⟨⟨recorded rfl, clean.sent⟩, fun d => rfl⟩
  | write key value =>
      have other : key ≠ "IsOffroad" := landable.1 key value rfl
      have kept : ∀ d, (s.perform dongle (.write key value)).is_offroad d = s.is_offroad d := fun d =>
        offroad_write s.params value other dongle d
      refine ⟨⟨?_, fun e member => (clean.sent e member).congr kept⟩, kept⟩
      show ∀ e ∈ s.written dongle key value, e.offroad = true
      rw [UpdateWorld.written]
      split
      · rename_i software
        exact recorded (decide_eq_true software)
      · exact clean.effects

/-- A command that may come through is run: it does so now, later or never. -/
theorem Blameless.run {s : UpdateWorld} (clean : Blameless s) {dongle : Text} {c : Command}
    (landable : Landable s (dongle, c)) (o : Waited) :
    Blameless (s.run dongle c o).2 ∧ ∀ d, (s.run dongle c o).2.is_offroad d = s.is_offroad d := by
  cases o with
  | timed_out =>
      refine ⟨⟨clean.effects, fun e member => ?_⟩, fun d => rfl⟩
      rcases List.mem_append.1 member with old | new
      · exact clean.sent e old
      · rw [List.mem_singleton.1 new]
        exact landable
  | came o =>
      cases o
      · exact clean.perform landable
      · exact ⟨clean, fun d => rfl⟩
      · exact clean.perform landable

/-- One operation of a request past its gate. -/
theorem exec_acts {β : Type} {f : UpdateOp β} (acts : f.acts) (dongle : Text) (o : Waited)
    {s : UpdateWorld} (off : s.is_offroad dongle = true) (clean : Blameless s) :
    Blameless (f.exec dongle o s).2 ∧ ∀ d, (f.exec dongle o s).2.is_offroad d = s.is_offroad d := by
  cases f with
  | read_snippet key =>
      cases o with
      | timed_out => exact ⟨clean, fun d => rfl⟩
      | came o => cases o <;> exact ⟨clean, fun d => rfl⟩
  | pkill name =>
      refine clean.run ⟨fun key value is => ?_, fun _ => off⟩ o
      cases is
  | put key value =>
      refine clean.run ⟨fun key value is => ?_, fun _ => off⟩ o
      cases is
      exact ignition_not_software _ acts

/-- The gate: either the request ends here, or the car is off. -/
theorem exec_gate {k : AppResult Text → Prog UpdateOp (AppResult Unit)} (dongle : Text) (o : Waited)
    {s : UpdateWorld} (stops : ∀ r, (k r).done = true ∨ ∃ out, r = .ok out ∧ Text.trim out = "1") :
    (UpdateOp.exec dongle (.read_snippet "IsOffroad") o s).2 = s ∧
      ((k (UpdateOp.exec dongle (.read_snippet "IsOffroad") o s).1).done = true ∨
        s.is_offroad dongle = true) := by
  have unread : ∀ e : AppError, (k (.error e)).done = true := by
    intro e
    rcases stops (.error e) with above | ⟨out, read, _⟩
    · exact above
    · cases read
  cases o with
  | timed_out => exact ⟨rfl, .inl (unread _)⟩
  | came o =>
      cases o with
      | ok =>
          refine ⟨rfl, ?_⟩
          rcases stops (.ok (shown (s.params.devices dongle) "IsOffroad")) with above | ⟨out, read, one⟩
          · exact .inl above
          · cases read
            exact .inr (decide_eq_true one)
      | failed => exact ⟨rfl, .inl (unread _)⟩
      | late => exact ⟨rfl, .inl (unread _)⟩

/-- A turn of a request keeps the car's state and the history clean. -/
theorem request_turn {t t' : UpdateTask} {o : Waited} {s s' : UpdateWorld}
    (turned : t.turn (fun f o s => f.exec t.tag o s) o s = some (s', t'))
    (guarded : Guarded s (.request t)) (clean : Blameless s) :
    Blameless s' ∧ Guarded s' (.request t') ∧ ∀ d, s'.is_offroad d = s.is_offroad d := by
  obtain ⟨β, f, k, next, rfl, rfl⟩ := Task.turn_cases turned
  rcases guarded with ⟨k', at_gate, acts, stops⟩ | ⟨acts, above | off⟩
  · rw [next] at at_gate
    cases at_gate
    obtain ⟨same, rest⟩ := exec_gate t.tag o (s := s) stops
    rw [same]
    exact ⟨clean, .inr ⟨acts _, rest⟩, fun d => rfl⟩
  · rw [next] at above
    cases above
  · rw [next] at acts
    obtain ⟨clean', kept⟩ := exec_acts acts.1 t.tag o off clean
    exact ⟨clean', .inr ⟨acts.2 _, .inr ((kept t.tag).trans off)⟩, kept⟩

/-! ## One turn of a flush -/

/-- A pair that a flush writes may come through. -/
theorem landable_of_puts {w : Worker} {o : Outcome} {q : Text × Text} {s : UpdateWorld}
    (guarded : Guarded s (.worker w)) (puts : w.puts o = some q) : Landable s (w.dongle, .write q.1 q.2) := by
  have writable := puts_writable puts
  refine ⟨fun key value is => ?_, fun software => ?_⟩
  · cases is
    intro same
    rw [same, ignition_not_writable] at writable
    cases writable
  · refine guarded q (Worker.mem_queued_of_puts puts) ?_
    rw [risky, writable, Bool.and_true]
    exact software

/-- A flush that has its pairs while the car's state is what it was. -/
theorem guarded_worker_turn {w w' : Worker} {o : Outcome} {s : UpdateWorld} {s' : World} {s₂ : UpdateWorld}
    (turned : w.turn o s.params = some (s', w')) (guarded : Guarded s (.worker w))
    (read : o = .ok → w.stage = .select →
      ∀ q ∈ pending_rows w.dongle s.params.device_params, risky q = true → s.is_offroad w.dongle = true)
    (kept : ∀ d, s₂.is_offroad d = s.is_offroad d) : Guarded s₂ (.worker w') := by
  obtain ⟨same, queued⟩ := Worker.queued_turn turned
  intro q member is
  rw [same, kept]
  rcases queued q member with old | ⟨ok, at_select, pending⟩
  · exact guarded q old is
  · exact read ok at_select q pending is

theorem worker_turn {w : Worker} {party : Party} {o : Waited} {s s' : UpdateWorld}
    (turned : Party.turn (.worker w) o s = some (s', party)) (guarded : Guarded s (.worker w)) (clean : Blameless s)
    (read : o = .came .ok → w.stage = .select →
      ∀ q ∈ pending_rows w.dongle s.params.device_params, risky q = true → s.is_offroad w.dongle = true) :
    Blameless s' ∧ Guarded s' party ∧ ∀ d, s'.is_offroad d = s.is_offroad d := by
  cases o with
  | timed_out =>
      obtain ⟨⟨params, w'⟩, did, same⟩ := Option.map_eq_some_iff.1 turned
      cases same
      have kept : ∀ d, offroad (params.devices d) = s.is_offroad d := offroad_turn did
      refine ⟨⟨clean.effects, fun e member => ?_⟩, guarded_worker_turn did guarded nofun kept, kept⟩
      dsimp only at member
      split at member
      · rename_i q puts
        rcases List.mem_append.1 member with old | new
        · exact (clean.sent e old).congr kept
        · rw [List.mem_singleton.1 new]
          exact (landable_of_puts guarded puts).congr kept
      · exact (clean.sent e member).congr kept
  | came o =>
      obtain ⟨⟨params, w'⟩, did, same⟩ := Option.map_eq_some_iff.1 turned
      cases same
      have kept : ∀ d, offroad (params.devices d) = s.is_offroad d := offroad_turn did
      refine ⟨⟨fun e member => ?_, fun e member => (clean.sent e member).congr kept⟩,
        guarded_worker_turn did guarded (fun ok => read (congrArg Waited.came ok)) kept, kept⟩
      dsimp only at member
      split at member
      · rename_i q puts
        rw [UpdateWorld.written] at member
        split at member
        · rename_i software
          rcases List.mem_append.1 member with old | new
          · exact clean.effects e old
          · rw [List.mem_singleton.1 new]
            exact (landable_of_puts guarded puts).2 (decide_eq_true software)
        · exact clean.effects e member
      · exact clean.effects e member

/-! ## Every run -/

/-- A flush reads an edit of a software param while the car is off. -/
theorem off_of_parked {p : Pool UpdateWorld Party} {i : Nat} {w : Worker} (parked : Parked p (.turn i (.came .ok)))
    (found : p.tasks[i]? = some (.worker w)) (at_select : w.stage = .select) {q : Text × Text}
    (pending : q ∈ pending_rows w.dongle p.shared.params.device_params) (is : risky q = true) :
    p.shared.is_offroad w.dongle = true := by
  obtain ⟨dongle, reconcile, stage⟩ := w
  cases at_select
  simp only [Parked, Params.parked, found, Bool.or_eq_true, Bool.not_eq_true'] at parked
  refine parked.resolve_left fun none => ?_
  rw [List.any_eq_true.2 ⟨q, pending, is⟩] at none
  cases none

/-- Starting a car: nothing for its device was under way. -/
theorem guarded_device_param {p : Pool UpdateWorld Party} {dongle key : Text} {value : Option Text}
    (clean : Blameless p.shared) (parked : Parked p (.act (.device_param dongle key value))) :
    Blameless { p.shared with params := p.shared.params.set_param dongle key value } ∧
      ∀ q ∈ p.tasks, Guarded p.shared q →
        Guarded { p.shared with params := p.shared.params.set_param dongle key value } q := by
  have off_or : offroad ((p.shared.params.set_param dongle key value).devices dongle) = true ∨
      (∀ q ∈ p.tasks, Party.under_way dongle q = false) ∧ p.shared.awaits dongle = false := by
    simpa [Parked, Params.parked, Bool.or_eq_true, List.any_eq_false] using parked
  have elsewhere : ∀ d, d ≠ dongle →
      UpdateWorld.is_offroad { p.shared with params := p.shared.params.set_param dongle key value } d =
        p.shared.is_offroad d := by
    intro d other
    have unread : (p.shared.params.set_param dongle key value).devices d = p.shared.params.devices d := by
      funext k
      simp only [World.set_param]
      rw [if_neg fun same => other same.1]
    unfold UpdateWorld.is_offroad
    rw [unread]
  refine ⟨⟨clean.effects, fun e member => ⟨(clean.sent e member).1, fun software => ?_⟩⟩,
    fun q member guarded => ?_⟩
  · by_cases own : e.1 = dongle
    · rcases off_or with off | ⟨_, none⟩
      · rw [own]
        exact off
      · have awaited : p.shared.awaits dongle = true :=
          List.any_eq_true.2 ⟨e, member, by rw [own, software]; simp⟩
        rw [none] at awaited
        cases awaited
    · rw [elsewhere _ own]
      exact (clean.sent e member).2 software
  · cases q with
    | worker w =>
        intro q queued is
        by_cases own : w.dongle = dongle
        · rcases off_or with off | ⟨none, _⟩
          · rw [own]
            exact off
          · have busy : Party.under_way dongle (.worker w) = true := by
              simp only [Party.under_way, own, decide_true, Bool.true_and]
              exact List.any_eq_true.2 ⟨q, queued, is⟩
            rw [none _ member] at busy
            cases busy
        · rw [elsewhere _ own]
          exact guarded q queued is
    | request t =>
        rcases guarded with gate | ⟨acts, above | off⟩
        · exact .inl gate
        · exact .inr ⟨acts, .inl above⟩
        · by_cases ended : t.prog.done = true
          · exact .inr ⟨acts, .inl ended⟩
          refine .inr ⟨acts, .inr ?_⟩
          by_cases own : t.tag = dongle
          · rcases off_or with off | ⟨none, _⟩
            · rw [own]
              exact off
            · have busy := under_way_of_acts acts ended
              rw [own, none _ member] at busy
              cases busy
          · rw [elsewhere _ own]
            exact off

theorem guarded_act {p : Pool UpdateWorld Party} {a : UpdateAct} {s : UpdateWorld}
    {ps : List Party} (clean : Blameless p.shared) (parked : Parked p (.act a))
    (acted : updateRules.act a p.shared = some (s, ps)) :
    Blameless s ∧ (∀ q ∈ ps, Guarded s q) ∧ ∀ q ∈ p.tasks, Guarded p.shared q → Guarded s q := by
  cases a with
  | params a =>
      obtain ⟨⟨s', ws⟩, did, same⟩ := Option.map_eq_some_iff.1 acted
      cases same
      have devices : s'.devices = p.shared.params.devices := by
        cases a with
        | set_param dongle key value device stored =>
            simp only [act] at did
            split at did <;> (cases did; rfl)
        | on_connect dongle device => cases did; rfl
        | get_params dongle device => cases did; rfl
      have kept : ∀ d, UpdateWorld.is_offroad { p.shared with params := s' } d =
          p.shared.is_offroad d := by
        intro d
        unfold UpdateWorld.is_offroad
        rw [devices]
      refine ⟨⟨clean.effects, fun e member => (clean.sent e member).congr kept⟩, fun q member => ?_,
        fun q _ guarded => guarded.congr kept⟩
      obtain ⟨w, started, rfl⟩ := List.mem_map.1 member
      -- a worker starts with nothing read
      intro q queued
      rw [queued_of_act did w started] at queued
      cases queued
  | post_update dongle device req =>
      cases acted
      refine ⟨clean, fun q member => ?_, fun q _ guarded => guarded⟩
      split at member
      · rw [List.mem_singleton.1 member]
        rcases post_update_shape req with gate | above
        · exact .inl gate
        · refine .inr ⟨?_, .inl above⟩
          dsimp only
          cases program : (post_update req).run with
          | ret r => trivial
          | op f k => rw [program] at above; cases above
      · cases member
  | device_param dongle key value =>
      cases acted
      obtain ⟨clean', others⟩ := guarded_device_param clean parked
      exact ⟨clean', fun q member => (List.not_mem_nil member).elim, others⟩
  | lands i =>
      obtain ⟨e, found, same⟩ := Option.map_eq_some_iff.1 acted
      cases same
      have fewer : Blameless { p.shared with sent := p.shared.sent.eraseIdx i } :=
        ⟨clean.effects, fun e member => clean.sent e (List.mem_of_mem_eraseIdx member)⟩
      have landable := clean.sent e (List.mem_of_getElem? found)
      obtain ⟨clean', kept⟩ := fewer.perform landable
      exact ⟨clean', fun q member => (List.not_mem_nil member).elim, fun q _ guarded => guarded.congr kept⟩
  | lost i =>
      cases acted
      exact ⟨⟨clean.effects, fun e member => clean.sent e (List.mem_of_mem_eraseIdx member)⟩,
        fun q member => (List.not_mem_nil member).elim, fun q _ guarded => guarded⟩

theorem guarded_turn {p : Pool UpdateWorld Party} {i : Nat} {o : Waited} {q q' : Party}
    {s : UpdateWorld} (clean : Blameless p.shared) (each : ∀ q ∈ p.tasks, Guarded p.shared q)
    (parked : Parked p (.turn i o)) (found : p.tasks[i]? = some q)
    (turned : updateRules.turn q o p.shared = some (s, q')) :
    Blameless s ∧ Guarded s q' ∧ ∀ m ∈ p.tasks, Guarded p.shared m → Guarded s m := by
  have own := each q (List.mem_of_getElem? found)
  have turn : Blameless s ∧ Guarded s q' ∧ ∀ d, s.is_offroad d = p.shared.is_offroad d := by
    cases q with
    | worker w =>
        refine worker_turn turned own clean fun ok at_select q pending is => ?_
        subst ok
        exact off_of_parked parked found at_select pending is
    | request t =>
        obtain ⟨⟨s', t'⟩, did, same⟩ := Option.map_eq_some_iff.1 turned
        cases same
        exact request_turn did own clean
  exact ⟨turn.1, turn.2.1, fun m _ guarded => guarded.congr turn.2.2⟩

/-- **Software changes only while the car is off**, in every run in which no car is started
with something under way and no flush reads an edit of a software param while a car is on. -/
theorem only_while_off (params : World) (p : Pool UpdateWorld Party)
    (reached : updateRules.system.Reach Parked ⟨⟨params, [], []⟩, []⟩ p) : OnlyWhileOff p.shared := by
  refine (Pool.Rules.Reach.owned (I := Blameless) (J := Guarded) reached
    ⟨⟨nofun, nofun⟩, nofun⟩ ?_ ?_).1.effects
  · intro p a s ps clean _ parked acted
    exact guarded_act clean parked acted
  · intro p i o s q s' clean each parked found turned
    exact guarded_turn clean each parked found turned

/-! ## Poles -/

/-- A device's params: the car is off. -/
private def parked_car : World where
  device_params := Table.empty
  devices := fun _ key => if key = "IsOffroad" then some "1" else none
  accepted := fun _ _ => none

private def seen : Seen := ⟨1, "a"⟩

private def reboots : Pool.Event UpdateAct Waited := .act (.post_update "d" seen { action := "reboot" })

private def starts : Pool.Event UpdateAct Waited := .act (.device_param "d" "IsOffroad" (some "0"))

private def pauses : Pool.Event UpdateAct Waited :=
  .act (.params (.set_param "d" "DisableUpdates" "1" seen true))

/-- A reboot is asked for, passes its gate, the car is started, and the reboot is written. -/
theorem rebooted_while_driving : ¬ ∀ (params : World) (p : Pool UpdateWorld Party),
    updateRules.system.Reach System.free ⟨⟨params, [], []⟩, []⟩ p → OnlyWhileOff p.shared := by
  intro claim
  have run : (updateRules.system.replay ⟨⟨parked_car, [], []⟩, []⟩
      [reboots, .turn 0 (.came .ok), starts, .turn 0 (.came .ok)]).any (fun p =>
      decide (¬ OnlyWhileOff p.shared)) = true := by
    decide +kernel
  obtain ⟨p, replayed, driving⟩ := (Option.any_eq_true _ _).1 run
  exact of_decide_eq_true driving (claim parked_car p (System.reach_of_replay replayed))

/-- The request is over when the car is started, and its command comes through then. -/
theorem rebooted_after_timeout : ∃ p : Pool UpdateWorld Party,
    updateRules.system.Reach System.free ⟨⟨parked_car, [], []⟩, []⟩ p ∧
      p.shared.effects = [⟨"d", .write "DoReboot" "1", false⟩] := by
  have run : (updateRules.system.replay ⟨⟨parked_car, [], []⟩, []⟩
      [reboots, .turn 0 (.came .ok), .turn 0 .timed_out, starts, .act (.lands 0)]).any (fun p =>
      decide (p.shared.effects = [⟨"d", .write "DoReboot" "1", false⟩])) = true := by
    decide +kernel
  obtain ⟨p, replayed, rebooted⟩ := (Option.any_eq_true _ _).1 run
  exact ⟨p, System.reach_of_replay replayed, of_decide_eq_true rebooted⟩

/-- The car is started, and then an edit of the cache pauses its updates: no request is needed. -/
theorem updates_paused_while_driving : ∃ p : Pool UpdateWorld Party,
    updateRules.system.Reach System.free ⟨⟨parked_car, [], []⟩, []⟩ p ∧
      p.shared.effects = [⟨"d", .write "DisableUpdates" "1", false⟩] := by
  have run : (updateRules.system.replay ⟨⟨parked_car, [], []⟩, []⟩
      [starts, pauses, .turn 0 (.came .ok), .turn 0 (.came .ok)]).any (fun p =>
      decide (p.shared.effects = [⟨"d", .write "DisableUpdates" "1", false⟩])) = true := by
    decide +kernel
  obtain ⟨p, replayed, paused⟩ := (Option.any_eq_true _ _).1 run
  exact ⟨p, System.reach_of_replay replayed, of_decide_eq_true paused⟩

/-- A car that is started once a reboot has been written, a command that timed out has come
through, and an edit has been flushed. -/
private def started_after : List (Pool.Event UpdateAct Waited) :=
  [reboots, .turn 0 (.came .ok), .turn 0 (.came .ok),
    .act (.post_update "d" seen { action := "check" }), .turn 1 (.came .ok), .turn 1 .timed_out,
    .act (.lands 0), pauses, .turn 2 (.came .ok), .turn 2 (.came .ok), starts]

theorem only_while_off_started_after : ∃ p : Pool UpdateWorld Party, OnlyWhileOff p.shared ∧
    p.shared.effects.map Effect.command =
      [.write "DoReboot" "1", .signal "SIGUSR1", .write "DisableUpdates" "1"] := by
  have run : ((updateRules.system.guard Parked).replay ⟨⟨parked_car, [], []⟩, []⟩ started_after).any
      (fun p => decide (p.shared.effects.map Effect.command =
        [.write "DoReboot" "1", .signal "SIGUSR1", .write "DisableUpdates" "1"])) = true := by
    decide +kernel
  obtain ⟨p, replayed, changed⟩ := (Option.any_eq_true _ _).1 run
  exact ⟨p, only_while_off parked_car p (System.reach_of_replay_guard replayed),
    of_decide_eq_true changed⟩

end HomeConnect.Params
