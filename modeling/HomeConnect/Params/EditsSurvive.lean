/-
# Params.EditsSurvive -- when an accepted edit reaches the device

`flush` works from a snapshot and `clear_pending` clears by key only, so an edit that
arrives while a flush holds an older value of its key can be marked done without ever
being written: `overlapping_edit_lost`.

An edit is **uncontested** when no flush in progress holds another value of its key.
In every run whose edits are all uncontested no edit is lost (`edits_survive`), however
many flushes and reconciles overlap and whichever of their statements and SSH commands
fail.  The invariant is `Kept` for the tables and `Carried` for each worker: whatever a
worker holds is the latest accepted edit, or a stale value nobody has edited.
-/
import HomeConnect.Params.Flush

namespace HomeConnect.Params

open HomeConnect.Theory

set_option autoImplicit false

/-- Every edited row that is no longer pending has reached the device. -/
def World.NoEditLost (s : World) : Prop :=
  ∀ dongle key value, s.accepted dongle key = some value →
    ∀ row, s.device_params.get? (dongle, key) = some row → row.pending = 0 →
      s.devices dongle key = some value

/-- The pairs a worker has read and not yet cleared. -/
def Worker.held (w : Worker) : List (Text × Text) :=
  match w.stage with
  | .pend pairs _ => pairs
  | .clear k v rest _ => (k, v) :: rest
  | _ => []

/-- The pair a worker has written to the device and is about to clear. -/
def Worker.written? (w : Worker) : Option (Text × Text) :=
  match w.stage with
  | .clear k v _ _ => some (k, v)
  | _ => none

theorem Worker.held_of_written {w : Worker} {p : Text × Text} (written : w.written? = some p) :
    p ∈ w.held := by
  obtain ⟨dongle, reconcile, stage⟩ := w
  cases stage with
  | clear k v rest n =>
      simp only [Worker.written?, Option.some.injEq] at written
      simp [Worker.held, written]
  | _ => cases written

/-- An accepted edit comes while no flush in progress holds another value of its key. -/
def Uncontested (p : Pool World Worker) : Pool.Event Action Outcome → Prop
  | .act a => ∀ edit, a.edit? = some edit →
      ∀ w ∈ p.tasks, w.dongle = edit.1 → ∀ held ∈ w.held, held.1 = edit.2.1 → held.2 = edit.2.2
  | .turn _ _ => True

instance (p : Pool World Worker) (e : Pool.Event Action Outcome) : Decidable (Uncontested p e) :=
  match e with
  | .act a =>
      match found : a.edit? with
      | none => .isTrue fun _ edit => by rw [found] at edit; cases edit
      | some edit =>
          decidable_of_iff (∀ w ∈ p.tasks, w.dongle = edit.1 →
              ∀ held ∈ w.held, held.1 = edit.2.1 → held.2 = edit.2.2)
            ⟨fun clear _ same => by rw [found] at same; cases same; exact clear,
              fun clear => clear edit found⟩
  | .turn _ _ => .isTrue trivial

/-! ## The invariant -/

/-- What the cache and the device agree on. -/
structure Kept (s : World) : Prop where
  writable : ∀ d k v, s.accepted d k = some v → is_writable k v = true
  settled : ∀ d k v, s.accepted d k = some v → ∃ row, s.device_params.get? (d, k) = some row ∧
    ((row.pending = 1 ∧ row.value = v) ∨ (row.pending = 0 ∧ s.devices d k = some v))
  pending : ∀ d k row, s.device_params.get? (d, k) = some row → row.pending = 1 →
    is_writable k row.value = true → s.accepted d k = some row.value

/-- What a worker carries: the latest accepted edit of each key it holds, or a stale
value of a key nobody has edited. -/
structure Carried (s : World) (w : Worker) : Prop where
  agrees : ∀ p ∈ w.held,
    s.accepted w.dongle p.1 = if is_writable p.1 p.2 then some p.2 else none
  written : ∀ p, w.written? = some p →
    is_writable p.1 p.2 = true ∧ s.devices w.dongle p.1 = some p.2

theorem Kept.noEditLost {s : World} (kept : Kept s) : s.NoEditLost := by
  intro d k v edited row found cleared
  obtain ⟨row', found', state⟩ := kept.settled d k v edited
  rw [found] at found'
  cases found'
  rcases state with ⟨pending, _⟩ | ⟨_, reached⟩
  · rw [cleared] at pending
    cases pending
  · exact reached

theorem kept_boot (t : ParamTable) (devices : Text → Files) : Kept (World.boot t devices) := by
  have accepted : ∀ d k v, (World.boot t devices).accepted d k = some v ↔
      ∃ row, t.get? (d, k) = some row ∧ row.pending = 1 ∧ is_writable k row.value = true ∧
        row.value = v := by
    intro d k v
    simp [World.boot, Option.filter_eq_some_iff, and_assoc]
  refine ⟨fun d k v edited => ?_, fun d k v edited => ?_, fun d k row found pending valid => ?_⟩
  · obtain ⟨row, _, _, valid, rfl⟩ := (accepted d k v).1 edited
    exact valid
  · obtain ⟨row, found, pending, _, rfl⟩ := (accepted d k v).1 edited
    exact ⟨row, found, .inl ⟨pending, rfl⟩⟩
  · exact (accepted d k row.value).2 ⟨row, found, pending, valid, rfl⟩

/-- A worker that holds nothing carries nothing. -/
theorem carried_of_empty {s : World} {w : Worker} (nothing : w.held = [])
    (unwritten : w.written? = none) : Carried s w :=
  ⟨by simp [nothing], by simp [unwritten]⟩

/-- The assertion about a worker only reads the edits and the device. -/
theorem Carried.congr {s s' : World} {w : Worker} (carried : Carried s w)
    (edits : s'.accepted = s.accepted) (device : s'.devices = s.devices) : Carried s' w :=
  ⟨by rw [edits]; exact carried.agrees, by rw [device]; exact carried.written⟩

/-! ## What each statement and command keeps -/

theorem Kept.cache_set {s : World} (kept : Kept s) {dongle key value : Text}
    (valid : is_writable key value = true) :
    Kept { s with
      device_params := cache_set dongle key value s.device_params
      accepted := fun d k => if d = dongle ∧ k = key then some value else s.accepted d k } := by
  refine ⟨fun d k v edited => ?_, fun d k v edited => ?_, fun d k row found pending valid => ?_⟩
  · dsimp only at edited
    split at edited
    · rename_i here
      obtain ⟨rfl, rfl⟩ := here
      cases edited
      exact valid
    · exact kept.writable d k v edited
  · dsimp only at edited ⊢
    rw [get?_cache_set]
    split at edited
    · rename_i here
      obtain ⟨rfl, rfl⟩ := here
      cases edited
      exact ⟨_, if_pos rfl, .inl ⟨rfl, rfl⟩⟩
    · rename_i elsewhere
      rw [if_neg fun same => elsewhere (Prod.mk.inj same)]
      exact kept.settled d k v edited
  · dsimp only at found ⊢
    rw [get?_cache_set] at found
    split at found
    · rename_i here
      obtain ⟨rfl, rfl⟩ := Prod.mk.inj here
      cases found
      exact if_pos ⟨rfl, rfl⟩
    · rename_i elsewhere
      rw [if_neg fun same => elsewhere (by rw [same.1, same.2])]
      exact kept.pending d k row found pending valid

/-- Clearing a key that reached the device, or that nobody edited, loses nothing. -/
theorem Kept.clear_pending {s : World} (kept : Kept s) {dongle key : Text}
    (done : ∀ v, s.accepted dongle key = some v → s.devices dongle key = some v) :
    Kept { s with device_params := clear_pending dongle key s.device_params } := by
  refine ⟨kept.writable, fun d k v edited => ?_, fun d k row found pending valid => ?_⟩
  · obtain ⟨row, found, state⟩ := kept.settled d k v edited
    dsimp only
    rw [get?_clear_pending, found]
    by_cases here : (d, k) = (dongle, key)
    · obtain ⟨rfl, rfl⟩ := Prod.mk.inj here
      exact ⟨_, rfl, .inr ⟨by simp, done v edited⟩⟩
    · exact ⟨row, by simp [here], state⟩
  · dsimp only at found
    rw [get?_clear_pending] at found
    obtain ⟨old, before, rfl⟩ := Option.map_eq_some_iff.1 found
    split at pending
    · cases pending
    · rename_i elsewhere
      rw [if_neg elsewhere] at valid ⊢
      exact kept.pending d k old before pending valid

theorem Kept.refresh_row {s : World} (kept : Kept s) (dongle key value : Text) :
    Kept { s with device_params := refresh_row dongle key value s.device_params } := by
  refine ⟨kept.writable, fun d k v edited => ?_, fun d k row found pending valid => ?_⟩
  · obtain ⟨row, found, state⟩ := kept.settled d k v edited
    dsimp only
    rw [get?_refresh_row, found]
    by_cases here : (d, k) = (dongle, key)
    · rw [if_pos here]
      refine ⟨_, rfl, ?_⟩
      rcases state with ⟨pending, same⟩ | ⟨cleared, reached⟩
      · exact .inl (by simp [pending, same])
      · exact .inr (by simp [cleared, reached])
    · exact ⟨row, by simp [here], state⟩
  · dsimp only at found
    rw [get?_refresh_row] at found
    split at found
    · cases before : s.device_params.get? (d, k) with
      | none =>
          rw [before] at found
          cases found
          cases pending
      | some old =>
          rw [before] at found
          simp only [Option.map_some, Option.getD_some, Option.some.injEq] at found
          by_cases cleared : old.pending = 0
          · rw [if_pos cleared] at found
            rw [← found] at pending
            simp [cleared] at pending
          · rw [if_neg cleared] at found
            subst found
            exact kept.pending d k old before pending valid
    · exact kept.pending d k row found pending valid

/-- Writing the latest accepted edit of a key to the device. -/
theorem Kept.write {s : World} (kept : Kept s) {dongle key value : Text}
    (latest : s.accepted dongle key = some value) : Kept (s.write dongle key value) := by
  refine ⟨kept.writable, fun d k v edited => ?_, kept.pending⟩
  obtain ⟨row, found, state⟩ := kept.settled d k v edited
  refine ⟨row, found, ?_⟩
  rcases state with waiting | ⟨cleared, reached⟩
  · exact .inl waiting
  · refine .inr ⟨cleared, ?_⟩
    simp only [World.write]
    split
    · rename_i here
      obtain ⟨rfl, rfl⟩ := here
      exact latest.symm.trans edited
    · exact reached

theorem Carried.write {s : World} {w : Worker} (carried : Carried s w) {dongle key value : Text}
    (latest : s.accepted dongle key = some value) : Carried (s.write dongle key value) w := by
  refine ⟨carried.agrees, fun p written => ?_⟩
  obtain ⟨valid, reached⟩ := carried.written p written
  refine ⟨valid, ?_⟩
  simp only [World.write]
  split
  · rename_i here
    -- What `w` has written is still held by `w`, so it is the latest edit too.
    have same := carried.agrees p (Worker.held_of_written written)
    rw [if_pos valid, here.1, here.2, latest] at same
    exact same
  · exact reached

/-! ## One turn of a worker -/

@[simp] theorem Worker.held_flushed (w : Worker) : w.flushed.held = [] := by
  rw [Worker.flushed, Worker.held]
  cases w.reconcile <;> rfl

@[simp] theorem Worker.written?_flushed (w : Worker) : w.flushed.written? = none := by
  rw [Worker.flushed, Worker.written?]
  cases w.reconcile <;> rfl

/-- Everything a turn of a worker can do: nothing but read the pending rows, write a
pair it holds, clear a pair it has written or that is stale, or refresh a row. -/
theorem Worker.turn_cases {w w' : Worker} {o : Outcome} {s s' : World}
    (turned : w.turn o s = some (s', w')) :
    w'.dongle = w.dongle ∧
    ((s' = s ∧ w'.written? = none ∧
        ∀ p ∈ w'.held, p ∈ w.held ∨ p ∈ pending_rows w.dongle s.device_params) ∨
     (∃ p ∈ w.held, is_writable p.1 p.2 = true ∧ s' = s.write w.dongle p.1 p.2 ∧
        (∀ q ∈ w'.held, q ∈ w.held) ∧ ∀ q, w'.written? = some q → q = p) ∨
     (∃ p ∈ w.held, (is_writable p.1 p.2 = false ∨ w.written? = some p) ∧
        s' = { s with device_params := Params.clear_pending w.dongle p.1 s.device_params } ∧
        (∀ q ∈ w'.held, q ∈ w.held) ∧ w'.written? = none) ∨
     (∃ k v, s' = { s with device_params := Params.refresh_row w.dongle k v s.device_params } ∧
        w'.held = [] ∧ w'.written? = none)) := by
  obtain ⟨dongle, reconcile, stage⟩ := w
  cases stage with
  | select =>
      cases o <;> cases turned
      · exact ⟨rfl, .inl ⟨rfl, rfl, fun p read => .inr read⟩⟩
      all_goals exact ⟨rfl, .inl ⟨rfl, by simp, by simp⟩⟩
  | pend pairs n =>
      cases pairs with
      | nil => cases turned; exact ⟨rfl, .inl ⟨rfl, by simp, by simp⟩⟩
      | cons p rest =>
          obtain ⟨k, v⟩ := p
          have first : (k, v) ∈ (Worker.mk dongle reconcile (.pend ((k, v) :: rest) n)).held :=
            List.mem_cons_self
          have kept : ∀ q ∈ rest, q ∈ (Worker.mk dongle reconcile (.pend ((k, v) :: rest) n)).held :=
            fun q member => List.mem_cons_of_mem _ member
          simp only [Worker.turn] at turned
          split at turned
          · rename_i valid
            cases o <;> cases turned
            · exact ⟨rfl, .inr (.inl ⟨_, first, valid, rfl, fun q held => held,
                fun q written => (Option.some.inj written).symm⟩)⟩
            · exact ⟨rfl, .inl ⟨rfl, rfl, fun q held => .inl (kept q held)⟩⟩
            · exact ⟨rfl, .inr (.inl ⟨_, first, valid, rfl, kept, fun q written => by cases written⟩)⟩
          · rename_i stale
            cases o <;> cases turned
            · exact ⟨rfl, .inr (.inr (.inl
                ⟨_, first, .inl (by simpa using stale), rfl, kept, rfl⟩))⟩
            all_goals exact ⟨rfl, .inl ⟨rfl, rfl, fun q held => .inl (kept q held)⟩⟩
  | clear k v rest n =>
      cases o <;> cases turned
      · exact ⟨rfl, .inr (.inr (.inl ⟨(k, v), List.mem_cons_self, .inr rfl, rfl,
          fun q held => List.mem_cons_of_mem _ held, rfl⟩))⟩
      all_goals exact ⟨rfl, .inl ⟨rfl, by simp, by simp⟩⟩
  | read_all => cases o <;> cases turned <;> exact ⟨rfl, .inl ⟨rfl, rfl, by simp [Worker.held]⟩⟩
  | store pairs =>
      cases pairs with
      | nil => cases turned; exact ⟨rfl, .inl ⟨rfl, rfl, by simp [Worker.held]⟩⟩
      | cons p rest =>
          obtain ⟨k, v⟩ := p
          cases o <;> cases turned
          · exact ⟨rfl, .inr (.inr (.inr ⟨k, v, rfl, rfl, rfl⟩))⟩
          all_goals exact ⟨rfl, .inl ⟨rfl, rfl, by simp [Worker.held]⟩⟩
  | returned => cases turned

/-- What a flush reads is what was last accepted. -/
theorem Kept.pending_rows {s : World} (kept : Kept s) {dongle : Text} {p : Text × Text}
    (read : p ∈ Params.pending_rows dongle s.device_params) :
    s.accepted dongle p.1 = if is_writable p.1 p.2 then some p.2 else none := by
  obtain ⟨row, found, pending, same⟩ := mem_pending_rows.1 read
  split
  · rename_i valid
    rw [← same] at valid ⊢
    exact kept.pending dongle p.1 row found pending valid
  · rename_i stale
    -- An accepted edit of the key would be the row's value, and writable.
    cases edited : s.accepted dongle p.1 with
    | none => rfl
    | some v =>
        obtain ⟨row', found', state⟩ := kept.settled dongle p.1 v edited
        rw [found] at found'
        cases found'
        rcases state with ⟨_, value⟩ | ⟨cleared, _⟩
        · exact absurd (kept.writable dongle p.1 v edited) (by rw [← value, same]; exact stale)
        · rw [pending] at cleared
          cases cleared

theorem turn_keeps {s s' : World} {w w' : Worker} {o : Outcome} (kept : Kept s)
    (own : Carried s w) (turned : w.turn o s = some (s', w')) :
    Kept s' ∧ Carried s' w' ∧ ∀ m, Carried s m → Carried s' m := by
  obtain ⟨dongle, ⟨rfl, unwritten, held⟩ | ⟨p, first, valid, rfl, held, written⟩ |
    ⟨p, first, done, rfl, held, unwritten⟩ | ⟨k, v, rfl, held, unwritten⟩⟩ := Worker.turn_cases turned
  · refine ⟨kept, ⟨fun q member => ?_, by simp [unwritten]⟩, fun m carried => carried⟩
    rw [dongle]
    rcases held q member with old | read
    · exact own.agrees q old
    · exact kept.pending_rows read
  · have latest : s.accepted w.dongle p.1 = some p.2 := by
      rw [own.agrees p first, if_pos valid]
    refine ⟨kept.write latest, ⟨fun q member => ?_, fun q same => ?_⟩,
      fun m carried => carried.write latest⟩
    · rw [dongle]
      exact own.agrees q (held q member)
    · rw [written q same, dongle]
      exact ⟨valid, by simp [World.write]⟩
  · refine ⟨kept.clear_pending fun v edited => ?_, ⟨fun q member => ?_, by simp [unwritten]⟩,
      fun m carried => carried.congr rfl rfl⟩
    · have same := own.agrees p first
      rcases done with stale | written
      · rw [edited, stale] at same
        cases same
      · obtain ⟨valid, reached⟩ := own.written p written
        rw [edited, if_pos valid] at same
        rw [reached, same]
    · rw [dongle]
      exact own.agrees q (held q member)
  · exact ⟨kept.refresh_row _ _ _, carried_of_empty held unwritten,
      fun m carried => carried.congr rfl rfl⟩

/-! ## One action -/

/-- Workers start with nothing in hand. -/
theorem act_starts_empty {a : Action} {s s' : World} {ws : List Worker}
    (acted : act a s = some (s', ws)) : ∀ w ∈ ws, w.held = [] ∧ w.written? = none := by
  intro w member
  cases a with
  | set_param dongle key value device stored =>
      simp only [act] at acted
      split at acted <;> cases acted
      · cases member
      · split at member
        · rw [List.mem_singleton.1 member]
          exact ⟨rfl, rfl⟩
        · cases member
  | on_connect dongle device =>
      cases acted
      split at member
      · cases member
      · rw [List.mem_singleton.1 member]
        exact ⟨rfl, rfl⟩
  | get_params dongle device =>
      cases acted
      split at member
      · rw [List.mem_singleton.1 member]
        exact ⟨rfl, rfl⟩
      · cases member

/-- An action either leaves the world alone or is an accepted edit. -/
theorem act_cases {a : Action} {s s' : World} {ws : List Worker}
    (acted : act a s = some (s', ws)) :
    s' = s ∨ ∃ dongle key value, a.edit? = some (dongle, key, value) ∧
      is_writable key value = true ∧
      s' = { s with
        device_params := Params.cache_set dongle key value s.device_params
        accepted := fun d k =>
          if d = dongle ∧ k = key then some value else s.accepted d k } := by
  cases a with
  | set_param dongle key value device stored =>
      simp only [act] at acted
      split at acted
      · cases acted; exact .inl rfl
      · rename_i some_edit
        cases acted
        simp only [Action.edit?, ite_eq_right_iff, not_forall, Bool.and_eq_true] at some_edit
        obtain ⟨valid, _⟩ := some_edit
        have edit : (Action.set_param dongle key value device stored).edit? =
            some (dongle, key, value) := if_pos (by rw [valid.1, valid.2]; rfl)
        exact .inr ⟨dongle, key, value, edit, valid.1, rfl⟩
  | on_connect dongle device => cases acted; exact .inl rfl
  | get_params dongle device => cases acted; exact .inl rfl

/-- **No uncontested edit is lost.**  In every run whose accepted edits each come while
no flush in progress holds another value of the key, every edited row that is no longer
pending has reached the device. -/
theorem edits_survive (t : ParamTable) (devices : Text → Files) (p : Pool World Worker)
    (reached : rules.system.Reach Uncontested ⟨World.boot t devices, []⟩ p) :
    p.shared.NoEditLost := by
  have both : Kept p.shared ∧ ∀ w ∈ p.tasks, Carried p.shared w := by
    refine Pool.Rules.Reach.owned reached ⟨kept_boot t devices, by simp⟩ ?_ ?_
    · intro p a s ws kept _ uncontested acted
      have fresh : ∀ w ∈ ws, Carried s w := fun w member =>
        carried_of_empty (act_starts_empty acted w member).1 (act_starts_empty acted w member).2
      obtain rfl | ⟨dongle, key, value, edit, valid, rfl⟩ := act_cases acted
      · exact ⟨kept, fresh, fun m _ carried => carried⟩
      · refine ⟨kept.cache_set valid, fresh, fun m member carried => ⟨fun q held => ?_, ?_⟩⟩
        · dsimp only
          split
          · rename_i here
            -- The held value of the edited key is the value of the edit.
            have same := uncontested _ edit m member here.1 q held here.2
            rw [here.2, same, if_pos valid]
          · exact carried.agrees q held
        · exact carried.written
    · intro p i o w s w' kept each _ found turned
      obtain ⟨kept', own, others⟩ :=
        turn_keeps kept (each w (List.mem_of_getElem? found)) turned
      exact ⟨kept', own, fun m _ => others m⟩
  exact both.1.noEditLost

/-! ## Poles -/

/-- The user sets the first toggle of the allowlist of a reachable device. -/
private def toggle (value : Text) : Pool.Event Action Outcome :=
  .act (.set_param "d" "OpenpilotEnabledToggle" value ⟨1, "a"⟩ true)

/-- The second edit arrives between a flush's snapshot and its write: the flush writes
the first value and clears the mark of the second. -/
theorem overlapping_edit_lost : ¬ ∀ (t : ParamTable) (devices : Text → Files)
    (p : Pool World Worker), rules.system.Reach System.free ⟨World.boot t devices, []⟩ p →
      p.shared.NoEditLost := by
  intro claim
  have run : ∃ p, rules.system.replay ⟨World.boot Table.empty fun _ _ => none, []⟩
      [toggle "1", .turn 0 .ok, toggle "0", .turn 0 .ok, .turn 0 .ok] = some p ∧
      p.shared.accepted "d" "OpenpilotEnabledToggle" = some "0" ∧
      p.shared.device_params.get? ("d", "OpenpilotEnabledToggle") =
        some ⟨"d", "OpenpilotEnabledToggle", "0", 0⟩ ∧
      p.shared.devices "d" "OpenpilotEnabledToggle" = some "1" := by
    refine ⟨_, rfl, ?_, ?_, ?_⟩ <;> decide
  obtain ⟨p, replayed, edited, found, lost⟩ := run
  have kept := claim _ _ p (System.reach_of_replay replayed) _ _ _ edited _ found rfl
  rw [lost] at kept
  exact absurd kept (by decide)

/-- An edit, a flush and a reconcile that hold it at once, a write that fails late, and
a second edit when both have let go: the device ends with the second value. -/
theorem edits_survive_overlap : ∃ p : Pool World Worker,
    rules.system.Reach Uncontested ⟨World.boot Table.empty fun _ _ => none, []⟩ p ∧
      p.shared.NoEditLost ∧ p.shared.devices "d" "OpenpilotEnabledToggle" = some "0" := by
  have run : ∃ p : Pool World Worker, (rules.system.guard Uncontested).replay
      ⟨World.boot Table.empty fun _ _ => none, []⟩
      [toggle "1", .turn 0 .ok, .act (.on_connect "d" ⟨1, "a"⟩), .turn 1 .ok, .turn 0 .ok,
        .turn 1 .late, .turn 0 .ok, .turn 0 .ok, .turn 1 .ok, toggle "0", .turn 1 .failed,
        .turn 2 .ok, .turn 2 .ok, .turn 2 .ok] = some p ∧
      p.shared.devices "d" "OpenpilotEnabledToggle" = some "0" := by
    refine ⟨_, rfl, ?_⟩
    decide
  obtain ⟨p, replayed, device⟩ := run
  have reached := System.reach_of_replay_guard replayed
  exact ⟨p, reached, edits_survive _ _ p reached, device⟩

end HomeConnect.Params
