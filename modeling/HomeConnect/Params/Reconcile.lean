/-
# Params.Reconcile -- a reconcile leaves cache and device in agreement

When a device connects, `reconcile` flushes the pending edits and refreshes the cache.
Meanwhile other flushes and reconciles of earlier edits may still be under way, each with
pairs it has read long ago, any of their statements and commands may fail, and a write that
timed out may come through long after its flush has ended (`Line.sent`).

As long as the user makes no further edit, no other refresh stores what it read, nobody else
sets a param of the allowlist and none of its own steps fails, the reconcile ends with no edit
pending, every accepted edit on the device, and a cache that shows for every param of the
allowlist what the device holds (`reconcile_settles`).  A flush that still holds a pair is
harmless, and so is a write that comes through late: it is the edit that the device has got
already.  A refresh that still holds pairs is not: `late_refresh_shows_old`.
-/
import HomeConnect.Params.EditsSurvive
import HomeConnect.Params.ReadAll
import HomeConnect.Params.Update

namespace HomeConnect.Params

open HomeConnect.Theory

set_option autoImplicit false

/-! ## What is written is one line -/

def Unbroken (value : Text) : Prop := ∀ c ∈ value, c ≠ '\n' ∧ c ≠ '\r'

instance (value : Text) : Decidable (Unbroken value) :=
  inferInstanceAs (Decidable (∀ c ∈ value, c ≠ '\n' ∧ c ≠ '\r'))

theorem unbroken_of_digits {ds : Text} {n : Nat} (parsed : Text.parse_digits ds = some n) : Unbroken ds := by
  unfold Text.parse_digits at parsed
  split at parsed
  · rename_i digits
    intro c member
    have digit := List.all_eq_true.1 digits.2 c member
    constructor
    · rintro rfl
      exact absurd digit (by decide)
    · rintro rfl
      exact absurd digit (by decide)
  · cases parsed

theorem Unbroken.cons {c : Char} {ds : Text} (plain : c ≠ '\n' ∧ c ≠ '\r') (rest : Unbroken ds) :
    Unbroken (c :: ds) := by
  intro d member
  rcases List.mem_cons.1 member with rfl | later
  · exact plain
  · exact rest d later

theorem unbroken_of_parse_i64 {value : Text} {n : Int} (parsed : Text.parse_i64 value = some n) :
    Unbroken value := by
  unfold Text.parse_i64 at parsed
  split at parsed
  · obtain ⟨n, digits, -⟩ := Option.bind_eq_some_iff.1 parsed
    exact .cons (by decide) (unbroken_of_digits digits)
  · obtain ⟨n, digits, -⟩ := Option.bind_eq_some_iff.1 parsed
    exact .cons (by decide) (unbroken_of_digits digits)
  · obtain ⟨n, digits, -⟩ := Option.bind_eq_some_iff.1 parsed
    exact unbroken_of_digits digits

theorem options_unbroken : ∀ s ∈ SPECS, ∀ v ∈ s.options, Unbroken v := by decide +kernel

/-- A writable value is one of an allowlisted param, and has no line break. -/
theorem unbroken_of_writable {key value : Text} (writable : is_writable key value) :
    (∃ s ∈ SPECS, s.key = key) ∧ Unbroken value := by
  unfold is_writable at writable
  split at writable
  · rename_i s found
    have listed : s ∈ SPECS := List.mem_of_find?_eq_some found
    refine ⟨⟨s, listed, by simpa using List.find?_some found⟩, ?_⟩
    split at writable
    · rcases (Bool.or_eq_true _ _).mp writable with zero | one
      · rw [of_decide_eq_true zero]
        decide
      · rw [of_decide_eq_true one]
        decide
    · split at writable
      · rename_i v parsed
        exact unbroken_of_parse_i64 parsed
      · cases writable
    · obtain ⟨v, choice, is⟩ := List.any_eq_true.1 writable
      exact of_decide_eq_true is ▸ options_unbroken s listed v choice
    · cases writable
  · cases writable

theorem Unbroken.chomp {value : Text} (unbroken : Unbroken value) : Params.chomp value = value :=
  chomp_of_own ⟨0, by simp⟩ fun feed => (unbroken _ feed).1 rfl

theorem Unbroken.one_line {value : Text} (unbroken : Unbroken value) : OneLine value := by
  rw [OneLine, unbroken.chomp]
  exact ⟨fun feed => (unbroken _ feed).1 rfl, fun last => (unbroken _ (List.mem_of_getLast? last)).2 rfl⟩

/-! ## Cache and device, as they are meant to be kept -/

/-- The mark of a row is 0 or 1, and every param of the device is one line. -/
structure Formed (dongle : Text) (s : World) : Prop where
  marks : ∀ id row, s.device_params.get? id = some row → row.pending = 0 ∨ row.pending = 1
  single : ∀ sp ∈ SPECS, OneLine (content (s.devices dongle) sp.key)

theorem Formed.write {dongle : Text} {s : World} (formed : Formed dongle s) (d : Text) {key value : Text}
    (writable : is_writable key value) : Formed dongle (s.write d key value) := by
  refine ⟨formed.marks, ?_⟩
  intro sp listed
  rw [content]
  simp only [World.write]
  split
  · exact (unbroken_of_writable writable).2.one_line
  · exact formed.single sp listed

theorem Formed.cache_set {dongle : Text} {s : World} (formed : Formed dongle s) (d key value : Text)
    (accepted : Text → Text → Option Text) :
    Formed dongle { s with device_params := Params.cache_set d key value s.device_params, accepted := accepted } := by
  refine ⟨?_, formed.single⟩
  intro id row found
  dsimp only at found
  rw [get?_cache_set] at found
  split at found
  · cases found
    exact .inr rfl
  · exact formed.marks id row found

theorem Formed.clear_pending {dongle : Text} {s : World} (formed : Formed dongle s) (d key : Text) :
    Formed dongle { s with device_params := Params.clear_pending d key s.device_params } := by
  refine ⟨?_, formed.single⟩
  intro id row found
  dsimp only at found
  rw [get?_clear_pending] at found
  obtain ⟨old, before, rfl⟩ := Option.map_eq_some_iff.1 found
  split
  · exact .inl rfl
  · exact formed.marks id old before

theorem Formed.refresh_row {dongle : Text} {s : World} (formed : Formed dongle s) (d key value : Text) :
    Formed dongle { s with device_params := Params.refresh_row d key value s.device_params } := by
  refine ⟨?_, formed.single⟩
  intro id row found
  dsimp only at found
  rw [get?_refresh_row] at found
  split at found
  · cases before : s.device_params.get? id with
    | none =>
        rw [before] at found
        cases found
        exact .inl rfl
    | some old =>
        rw [before, Option.map_some, Option.getD_some, Option.some_inj] at found
        have mark := formed.marks id old before
        rw [← found]
        split
        · exact mark
        · exact mark
  · exact formed.marks id row found

theorem Formed.set_param {dongle : Text} {s : World} (formed : Formed dongle s) (d key : Text)
    {value : Option Text} (single : OneLine (value.getD [])) : Formed dongle (s.set_param d key value) := by
  refine ⟨formed.marks, ?_⟩
  intro sp listed
  rw [content]
  simp only [World.set_param]
  split
  · exact single
  · exact formed.single sp listed

theorem Formed.turn {dongle : Text} {s s' : World} {w w' : Worker} {o : Outcome} (formed : Formed dongle s)
    (turned : w.turn o s = some (s', w')) : Formed dongle s' := by
  obtain ⟨_, ⟨rfl, _⟩ | ⟨p, _, valid, rfl, _⟩ | ⟨p, _, _, rfl, _⟩ | ⟨k, v, rfl, _⟩⟩ :=
    Worker.turn_cases turned
  · exact formed
  · exact formed.write _ valid
  · exact formed.clear_pending _ _
  · exact formed.refresh_row _ _ _

theorem Formed.act {dongle : Text} {s s' : World} {a : Action} {ws : List Worker} (formed : Formed dongle s)
    (acted : act a s = some (s', ws)) : Formed dongle s' := by
  obtain rfl | ⟨d, key, value, _, _, rfl⟩ := act_cases acted
  · exact formed
  · exact formed.cache_set d key value _

/-! ## Time-outs -/

/-- The world, and the writes (of a key and value, to a dongle's device) that timed out and have
neither come through nor been lost. -/
structure Line where
  params : World
  sent : List (Text × Text × Text) := []

inductive LineAct
  | params (a : Action)
  /-- Somebody else sets or removes a param: openpilot, or an update request. -/
  | device_param (dongle key : Text) (value : Option Text)
  /-- A write that timed out comes through. -/
  | lands (i : Nat)
  /-- ... or never will. -/
  | lost (i : Nat)
deriving DecidableEq, Repr

def LineAct.act : LineAct → Line → Option (Line × List Worker)
  | .params a, s => (Params.act a s.params).map fun r => ({ s with params := r.1 }, r.2)
  | .device_param dongle key value, s =>
      some ({ s with params := s.params.set_param dongle key value }, [])
  | .lands i, s =>
      (s.sent[i]?).map fun e =>
        ({ params := s.params.write e.1 e.2.1 e.2.2, sent := s.sent.eraseIdx i }, [])
  | .lost i, s => some ({ s with sent := s.sent.eraseIdx i }, [])

/-- To a worker a time-out is a failure. -/
def Worker.wait (w : Worker) : Waited → Line → Option (Line × Worker)
  | .came o, s => (w.turn o s.params).map fun r => ({ s with params := r.1 }, r.2)
  | .timed_out, s =>
      (w.turn .failed s.params).map fun r =>
        ({ params := r.1
           sent := match w.puts .ok with
             | some p => s.sent ++ [(w.dongle, p)]
             | none => s.sent }, r.2)

def lineRules : Pool.Rules Line Worker LineAct Waited := ⟨LineAct.act, Worker.wait⟩

/-- An edit comes while no flush and no write on its way holds another value of its key; and
what somebody else sets, to one line, is no param the user has edited. -/
def LineUncontested (p : Pool Line Worker) : Pool.Event LineAct Waited → Prop
  | .act (.params a) => Uncontested ⟨p.shared.params, p.tasks⟩ (.act a) ∧
      ∀ edit, a.edit? = some edit → ∀ e ∈ p.shared.sent, e.1 = edit.1 → e.2.1 = edit.2.1 → e.2.2 = edit.2.2
  | .act (.device_param dongle key value) =>
      p.shared.params.accepted dongle key = none ∧ OneLine (value.getD [])
  | _ => True

theorem Worker.held_of_puts {w : Worker} {o : Outcome} {q : Text × Text} (puts : w.puts o = some q) :
    q ∈ w.held ∧ is_writable q.1 q.2 = true := by
  obtain ⟨dongle, reconcile, stage⟩ := w
  unfold Worker.puts at puts
  split at puts
  · cases puts
  · rename_i k v rest n at_pair _
    split at puts
    · rename_i valid
      cases puts
      have is : stage = .pend ((k, v) :: rest) n := at_pair
      rw [is]
      exact ⟨List.mem_cons_self, valid⟩
    · cases puts
  · cases puts

theorem accepted_turn {w w' : Worker} {o : Outcome} {s s' : World} (turned : w.turn o s = some (s', w')) :
    s'.accepted = s.accepted := by
  obtain ⟨_, ⟨rfl, _⟩ | ⟨p, _, _, rfl, _⟩ | ⟨p, _, _, rfl, _⟩ | ⟨k, v, rfl, _⟩⟩ := Worker.turn_cases turned
  all_goals rfl

theorem Kept.set_param {s : World} (kept : Kept s) {dongle key : Text} (value : Option Text)
    (free : s.accepted dongle key = none) : Kept (s.set_param dongle key value) := by
  refine ⟨kept.writable, fun d k v edited => ?_, kept.pending⟩
  obtain ⟨row, found, state⟩ := kept.settled d k v edited
  refine ⟨row, found, state.imp_right fun cleared => ⟨cleared.1, ?_⟩⟩
  simp only [World.set_param]
  rw [if_neg]
  · exact cleared.2
  · rintro ⟨rfl, rfl⟩
    rw [show s.accepted d k = some v from edited] at free
    cases free

theorem Carried.set_param {s : World} {w : Worker} (carried : Carried s w) {dongle key : Text}
    (value : Option Text) (free : s.accepted dongle key = none) : Carried (s.set_param dongle key value) w := by
  refine ⟨carried.agrees, fun p written => ?_⟩
  obtain ⟨valid, reached⟩ := carried.written p written
  refine ⟨valid, ?_⟩
  simp only [World.set_param]
  rw [if_neg]
  · exact reached
  · rintro ⟨rfl, rfl⟩
    have edited := carried.agrees p (Worker.held_of_written written)
    rw [free, if_pos valid] at edited
    cases edited

/-- What holds of a pool whose edits were uncontested. -/
structure Sound (dongle : Text) (p : Pool Line Worker) : Prop where
  kept : Kept p.shared.params
  formed : Formed dongle p.shared.params
  carried : ∀ w ∈ p.tasks, Carried p.shared.params w
  sent : ∀ e ∈ p.shared.sent, p.shared.params.accepted e.1 e.2.1 = some e.2.2

theorem Sound.edit {dongle : Text} {p : Pool Line Worker} {a : Action} {s : World} {ws : List Worker}
    (sound : Sound dongle p) (uncontested : LineUncontested p (.act (.params a)))
    (acted : act a p.shared.params = some (s, ws)) :
    Sound dongle ⟨{ p.shared with params := s }, p.tasks ++ ws⟩ := by
  have started : ∀ w ∈ ws, Carried s w := fun w member =>
    carried_of_empty (act_starts_empty acted w member).1 (act_starts_empty acted w member).2
  obtain ⟨kept, formed, carried, sent⟩ := sound
  obtain rfl | ⟨d, key, value, edit, valid, rfl⟩ := act_cases acted
  · exact ⟨kept, formed, fun m member => (List.mem_append.1 member).elim (carried m) (started m), sent⟩
  · refine ⟨kept.cache_set valid, formed.cache_set d key value _, fun m member => ?_, fun e member => ?_⟩
    · rcases List.mem_append.1 member with old | new
      · refine ⟨fun q held => ?_, (carried m old).written⟩
        dsimp only
        split
        · rename_i here
          have same := uncontested.1 _ edit m old here.1 q held here.2
          rw [here.2, same, if_pos valid]
        · exact (carried m old).agrees q held
      · exact started m new
    · dsimp only
      split
      · rename_i here
        rw [uncontested.2 _ edit e member here.1 here.2]
      · exact sent e member

theorem Sound.act {dongle : Text} {p : Pool Line Worker} {a : LineAct} {s : Line} {ws : List Worker}
    (sound : Sound dongle p) (uncontested : LineUncontested p (.act a))
    (acted : lineRules.act a p.shared = some (s, ws)) : Sound dongle ⟨s, p.tasks ++ ws⟩ := by
  cases a with
  | params a =>
      obtain ⟨⟨s', ws'⟩, did, same⟩ := Option.map_eq_some_iff.1 acted
      cases same
      exact sound.edit uncontested did
  | device_param d key value =>
      cases acted
      obtain ⟨free, single⟩ := uncontested
      rw [List.append_nil]
      exact ⟨sound.kept.set_param value free, sound.formed.set_param d key single,
        fun m member => (sound.carried m member).set_param value free, sound.sent⟩
  | lands i =>
      obtain ⟨e, found, same⟩ := Option.map_eq_some_iff.1 acted
      cases same
      have latest := sound.sent e (List.mem_of_getElem? found)
      rw [List.append_nil]
      exact ⟨sound.kept.write latest, sound.formed.write e.1 (sound.kept.writable _ _ _ latest),
        fun m member => (sound.carried m member).write latest,
        fun e' member => sound.sent e' (List.mem_of_mem_eraseIdx member)⟩
  | lost i =>
      cases acted
      rw [List.append_nil]
      exact ⟨sound.kept, sound.formed, sound.carried,
        fun e' member => sound.sent e' (List.mem_of_mem_eraseIdx member)⟩

/-- What waiting for a command comes to: a turn, and perhaps a write on its way. -/
theorem Worker.wait_cases {w w' : Worker} {o : Waited} {s s' : Line} (waited : w.wait o s = some (s', w')) :
    ∃ o', w.turn o' s.params = some (s'.params, w') ∧ (o = .came .ok → o' = .ok) ∧
      ∀ e ∈ s'.sent, e ∈ s.sent ∨ e.1 = w.dongle ∧ w.puts .ok = some e.2 := by
  cases o with
  | came o =>
      obtain ⟨⟨params, w''⟩, did, same⟩ := Option.map_eq_some_iff.1 waited
      cases same
      exact ⟨o, did, fun is => (by cases is; rfl), fun e member => .inl member⟩
  | timed_out =>
      obtain ⟨⟨params, w''⟩, did, same⟩ := Option.map_eq_some_iff.1 waited
      cases same
      refine ⟨.failed, did, nofun, fun e member => ?_⟩
      dsimp only at member
      split at member
      · rename_i q puts
        rcases List.mem_append.1 member with old | new
        · exact .inl old
        · rw [List.mem_singleton.1 new]
          exact .inr ⟨rfl, puts⟩
      · exact .inl member

theorem Sound.turn {dongle : Text} {p : Pool Line Worker} {i : Nat} {o : Waited} {w w' : Worker} {s : Line}
    (sound : Sound dongle p) (found : p.tasks[i]? = some w)
    (waited : lineRules.turn w o p.shared = some (s, w')) : Sound dongle ⟨s, p.tasks.set i w'⟩ := by
  obtain ⟨o', turned, _, sent⟩ := Worker.wait_cases waited
  have carried := sound.carried w (List.mem_of_getElem? found)
  obtain ⟨kept, own, others⟩ := turn_keeps sound.kept carried turned
  have accepted := accepted_turn turned
  refine ⟨kept, sound.formed.turn turned, fun m member => ?_, fun e member => ?_⟩
  · rcases List.mem_or_eq_of_mem_set member with old | rfl
    · exact others m (sound.carried m old)
    · exact own
  · dsimp only
    rw [accepted]
    rcases sent e member with old | ⟨its, puts⟩
    · exact sound.sent e old
    · obtain ⟨held, valid⟩ := Worker.held_of_puts puts
      have agrees := carried.agrees e.2 held
      rw [if_pos valid] at agrees
      rw [its, agrees]

theorem Sound.step {dongle : Text} {p p' : Pool Line Worker} {e : Pool.Event LineAct Waited}
    (sound : Sound dongle p) (uncontested : LineUncontested p e) (stepped : lineRules.system.step p e = some p') :
    Sound dongle p' := by
  obtain ⟨a, s, ws, rfl, acted, rfl⟩ | ⟨i, o, w, s, w', rfl, found, waited, rfl⟩ :=
    Pool.Rules.step_cases stepped
  · exact sound.act uncontested acted
  · exact sound.turn found waited

/-! ## The reconcile's progress -/

/-- Only rows of these keys are pending. -/
def PendingWithin (dongle : Text) (s : World) (keys : List Text) : Prop :=
  ∀ key row, s.device_params.get? (dongle, key) = some row → row.pending = 1 → key ∈ keys

/-- The cache has the device's value of a param. -/
def Shows (dongle : Text) (s : World) (key : Text) : Prop :=
  s.device_params.get? (dongle, key) = some ⟨dongle, key, chomp (content (s.devices dongle) key), 0⟩

/-- A param of the allowlist. -/
def Listed (key : Text) : Prop := ∃ sp ∈ SPECS, sp.key = key

instance (key : Text) : Decidable (Listed key) := inferInstanceAs (Decidable (∃ sp ∈ SPECS, sp.key = key))

/-- What a reconcile that has come to a stage has achieved. -/
def Progress (dongle : Text) (s : World) : Stage → Prop
  | .select => True
  | .pend pairs _ => PendingWithin dongle s (pairs.map Prod.fst)
  | .clear k _ rest _ => PendingWithin dongle s (k :: rest.map Prod.fst)
  | .read_all => PendingWithin dongle s []
  | .store pairs =>
      PendingWithin dongle s [] ∧ (∀ p ∈ pairs, Listed p.1 ∧ p.2 = chomp (content (s.devices dongle) p.1)) ∧
        ∀ sp ∈ SPECS, sp.key ∈ pairs.map Prod.fst ∨ Shows dongle s sp.key
  | .returned => PendingWithin dongle s [] ∧ ∀ sp ∈ SPECS, Shows dongle s sp.key

/-! ## What the others do meanwhile -/

/-- Rows of the dongle are at most cleared, and what is written to a listed param of its device
is what was last accepted. -/
structure Meanwhile (dongle : Text) (s s' : World) : Prop where
  rows : ∀ key, s'.device_params.get? (dongle, key) = s.device_params.get? (dongle, key) ∨
    s'.device_params.get? (dongle, key) =
      (s.device_params.get? (dongle, key)).map fun r => { r with pending := 0 }
  device : ∀ key, Listed key → s'.devices dongle key = s.devices dongle key ∨
    ∃ v, s.accepted dongle key = some v ∧ s'.devices dongle key = some v

namespace Meanwhile

variable {dongle : Text} {s s' : World}

theorem refl : Meanwhile dongle s s := ⟨fun _ => .inl rfl, fun _ _ => .inl rfl⟩

theorem pending (meanwhile : Meanwhile dongle s s') {keys : List Text} (within : PendingWithin dongle s keys) :
    PendingWithin dongle s' keys := by
  intro key row found marked
  rcases meanwhile.rows key with same | cleared
  · rw [same] at found
    exact within key row found marked
  · rw [cleared] at found
    obtain ⟨old, _, rfl⟩ := Option.map_eq_some_iff.1 found
    cases marked

/-- With no edit pending the device has every accepted edit, so its params stay as they are. -/
theorem device_same (meanwhile : Meanwhile dongle s s') (kept : Kept s) (none : PendingWithin dongle s [])
    {key : Text} (listed : Listed key) : s'.devices dongle key = s.devices dongle key := by
  rcases meanwhile.device key listed with same | ⟨v, edited, written⟩
  · exact same
  · obtain ⟨row, found, ⟨pending, _⟩ | ⟨_, reached⟩⟩ := kept.settled dongle key v edited
    · exact absurd (none key row found pending) List.not_mem_nil
    · rw [written, reached]

theorem content_same (meanwhile : Meanwhile dongle s s') (kept : Kept s) (none : PendingWithin dongle s [])
    {key : Text} (listed : Listed key) : content (s'.devices dongle) key = content (s.devices dongle) key := by
  rw [content, content, meanwhile.device_same kept none listed]

theorem shows (meanwhile : Meanwhile dongle s s') (kept : Kept s) (none : PendingWithin dongle s [])
    {key : Text} (listed : Listed key) (shows : Shows dongle s key) : Shows dongle s' key := by
  rw [Shows, meanwhile.content_same kept none listed]
  rcases meanwhile.rows key with same | cleared
  · rw [same]
    exact shows
  · rw [cleared, shows]
    rfl

theorem progress (meanwhile : Meanwhile dongle s s') (kept : Kept s) {stage : Stage}
    (progress : Progress dongle s stage) : Progress dongle s' stage := by
  cases stage with
  | select => trivial
  | pend pairs n => exact meanwhile.pending progress
  | clear k v rest n => exact meanwhile.pending progress
  | read_all => exact meanwhile.pending progress
  | store pairs =>
      obtain ⟨none, values, shown⟩ := progress
      refine ⟨meanwhile.pending none, fun p member => ?_, fun sp listed => ?_⟩
      · obtain ⟨listed, value⟩ := values p member
        exact ⟨listed, by rw [meanwhile.content_same kept none listed]; exact value⟩
      · exact (shown sp listed).imp_right (meanwhile.shows kept none ⟨sp, listed, rfl⟩)
  | returned =>
      obtain ⟨none, shown⟩ := progress
      exact ⟨meanwhile.pending none, fun sp listed => meanwhile.shows kept none ⟨sp, listed, rfl⟩ (shown sp listed)⟩

end Meanwhile

/-- The next statement stores a row of a refresh of this dongle. -/
def Worker.refreshing (w : Worker) (dongle : Text) : Bool :=
  match w.stage with
  | .store (_ :: _) => w.dongle = dongle
  | _ => false

theorem meanwhile_clear {dongle : Text} (s : World) (d key : Text) :
    Meanwhile dongle s { s with device_params := Params.clear_pending d key s.device_params } := by
  refine ⟨?_, fun _ _ => .inl rfl⟩
  intro k
  dsimp only
  rw [get?_clear_pending]
  by_cases here : (dongle, k) = (d, key)
  · exact .inr (by simp only [here, if_true])
  · exact .inl (by simp [here])

theorem meanwhile_write {dongle : Text} {s : World} {d key value : Text}
    (latest : s.accepted d key = some value) : Meanwhile dongle s (s.write d key value) := by
  refine ⟨fun _ => .inl rfl, ?_⟩
  intro k _
  simp only [World.write]
  split
  · rename_i here
    obtain ⟨rfl, rfl⟩ := here
    exact .inr ⟨value, latest, rfl⟩
  · exact .inl rfl

/-- A turn of another worker that does not refresh this dongle's cache. -/
theorem meanwhile_turn {dongle : Text} {s s' : World} {w w' : Worker} {o : Outcome} (carried : Carried s w)
    (other : w.refreshing dongle = false) (turned : w.turn o s = some (s', w')) : Meanwhile dongle s s' := by
  obtain ⟨d, reconcile, stage⟩ := w
  cases stage with
  | select => cases o <;> cases turned <;> exact .refl
  | pend pairs n =>
      cases pairs with
      | nil =>
          cases turned
          exact .refl
      | cons p rest =>
          obtain ⟨k, v⟩ := p
          have agrees := carried.agrees (k, v) List.mem_cons_self
          simp only [Worker.turn] at turned
          split at turned
          · rename_i valid
            rw [if_pos valid] at agrees
            cases o <;> cases turned
            · exact meanwhile_write agrees
            · exact .refl
            · exact meanwhile_write agrees
          · cases o <;> cases turned
            · exact meanwhile_clear s d k
            all_goals exact .refl
  | clear k v rest n =>
      cases o <;> cases turned
      · exact meanwhile_clear s d k
      all_goals exact .refl
  | read_all => cases o <;> cases turned <;> exact .refl
  | store pairs =>
      cases pairs with
      | nil =>
          cases turned
          exact .refl
      | cons p rest =>
          have apart : d ≠ dongle := of_decide_eq_false other
          cases o <;> cases turned
          · refine ⟨?_, fun _ _ => .inl rfl⟩
            intro key
            dsimp only
            rw [get?_refresh_row, if_neg fun same => apart (Prod.mk.inj same).1.symm]
            exact .inl rfl
          all_goals exact .refl
  | returned => cases turned

theorem meanwhile_act {dongle : Text} {s s' : World} {a : Action} {ws : List Worker}
    (elsewhere : ∀ edit, a.edit? = some edit → edit.1 ≠ dongle) (acted : act a s = some (s', ws)) :
    Meanwhile dongle s s' := by
  obtain rfl | ⟨d, key, value, edit, _, rfl⟩ := act_cases acted
  · exact .refl
  · have apart : d ≠ dongle := elsewhere _ edit
    refine ⟨?_, fun _ _ => .inl rfl⟩
    intro k
    dsimp only
    rw [get?_cache_set, if_neg fun same => apart (Prod.mk.inj same).1.symm]
    exact .inl rfl

theorem meanwhile_set_param {dongle : Text} {s : World} {d key : Text} (value : Option Text)
    (elsewhere : d ≠ dongle ∨ ¬ Listed key) : Meanwhile dongle s (s.set_param d key value) := by
  refine ⟨fun _ => .inl rfl, fun k listed => .inl ?_⟩
  simp only [World.set_param]
  rw [if_neg]
  rintro ⟨rfl, rfl⟩
  exact elsewhere.elim (fun apart => apart rfl) fun unlisted => unlisted listed

/-! ## The reconcile's own turns -/

theorem read_all_of_one_line {files : Files} (single : ∀ sp ∈ SPECS, OneLine (content files sp.key)) :
    read_all (dump files) = SPECS.map fun sp => (sp.key, chomp (content files sp.key)) := by
  rw [read_all_dump, List.map_eq_flatMap]
  exact List.flatMap_congr fun sp listed => entry_of_one_line listed (single sp listed)

/-- Clearing a key takes it off the keys that are pending. -/
theorem pendingWithin_clear {dongle : Text} {s : World} {key : Text} {keys : List Text}
    (within : PendingWithin dongle s (key :: keys)) :
    PendingWithin dongle
      { s with device_params := Params.clear_pending dongle key s.device_params } keys := by
  intro k row found marked
  dsimp only at found
  rw [get?_clear_pending] at found
  obtain ⟨old, before, rfl⟩ := Option.map_eq_some_iff.1 found
  by_cases here : (dongle, k) = (dongle, key)
  · rw [if_pos here] at marked
    cases marked
  · rw [if_neg here] at marked
    rcases List.mem_cons.1 (within k old before marked) with rfl | later
    · exact absurd rfl here
    · exact later

/-- Storing a row with nothing pending shows the value, and changes no other row. -/
theorem get?_store {dongle : Text} {s : World} (formed : Formed dongle s) (none : PendingWithin dongle s [])
    (key value k : Text) :
    (Params.refresh_row dongle key value s.device_params).get? (dongle, k) =
      if k = key then some ⟨dongle, key, value, 0⟩ else s.device_params.get? (dongle, k) := by
  rw [get?_refresh_row]
  by_cases here : k = key
  · subst here
    rw [if_pos rfl, if_pos rfl]
    cases found : s.device_params.get? (dongle, k) with
    | none => rfl
    | some row =>
        have cleared : row.pending = 0 := by
          rcases formed.marks _ row found with free | marked
          · exact free
          · exact absurd (none k row found marked) List.not_mem_nil
        have same := Table.key_of_get? found
        simp only [ParamRow.id, Prod.mk.injEq] at same
        obtain ⟨d, key', value', pending⟩ := row
        simp only at cleared same
        simp [cleared, same.1, same.2]
  · rw [if_neg fun same => here (Prod.mk.inj same).2, if_neg here]

theorem progress_turn {dongle : Text} {s s' : World} {w w' : Worker} (formed : Formed dongle s)
    (its : w.dongle = dongle) (reconcile : w.reconcile = true) (progress : Progress dongle s w.stage)
    (turned : w.turn .ok s = some (s', w')) :
    w'.dongle = dongle ∧ w'.reconcile = true ∧ Progress dongle s' w'.stage := by
  obtain ⟨d, r, stage⟩ := w
  cases its
  cases reconcile
  cases stage with
  | select =>
      cases turned
      refine ⟨rfl, rfl, ?_⟩
      intro key row found marked
      have read : (key, row.value) ∈ pending_rows d s.device_params :=
        mem_pending_rows.2 ⟨row, found, marked, rfl⟩
      exact List.mem_map.2 ⟨_, read, rfl⟩
  | pend pairs n =>
      cases pairs with
      | nil =>
          cases turned
          exact ⟨rfl, rfl, progress⟩
      | cons p rest =>
          obtain ⟨k, v⟩ := p
          simp only [Worker.turn] at turned
          split at turned
          · cases turned
            exact ⟨rfl, rfl, progress⟩
          · cases turned
            exact ⟨rfl, rfl, pendingWithin_clear progress⟩
  | clear k v rest n =>
      cases turned
      exact ⟨rfl, rfl, pendingWithin_clear progress⟩
  | read_all =>
      cases turned
      refine ⟨rfl, rfl, progress, ?_, ?_⟩
      · intro p member
        rw [read_all_of_one_line formed.single] at member
        obtain ⟨sp, listed, rfl⟩ := List.mem_map.1 member
        exact ⟨⟨sp, listed, rfl⟩, rfl⟩
      · intro sp listed
        rw [read_all_of_one_line formed.single]
        exact .inl (List.mem_map.2 ⟨_, List.mem_map.2 ⟨sp, listed, rfl⟩, rfl⟩)
  | store pairs =>
      obtain ⟨none, values, shown⟩ := progress
      cases pairs with
      | nil =>
          cases turned
          exact ⟨rfl, rfl, none, fun sp listed => (shown sp listed).resolve_left List.not_mem_nil⟩
      | cons p rest =>
          obtain ⟨k, v⟩ := p
          cases turned
          have stored := get?_store formed none k v
          refine ⟨rfl, rfl, ?_, fun q member => values q (List.mem_cons_of_mem _ member), ?_⟩
          · intro key row found marked
            dsimp only at found
            rw [stored] at found
            split at found
            · cases found
              cases marked
            · exact none key row found marked
          · intro sp listed
            by_cases here : sp.key = k
            · refine .inr ?_
              have value : v = chomp (content (s.devices d) k) := (values (k, v) List.mem_cons_self).2
              rw [Shows]
              dsimp only
              rw [stored, if_pos here, here, value]
            · rcases shown sp listed with waiting | already
              · rcases List.mem_cons.1 waiting with first | later
                · exact absurd first here
                · exact .inl later
              · refine .inr ?_
                rw [Shows]
                dsimp only
                rw [stored, if_neg here]
                exact already
  | returned => cases turned

/-! ## It ends -/

section Ends

variable {p : Pool Line Worker} {i : Nat}

/-- Left to itself, and with nothing failing, the task returns. -/
def Finishes (p : Pool Line Worker) (i : Nat) : Prop :=
  ∃ n p' w, lineRules.system.replay p (List.replicate n (.turn i (.came .ok))) = some p' ∧
    p'.tasks[i]? = some w ∧ w.stage = .returned

theorem finishes_of_turn {w : Worker} (found : p.tasks[i]? = some w)
    (after : ∀ s w', w.turn .ok p.shared.params = some (s, w') →
      Finishes ⟨{ p.shared with params := s }, p.tasks.set i w'⟩ i)
    (more : (w.turn .ok p.shared.params).isSome) : Finishes p i := by
  obtain ⟨⟨s, w'⟩, turned⟩ := Option.isSome_iff_exists.1 more
  obtain ⟨n, p', w₂, replayed, there, ended⟩ := after s w' turned
  refine ⟨n + 1, p', w₂, ?_, there, ended⟩
  have stepped : lineRules.system.step p (.turn i (.came .ok)) =
      some ⟨{ p.shared with params := s }, p.tasks.set i w'⟩ := by
    show (p.tasks[i]?).bind (fun l => (l.wait (.came .ok) p.shared).map _) = _
    rw [found, Option.bind_some, Worker.wait, turned]
    rfl
  rw [List.replicate_succ, System.replay, stepped, Option.bind_some]
  exact replayed

theorem found_set {w : Worker} (found : p.tasks[i]? = some w) (s : Line) (w' : Worker) :
    (Pool.mk s (p.tasks.set i w')).tasks[i]? = some w' := by
  rw [List.getElem?_set_self', found]
  rfl

theorem finishes_returned {w : Worker} (found : p.tasks[i]? = some w) (returned : w.stage = .returned) :
    Finishes p i := ⟨0, p, w, rfl, found, returned⟩

theorem finishes_store {dongle : Text} {r : Bool} {pairs : List (Text × Text)}
    (found : p.tasks[i]? = some ⟨dongle, r, .store pairs⟩) : Finishes p i := by
  induction pairs generalizing p with
  | nil =>
      apply finishes_of_turn found ?_ rfl
      intro s w' turned
      cases turned
      exact finishes_returned (found_set found _ _) rfl
  | cons pair rest ih =>
      apply finishes_of_turn found ?_ rfl
      intro s w' turned
      cases turned
      exact ih (found_set found _ _)

theorem finishes_flushed {w : Worker} (found : p.tasks[i]? = some w.flushed) : Finishes p i := by
  rw [Worker.flushed] at found
  cases again : w.reconcile with
  | false => exact finishes_returned found (by simp [again])
  | true =>
      simp only [again, if_true] at found
      apply finishes_of_turn found ?_ rfl
      intro s w' turned
      cases turned
      exact finishes_store (found_set found _ _)

theorem finishes_pend {dongle : Text} {r : Bool} {pairs : List (Text × Text)} {n : Nat}
    (found : p.tasks[i]? = some ⟨dongle, r, .pend pairs n⟩) : Finishes p i := by
  induction pairs generalizing p n with
  | nil =>
      apply finishes_of_turn found ?_ rfl
      intro s w' turned
      cases turned
      exact finishes_flushed (w := ⟨dongle, r, .pend [] n⟩) (found_set found _ _)
  | cons pair rest ih =>
      obtain ⟨k, v⟩ := pair
      by_cases valid : is_writable k v = true
      · apply finishes_of_turn found ?_ (by simp [Worker.turn, valid])
        intro s w' turned
        simp only [Worker.turn, valid, if_true] at turned
        cases turned
        apply finishes_of_turn (found_set found _ _) ?_ rfl
        intro s w' turned
        cases turned
        exact ih (found_set (found_set found _ _) _ _)
      · apply finishes_of_turn found ?_ (by simp [Worker.turn, valid])
        intro s w' turned
        simp only [Worker.turn, valid] at turned
        cases turned
        exact ih (found_set found _ _)

theorem finishes {w : Worker} (found : p.tasks[i]? = some w) : Finishes p i := by
  obtain ⟨dongle, r, stage⟩ := w
  cases stage with
  | select =>
      apply finishes_of_turn found ?_ rfl
      intro s w' turned
      cases turned
      exact finishes_pend (found_set found _ _)
  | pend pairs n => exact finishes_pend found
  | clear k v rest n =>
      apply finishes_of_turn found ?_ rfl
      intro s w' turned
      cases turned
      exact finishes_pend (found_set found _ _)
  | read_all =>
      apply finishes_of_turn found ?_ rfl
      intro s w' turned
      cases turned
      exact finishes_store (found_set found _ _)
  | store pairs => exact finishes_store found
  | returned => exact finishes_returned found rfl

end Ends

/-! ## Agreement -/

/-- While the task runs nobody edits the dongle's params, nobody else sets one of them on the
device, and no other refresh stores a row of its cache; none of the task's own statements and
commands fails. -/
def Undisturbed (i : Nat) (dongle : Text) (p : Pool Line Worker) (e : Pool.Event LineAct Waited) : Prop :=
  LineUncontested p e ∧
    match e with
    | .act (.params a) => ∀ edit, a.edit? = some edit → edit.1 ≠ dongle
    | .act (.device_param d key _) => d ≠ dongle ∨ ¬ Listed key
    | .act _ => True
    | .turn j o =>
        if j = i then o = .came .ok
        else ∀ w, p.tasks[j]? = some w → w.refreshing dongle = false

/-- No edit is pending, every accepted edit is on the device and in the cache, and the cache
shows what the device holds. -/
structure Agreement (dongle : Text) (s : World) : Prop where
  cleared : ∀ r ∈ s.device_params.rows, r.dongle_id = dongle → r.pending = 0
  edits : ∀ key value, s.accepted dongle key = some value →
    s.devices dongle key = some value ∧
      s.device_params.get? (dongle, key) = some ⟨dongle, key, value, 0⟩
  shown : ∀ sp ∈ SPECS, Shows dongle s sp.key

/-- The task and what it has achieved. -/
def Reconciling (i : Nat) (dongle : Text) (p : Pool Line Worker) : Prop :=
  ∃ w, p.tasks[i]? = some w ∧ w.dongle = dongle ∧ w.reconcile = true ∧ Progress dongle p.shared.params w.stage

/-- What an action does to the dongle's cache and device. -/
theorem meanwhile_line_act {i : Nat} {dongle : Text} {p : Pool Line Worker} {a : LineAct} {s : Line}
    {ws : List Worker} (sound : Sound dongle p) (undisturbed : Undisturbed i dongle p (.act a))
    (acted : lineRules.act a p.shared = some (s, ws)) : Meanwhile dongle p.shared.params s.params := by
  cases a with
  | params a =>
      obtain ⟨⟨s', ws'⟩, did, same⟩ := Option.map_eq_some_iff.1 acted
      cases same
      exact meanwhile_act undisturbed.2 did
  | device_param d key value =>
      cases acted
      exact meanwhile_set_param value undisturbed.2
  | lands j =>
      obtain ⟨e, found, same⟩ := Option.map_eq_some_iff.1 acted
      cases same
      exact meanwhile_write (sound.sent e (List.mem_of_getElem? found))
  | lost j =>
      cases acted
      exact .refl

theorem reconciling_step {i : Nat} {dongle : Text} {p p' : Pool Line Worker}
    {e : Pool.Event LineAct Waited} (sound : Sound dongle p) (reconciling : Reconciling i dongle p)
    (undisturbed : Undisturbed i dongle p e) (stepped : lineRules.system.step p e = some p') :
    Reconciling i dongle p' := by
  obtain ⟨w, found, its, reconcile, progress⟩ := reconciling
  obtain ⟨a, s, ws, rfl, acted, rfl⟩ | ⟨j, o, m, s, m', rfl, there, waited, rfl⟩ :=
    Pool.Rules.step_cases stepped
  · have meanwhile := meanwhile_line_act sound undisturbed acted
    refine ⟨w, ?_, its, reconcile, meanwhile.progress sound.kept progress⟩
    obtain ⟨bound, _⟩ := List.getElem?_eq_some_iff.1 found
    rw [List.getElem?_append_left bound]
    exact found
  · obtain ⟨o', turned, ok, _⟩ := Worker.wait_cases waited
    by_cases own : j = i
    · subst own
      have came : o = .came .ok := by simpa [Undisturbed] using undisturbed.2
      rw [ok came] at turned
      rw [found] at there
      cases there
      obtain ⟨its', reconcile', progress'⟩ := progress_turn sound.formed its reconcile progress turned
      exact ⟨m', found_set found s m', its', reconcile', progress'⟩
    · have other : m.refreshing dongle = false := by
        have others := undisturbed.2
        simp only [own, if_false] at others
        exact others m there
      have meanwhile := meanwhile_turn (sound.carried m (List.mem_of_getElem? there)) other turned
      refine ⟨w, ?_, its, reconcile, meanwhile.progress sound.kept progress⟩
      rw [List.getElem?_set_ne own]
      exact found

theorem Sound.agreement {dongle : Text} {p : Pool Line Worker} (sound : Sound dongle p)
    (progress : Progress dongle p.shared.params .returned) : Agreement dongle p.shared.params := by
  obtain ⟨none, shown⟩ := progress
  refine ⟨?_, ?_, shown⟩
  · rintro r member rfl
    have found : p.shared.params.device_params.get? (r.dongle_id, r.key) = some r :=
      Table.get?_eq_some.2 ⟨member, rfl⟩
    rcases sound.formed.marks _ r found with free | marked
    · exact free
    · exact absurd (none r.key r found marked) List.not_mem_nil
  · intro key value edited
    have reached : p.shared.params.devices dongle key = some value := by
      obtain ⟨row, found, ⟨pending, _⟩ | ⟨_, reached⟩⟩ := sound.kept.settled dongle key value edited
      · exact absurd (none key row found pending) List.not_mem_nil
      · exact reached
    refine ⟨reached, ?_⟩
    obtain ⟨⟨sp, listed, rfl⟩, unbroken⟩ := unbroken_of_writable (sound.kept.writable dongle key value edited)
    rw [shown sp listed, content, reached, Option.getD_some, unbroken.chomp]

/-- **A reconcile settles.**  Started after any history of uncontested edits, time-outs among
them, and undisturbed, a reconcile can always come to its end, and there cache and device are in
agreement: whatever flushes are still under way, and whatever writes come through late. -/
theorem reconcile_settles (t : ParamTable) (devices : Text → Files) (dongle : Text)
    (marks : ∀ r ∈ t.rows, r.pending = 0 ∨ r.pending = 1)
    (single : ∀ sp ∈ SPECS, OneLine (content (devices dongle) sp.key))
    (p₀ : Pool Line Worker)
    (before : lineRules.system.Reach LineUncontested ⟨⟨World.boot t devices, []⟩, []⟩ p₀)
    (i : Nat) (started : p₀.tasks[i]? = some ⟨dongle, true, .select⟩)
    (p : Pool Line Worker) (reached : lineRules.system.Reach (Undisturbed i dongle) p₀ p) :
    Finishes p i ∧
      (p.tasks[i]? = some ⟨dongle, true, .returned⟩ → Agreement dongle p.shared.params) := by
  have booted : Sound dongle ⟨⟨World.boot t devices, []⟩, []⟩ := by
    refine ⟨kept_boot t devices, ⟨?_, single⟩, nofun, nofun⟩
    intro id row found
    exact marks row (Table.get?_eq_some.1 found).1
  have first : Sound dongle p₀ :=
    before.invariant booted fun _ _ _ sound uncontested stepped => sound.step uncontested stepped
  have both : Sound dongle p ∧ Reconciling i dongle p := by
    apply reached.invariant ⟨first, ⟨_, started, rfl, rfl, trivial⟩⟩
    rintro q e q' ⟨sound, reconciling⟩ undisturbed stepped
    exact ⟨sound.step undisturbed.1 stepped, reconciling_step sound reconciling undisturbed stepped⟩
  obtain ⟨sound, w, found, _, _, progress⟩ := both
  refine ⟨finishes found, ?_⟩
  intro returned
  rw [found] at returned
  cases returned
  exact sound.agreement progress

/-! ## Poles -/

/-- The first toggle of the allowlist is set to 1 while the device is reachable. -/
private def switch_on : Pool.Event LineAct Waited :=
  .act (.params (.set_param "d" "OpenpilotEnabledToggle" "1" ⟨1, "a"⟩ true))

private def connects : Pool.Event LineAct Waited := .act (.params (.on_connect "d" ⟨1, "a"⟩))

private def goes_on (i : Nat) : Pool.Event LineAct Waited := .turn i (.came .ok)

private def fresh_line : Pool Line Worker := ⟨⟨World.boot Table.empty fun _ _ => none, []⟩, []⟩

private instance (p : Pool Line Worker) (e : Pool.Event LineAct Waited) : Decidable (LineUncontested p e) :=
  match e with
  | .act (.params a) =>
      have : Decidable (∀ edit, a.edit? = some edit → ∀ e ∈ p.shared.sent, e.1 = edit.1 → e.2.1 = edit.2.1 →
          e.2.2 = edit.2.2) :=
        decidable_of_iff (∀ edit ∈ a.edit?, ∀ e ∈ p.shared.sent, e.1 = edit.1 → e.2.1 = edit.2.1 →
          e.2.2 = edit.2.2) Iff.rfl
      inferInstanceAs (Decidable (Uncontested ⟨p.shared.params, p.tasks⟩ (.act a) ∧ _))
  | .act (.device_param dongle key value) =>
      inferInstanceAs (Decidable (p.shared.params.accepted dongle key = none ∧ OneLine (value.getD [])))
  | .act (.lands _) | .act (.lost _) | .turn _ _ => .isTrue trivial

/-- A refresh that read the device before an edit stores what it read after the edit's flush:
the edit is on the device, and the cache shows the old value as settled. -/
theorem late_refresh_shows_old : ∃ p : Pool Line Worker,
    lineRules.system.Reach LineUncontested fresh_line p ∧
      p.shared.params.devices "d" "OpenpilotEnabledToggle" = some ("1" : Text) ∧
      p.shared.params.device_params.get? ("d", "OpenpilotEnabledToggle") =
        some ⟨"d", "OpenpilotEnabledToggle", "", 0⟩ := by
  have run : ((lineRules.system.guard LineUncontested).replay fresh_line
      ([connects] ++ List.replicate 3 (goes_on 0) ++ [switch_on] ++ List.replicate 4 (goes_on 1) ++
        [goes_on 0])).any (fun p =>
      p.shared.params.devices "d" "OpenpilotEnabledToggle" = some ("1" : Text) ∧
      p.shared.params.device_params.get? ("d", "OpenpilotEnabledToggle") =
        some ⟨"d", "OpenpilotEnabledToggle", "", 0⟩) = true := by
    decide +kernel
  obtain ⟨p, replayed, checked⟩ := (Option.any_eq_true _ _).1 run
  obtain ⟨device, cached⟩ := of_decide_eq_true checked
  exact ⟨p, System.reach_of_replay_guard replayed, device, cached⟩

/-- A check for `Undisturbed`: no edits, and only flushes beside the task. -/
private def left_alone (p : Pool Line Worker) (e : Pool.Event LineAct Waited) : Bool :=
  match e with
  | .act (.lands _) => true
  | .act _ => false
  | .turn j o =>
      if j = 1 then decide (o = .came .ok) else (p.tasks[j]?).all fun w => !w.refreshing "d"

private theorem undisturbed_of_left_alone (p : Pool Line Worker) (e : Pool.Event LineAct Waited)
    (alone : left_alone p e = true) : Undisturbed 1 "d" p e := by
  cases e with
  | act a =>
      cases a with
      | lands i => exact ⟨trivial, trivial⟩
      | _ => cases alone
  | turn j o =>
      refine ⟨trivial, ?_⟩
      simp only [left_alone] at alone
      by_cases own : j = 1
      · simp only [own, if_true, decide_eq_true_eq] at alone
        simp only [own, if_true, alone]
      · simp only [own, if_false] at alone ⊢
        intro w there
        rw [there] at alone
        simpa using alone

/-- A flush takes its snapshot before the device connects, and its write times out after the
reconcile's flush and comes through at the end. -/
theorem reconcile_settles_overlap : ∃ p₀ p : Pool Line Worker,
    lineRules.system.Reach (Undisturbed 1 "d") p₀ p ∧ Agreement "d" p.shared.params ∧
      p.shared.params.devices "d" "OpenpilotEnabledToggle" = some ("1" : Text) := by
  have started : ((lineRules.system.guard LineUncontested).replay fresh_line
      [switch_on, goes_on 0, connects]).any (fun p₀ =>
      decide (p₀.tasks[1]? = some ⟨"d", true, .select⟩) &&
        ((lineRules.system.guard fun p e => left_alone p e = true).replay p₀
          (List.replicate 4 (goes_on 1) ++ [.turn 0 .timed_out] ++
            List.replicate (SPECS.length + 2) (goes_on 1) ++ [.act (.lands 0)])).any
          fun p =>
            decide (p.tasks[1]? = some ⟨"d", true, .returned⟩ ∧
              p.shared.params.devices "d" "OpenpilotEnabledToggle" = some ("1" : Text))) = true := by
    decide +kernel
  obtain ⟨p₀, replayed₀, more⟩ := (Option.any_eq_true _ _).1 started
  obtain ⟨fresh, rest⟩ := (Bool.and_eq_true _ _).mp more
  obtain ⟨p, replayed, checked⟩ := (Option.any_eq_true _ _).1 rest
  obtain ⟨returned, device⟩ := of_decide_eq_true checked
  have reached := (System.reach_of_replay_guard replayed).mono undisturbed_of_left_alone
  refine ⟨p₀, p, reached, ?_, device⟩
  exact (reconcile_settles Table.empty (fun _ _ => none) "d" (fun r member => nomatch member)
    (by decide +kernel) p₀ (System.reach_of_replay_guard replayed₀) 1 (of_decide_eq_true fresh) p
    reached).2 returned

end HomeConnect.Params
