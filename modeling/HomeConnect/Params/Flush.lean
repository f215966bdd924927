/-
# Params.Flush -- the param cache and the workers that reconcile it with the device

The cache is the `device_params` table; an edit (`set_param`) writes it and marks the
row pending, a `flush` writes pending rows to the device and clears the mark, and a
`reconcile` is a flush followed by a `refresh` of the cache from the device.  Edits
and reconnects start any number of these workers, so the model is a pool of them over
one `World`, each taking one SQL statement or one SSH command at a time.

`World.accepted` is history: no code reads it.
-/
import HomeConnect.Params.Allowlist
import HomeConnect.Theory.Pool
import HomeConnect.Theory.Table

namespace HomeConnect.Params

open HomeConnect.Theory

set_option autoImplicit false

structure ParamRow where
  dongle_id : Text
  key : Text
  value : Text
  pending : Int
deriving DecidableEq, Repr

abbrev ParamRow.id (r : ParamRow) : Text × Text := (r.dongle_id, r.key)

abbrev ParamTable := Table ParamRow ParamRow.id

/-! ## The statements on the cache -/

/-- Set a cached value, marking it pending. -/
def cache_set (dongle key value : Text) (t : ParamTable) : ParamTable :=
  t.upsert ⟨dongle, key, value, 1⟩ (fun r => { r with value, pending := 1 }) fun _ => rfl

/-- The `SELECT` at the head of `flush`. -/
def pending_rows (dongle : Text) (t : ParamTable) : List (Text × Text) :=
  (t.rows.filter fun r => decide (r.dongle_id = dongle ∧ r.pending = 1)).map
    fun r => (r.key, r.value)

def clear_pending (dongle key : Text) (t : ParamTable) : ParamTable :=
  t.update (fun r => decide (r.dongle_id = dongle ∧ r.key = key))
    (fun r => { r with pending := 0 }) fun _ => rfl

/-- One upsert of `refresh`: the device's value, unless an edit is pending. -/
def refresh_row (dongle key value : Text) (t : ParamTable) : ParamTable :=
  t.upsert ⟨dongle, key, value, 0⟩ (fun r => if r.pending = 0 then { r with value } else r)
    fun r => by split <;> rfl

def cache_count (dongle : Text) (t : ParamTable) : Nat :=
  (t.rows.filter fun r => decide (r.dongle_id = dongle)).length

def cache_empty (dongle : Text) (t : ParamTable) : Bool := cache_count dongle t = 0

theorem get?_cache_set (dongle key value : Text) (t : ParamTable) (id : Text × Text) :
    (cache_set dongle key value t).get? id =
      if id = (dongle, key) then some ⟨dongle, key, value, 1⟩ else t.get? id := by
  rw [cache_set, Table.get?_upsert]
  change (if id = (dongle, key) then _ else _) = _
  split
  · rename_i here
    subst here
    cases found : t.get? (dongle, key) with
    | none => rfl
    | some row =>
        have same := Table.key_of_get? found
        simp only [ParamRow.id, Prod.mk.injEq] at same
        simp [← same.1, ← same.2]
  · rfl

theorem get?_clear_pending (dongle key : Text) (t : ParamTable) (id : Text × Text) :
    (clear_pending dongle key t).get? id =
      (t.get? id).map fun r => if id = (dongle, key) then { r with pending := 0 } else r := by
  rw [clear_pending, Table.get?_update]
  cases found : t.get? id with
  | none => rfl
  | some row =>
      have same := Table.key_of_get? found
      subst same
      simp [ParamRow.id]

theorem get?_refresh_row (dongle key value : Text) (t : ParamTable) (id : Text × Text) :
    (refresh_row dongle key value t).get? id =
      if id = (dongle, key) then
        some (((t.get? id).map fun r => if r.pending = 0 then { r with value } else r).getD
          ⟨dongle, key, value, 0⟩)
      else t.get? id :=
  Table.get?_upsert ..

theorem mem_pending_rows {dongle key value : Text} {t : ParamTable} :
    (key, value) ∈ pending_rows dongle t ↔
      ∃ row, t.get? (dongle, key) = some row ∧ row.pending = 1 ∧ row.value = value := by
  simp only [pending_rows, List.mem_map, List.mem_filter, decide_eq_true_eq, Prod.mk.injEq]
  constructor
  · rintro ⟨row, ⟨member, rfl, pending⟩, rfl, rfl⟩
    exact ⟨row, Table.get?_eq_some.2 ⟨member, rfl⟩, pending, rfl⟩
  · rintro ⟨row, found, pending, rfl⟩
    obtain ⟨member, same⟩ := Table.get?_eq_some.1 found
    simp only [ParamRow.id, Prod.mk.injEq] at same
    exact ⟨row, ⟨member, same.1, pending⟩, same.2, rfl⟩

/-! ## Workers -/

structure World where
  device_params : ParamTable
  /-- The params directory of each dongle's device. -/
  devices : Text → Files
  /-- The value of the latest accepted edit of a dongle's key. -/
  accepted : Text → Text → Option Text

/-- What a statement or an SSH command comes to.  A `late` SSH command has taken
effect but reports failure (the last command of the line failing). -/
inductive Outcome
  | ok
  | failed
  | late
deriving DecidableEq, Repr

/-- Where a worker is, by the statement or command it runs next. -/
inductive Stage
  | select
  | pend (pairs : List (Text × Text)) (n : Nat)                  -- top of the loop of `flush`
  | clear (k v : Text) (rest : List (Text × Text)) (n : Nat)     -- after a successful `write`
  | read_all
  | store (pairs : List (Text × Text))                           -- top of the loop of `refresh`
  | returned
deriving DecidableEq, Repr

structure Worker where
  dongle : Text
  /-- `reconcile`: a refresh follows the flush. -/
  reconcile : Bool
  stage : Stage
deriving DecidableEq, Repr

/-- Where a worker goes when its flush returns, with a result nobody uses. -/
def Worker.flushed (w : Worker) : Worker :=
  { w with stage := if w.reconcile then .read_all else .returned }

/-- The device after a `write` of `key` that took effect. -/
def World.write (s : World) (dongle key value : Text) : World :=
  { s with
    devices := fun d k => if d = dongle ∧ k = key then some value else s.devices d k }

/-- One statement or command of a worker. -/
def Worker.turn (w : Worker) (o : Outcome) (s : World) : Option (World × Worker) :=
  match w.stage with
  | .select =>
      match o with
      | .ok => some (s, { w with stage := .pend (pending_rows w.dongle s.device_params) 0 })
      | _ => some (s, w.flushed)
  | .pend [] _ => some (s, w.flushed)
  | .pend ((k, v) :: rest) n =>
      if is_writable k v then
        match o with
        | .ok => some (s.write w.dongle k v, { w with stage := .clear k v rest n })
        | .failed => some (s, { w with stage := .pend rest n })
        | .late => some (s.write w.dongle k v, { w with stage := .pend rest n })
      else
        -- Stale/invalid: drop the pending flag so it does not get stuck; the error is ignored.
        let cleared := match o with
          | .ok => { s with device_params := clear_pending w.dongle k s.device_params }
          | _ => s
        some (cleared, { w with stage := .pend rest n })
  | .clear k _ rest n =>
      match o with
      | .ok =>
          some ({ s with device_params := clear_pending w.dongle k s.device_params },
            { w with stage := .pend rest (n + 1) })
      | _ => some (s, w.flushed)
  | .read_all =>
      match o with
      | .ok => some (s, { w with stage := .store (Params.read_all (dump (s.devices w.dongle))) })
      | _ => some (s, { w with stage := .returned })
  | .store [] => some (s, { w with stage := .returned })
  | .store ((k, v) :: rest) =>
      match o with
      | .ok =>
          some ({ s with device_params := refresh_row w.dongle k v s.device_params },
            { w with stage := .store rest })
      | _ => some (s, { w with stage := .returned })
  | .returned => none

/-- The device row a request has loaded. -/
structure Seen where
  online : Int
  last_addr : Text
deriving DecidableEq, Repr

def Seen.reachable (d : Seen) : Bool := d.online = 1 && d.last_addr ≠ []

inductive Action
  | set_param (dongle key value : Text) (device : Seen) (stored : Bool)
  | on_connect (dongle : Text) (device : Seen)
  | get_params (dongle : Text) (device : Seen)
deriving DecidableEq, Repr

/-- The edit an action makes: a valid value whose `cache_set` succeeded. -/
def Action.edit? : Action → Option (Text × Text × Text)
  | .set_param dongle key value _ stored =>
      if is_writable key value && stored then some (dongle, key, value) else none
  | _ => none

def act (a : Action) (s : World) : Option (World × List Worker) :=
  match a with
  | .set_param dongle key value device _ =>
      if a.edit? = none then some (s, [])   -- the error goes to the caller
      else
        some
          ({ s with
            device_params := cache_set dongle key value s.device_params
            accepted := fun d k =>
              if d = dongle ∧ k = key then some value else s.accepted d k },
          if device.reachable then [⟨dongle, false, .select⟩] else [])
  | .on_connect dongle device =>
      some (s, if device.last_addr = [] then [] else [⟨dongle, true, .select⟩])
  | .get_params dongle device =>
      -- One-time bootstrap: if we have never cached this device, read it now.
      some (s, if device.reachable && cache_empty dongle s.device_params
        then [⟨dongle, false, .read_all⟩] else [])

def rules : Pool.Rules World Worker Action Outcome := ⟨act, Worker.turn⟩

/-- A server start: the edits still pending were accepted before it. -/
def World.boot (t : ParamTable) (devices : Text → Files) : World where
  device_params := t
  devices := devices
  accepted := fun d k =>
    ((t.get? (d, k)).filter fun r => decide (r.pending = 1) && is_writable k r.value).map
      ParamRow.value

end HomeConnect.Params
