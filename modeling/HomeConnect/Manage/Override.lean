/-
# Manage.Override -- which types a drive syncs

A drive's row may hold an explicit list of the types it syncs; without one the global
default holds.  A list is written with only the types there is a choice about
(`clean_types`) and read back whole (`split_types_join`).
-/
import HomeConnect.Media.Access
import HomeConnect.Sync.Footprint
import HomeConnect.Sync.Known

namespace HomeConnect.Manage

open HomeConnect.Theory HomeConnect.Storage HomeConnect.Drives HomeConnect.Media HomeConnect.Sync

set_option autoImplicit false

/-! ## devsync -/

/-- Normalise a requested type list to the known optional types. -/
def clean_types (types : List Text) : List Text := OPTIONAL_TYPES.filter fun t => decide (t ∈ types)

/-- A route's per-drive override; `none` inherits the global default.  An error reads as
`none` too. -/
def get_route_override (name : Text) : Request Op (Option (List Text)) :=
  Request.unwrap_or
    (select fun w => (((w.db.routes.get? name).map Route.sync_types).join).map split_types) none

/-- The effective synced types for a route: its override, else the global default. -/
def effective_route_types (env : Env) (name : Text) : Request Op (List Text) := do
  match ← get_route_override name with
  | some types => pure types
  | none => get_sync_types env

/-- The value of the column for a list of types. -/
def joined_types (types : List Text) : Text := Text.join "," (clean_types types)

/-- Set (`some`) or clear (`none`) a route's type override. -/
def set_route_override (name : Text) (types : Option (List Text)) : Request Op Unit :=
  execute (.set_sync_types name (types.map joined_types))

/-! ## api::devsync -/

structure RouteSyncReq where
  types : Option (List Text) := none
  reset : Option Bool := none
deriving DecidableEq, Repr

/-- Set or clear, as the request asks. -/
def apply_route_sync (name : Text) (req : RouteSyncReq) : Request Op Unit :=
  if req.reset.getD false then set_route_override name none
  else
    match req.types with
    | some types => set_route_override name (some types)
    | none => pure ()

/-- POST /v1/route/:fullname/sync: the types in effect, and whether they are an override. -/
def set_route_sync (env : Env) (user : Accounts.User) (name : Text) (req : RouteSyncReq) :
    Request Op (List Text × Bool) := do
  let (dongle, _) ← Request.of_result (split_fullname name)
  let _ ← can_manage_device user dongle
  apply_route_sync name req
  let above ← get_route_override name
  let default ← get_sync_types env
  pure (above.getD default, above.isSome)

/-! ## What they write -/

section Writes

variable {allowed : Write → Prop} (env : Env)

theorem writes_can_manage_device (user : Accounts.User) (dongle : Text) :
    Writes allowed (can_manage_device user dongle) := by
  refine .bind (.select _) fun found => ?_
  cases found with
  | none => exact .throw _
  | some device =>
      refine .bind ?_ fun _ => .bind (.err_if _ _) fun _ => .pure _
      rw [can_manage_loaded]
      split
      · exact .pure _
      · exact .select _

theorem writes_get_sync_types : Writes allowed (get_sync_types env) :=
  .bind (.unwrap_or (.select _) _) fun _ => .pure _

theorem writes_get_route_override (name : Text) : Writes allowed (get_route_override name) :=
  .unwrap_or (.select _) _

theorem writes_effective_route_types (name : Text) :
    Writes allowed (effective_route_types env name) := by
  refine .bind (writes_get_route_override name) fun above => ?_
  cases above with
  | some types => exact .pure _
  | none => exact writes_get_sync_types env

/-- A request sets the types of one route. -/
theorem writes_set_route_sync (user : Accounts.User) (name : Text) (req : RouteSyncReq) :
    Writes (fun s => ∃ types, s = .set_sync_types name types) (set_route_sync env user name req) := by
  refine .bind (.of_result _) fun _ => .bind (writes_can_manage_device user _) fun _ => ?_
  refine .bind ?_ fun _ => .bind (writes_get_route_override name) fun _ => ?_
  · rw [apply_route_sync]
    split
    · exact .execute ⟨_, rfl⟩
    · split
      · exact .execute ⟨_, rfl⟩
      · exact .pure ()
  · exact .bind (writes_get_sync_types env) fun _ => .pure _

end Writes

/-! ## Writing a list and reading it back -/

/-- A list of types without the separator in them is read back as it was written. -/
theorem split_types_join {types : List Text} (clean : ∀ t ∈ types, t ≠ [] ∧ ',' ∉ t) :
    split_types (Text.join "," types) = types := by
  induction types with
  | nil => rfl
  | cons t rest ih =>
      obtain ⟨some, plain⟩ := clean t List.mem_cons_self
      have rest' := ih fun u member => clean u (List.mem_cons_of_mem _ member)
      cases rest with
      | nil =>
          rw [Text.join, split_types, Text.split_of_not_mem plain]
          simp [some]
      | cons u more =>
          have first : split_types (t ++ ',' :: Text.join "," (u :: more)) =
              t :: split_types (Text.join "," (u :: more)) := by
            rw [split_types, Text.split_append plain]
            simp [some, split_types]
          rw [rest'] at first
          rw [Text.join, List.append_assoc]
          · exact first
          · exact List.cons_ne_nil _ _

theorem mem_clean_types {types : List Text} {t : Text} :
    t ∈ clean_types types ↔ t ∈ OPTIONAL_TYPES ∧ t ∈ types := by
  rw [clean_types, List.mem_filter, decide_eq_true_eq]

/-- The override that was set is the known types of the request. -/
theorem split_joined_types (types : List Text) :
    split_types (joined_types types) = clean_types types := by
  have plain : ∀ t ∈ OPTIONAL_TYPES, t ≠ [] ∧ ',' ∉ t := by decide
  exact split_types_join fun t member => plain t (mem_clean_types.1 member).1

end HomeConnect.Manage
