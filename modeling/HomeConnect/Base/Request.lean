/-
# Base.Request -- handlers as programs that may fail

`AppError` is the server's error type; `Request F` is an async function that returns
`AppResult`: a program over the operations `F` in which an error of one operation ends
the function, as `?` does.
-/
import HomeConnect.Base.Text
import HomeConnect.Theory.Program

namespace HomeConnect

open HomeConnect.Theory

set_option autoImplicit false

universe u

inductive AppError
  | Unauthorized (m : Text)
  | Forbidden (m : Text)
  | BadRequest (m : Text)
  | NotFound (m : Text)
  | Sqlx
  | Other (m : Text)
deriving DecidableEq, Repr

abbrev AppResult (α : Type) := Except AppError α

instance {α : Type} [DecidableEq α] : DecidableEq (AppResult α)
  | .ok a, .ok b => decidable_of_iff (a = b) ⟨fun h => h ▸ rfl, fun h => Except.ok.inj h⟩
  | .error a, .error b => decidable_of_iff (a = b) ⟨fun h => h ▸ rfl, fun h => Except.error.inj h⟩
  | .ok _, .error _ => .isFalse fun h => by cases h
  | .error _, .ok _ => .isFalse fun h => by cases h

/-- An async function of the server. -/
abbrev Request (F : Type → Type u) (α : Type) := ExceptT AppError (Prog F) α

namespace Request

variable {F : Type → Type u} {α β : Type}

/-- Perform one operation; its error is the function's. -/
def perform (f : F (AppResult α)) : Request F α := ExceptT.mk (Prog.perform f)

/-- Perform one operation and discard its error (`let _ =`). -/
def attempt (f : F (AppResult α)) : Request F Unit := ExceptT.mk (.op f fun _ => .ret (.ok ()))

@[simp] theorem run_perform_bind (f : F (AppResult α)) (g : α → Request F β) :
    (perform f >>= g).run = .op f fun
      | .ok a => (g a).run
      | .error e => .ret (.error e) := by
  change Prog.op f _ = _
  congr 1
  funext r
  cases r <;> rfl

@[simp] theorem run_attempt_bind (f : F (AppResult α)) (g : Unit → Request F β) :
    (attempt f >>= g).run = .op f fun _ => (g ()).run := rfl

@[simp] theorem run_perform (f : F (AppResult α)) : (perform f).run = .op f .ret := rfl

@[simp] theorem run_attempt (f : F (AppResult α)) :
    (attempt f).run = .op f fun _ => .ret (.ok ()) := rfl

@[simp] theorem run_pure (a : α) : (pure a : Request F α).run = .ret (.ok a) := rfl

@[simp] theorem run_throw (e : AppError) : (throw e : Request F α).run = .ret (.error e) := rfl

@[simp] theorem throw_bind (e : AppError) (g : α → Request F β) :
    ((throw e : Request F α) >>= g) = throw e := rfl

/-- `if c { return Err(e) }`. -/
def err_if (c : Prop) [Decidable c] (e : AppError) : Request F Unit :=
  if c then throw e else pure ()

/-- A result already computed. -/
def of_result (r : AppResult α) : Request F α := ExceptT.mk (.ret r)

/-- `map_err`: run a function, its error replaced. -/
def map_err (p : Request F α) (e : AppError) : Request F α :=
  ExceptT.mk (p.run >>= fun r => .ret (r.mapError fun _ => e))

/-- `match f().await`: run a function and keep its error as a value. -/
def capture (p : Request F α) : Request F (AppResult α) :=
  ExceptT.mk (p.run >>= fun r => .ret (.ok r))

/-- `unwrap_or`: run a function, an error replaced by a default. -/
def unwrap_or (p : Request F α) (d : α) : Request F α :=
  ExceptT.mk (p.run >>= fun r => .ret (.ok (r.toOption.getD d)))

/-- `let _ =`: run a function and discard its result, errors included. -/
def ignore (p : Request F α) : Request F Unit := ExceptT.mk (p.run >>= fun _ => .ret (.ok ()))

@[simp] theorem run_ignore (p : Request F α) : (ignore p).run = p.run >>= fun _ => .ret (.ok ()) :=
  rfl

@[simp] theorem run_of_result (r : AppResult α) : (of_result r : Request F α).run = .ret r := rfl

@[simp] theorem run_map_err (p : Request F α) (e : AppError) :
    (map_err p e).run = p.run >>= fun r => .ret (r.mapError fun _ => e) := rfl

@[simp] theorem run_capture (p : Request F α) :
    (capture p).run = p.run >>= fun r => .ret (.ok r) := rfl

@[simp] theorem run_unwrap_or (p : Request F α) (d : α) :
    (unwrap_or p d).run = p.run >>= fun r => .ret (.ok (r.toOption.getD d)) := rfl

/-- A function ends with the first part's error, or goes on with its value. -/
theorem run_bind (p : Request F α) (g : α → Request F β) :
    (p >>= g).run = p.run >>= fun
      | .ok a => (g a).run
      | .error e => .ret (.error e) := by
  change Prog.bind _ _ = Prog.bind _ _
  congr 1
  funext r
  cases r <;> rfl

/-- Keeping an error as a value and returning it again is no change. -/
theorem capture_bind_of_result (p : Request F α) : (capture p >>= of_result) = p := by
  change (capture p >>= of_result).run = p.run
  rw [run_bind, run_capture, Prog.bind_assoc]
  exact Prog.bind_ret p.run

/-- The operations of a sequence are those of its parts. -/
theorem Uses.bind {allowed : ∀ {γ : Type}, F γ → Prop} {p : Request F α} {g : α → Request F β}
    (first : p.run.Uses allowed) (rest : ∀ a, (g a).run.Uses allowed) :
    (p >>= g).run.Uses allowed := by
  rw [run_bind]
  refine Prog.Uses.bind first fun r => ?_
  cases r with
  | ok a => exact rest a
  | error e => trivial

section Uses

variable {allowed : ∀ {γ : Type}, F γ → Prop} {p : Request F α}

theorem Uses.perform {f : F (AppResult α)} (ok : allowed f) : (perform f).run.Uses allowed :=
  ⟨ok, fun _ => trivial⟩

theorem Uses.attempt {f : F (AppResult α)} (ok : allowed f) : (attempt f).run.Uses allowed :=
  ⟨ok, fun _ => trivial⟩

theorem Uses.ignore (uses : p.run.Uses allowed) : (ignore p).run.Uses allowed :=
  Prog.Uses.bind uses fun _ => trivial

theorem Uses.capture (uses : p.run.Uses allowed) : (capture p).run.Uses allowed :=
  Prog.Uses.bind uses fun _ => trivial

theorem Uses.map_err (uses : p.run.Uses allowed) (e : AppError) :
    (map_err p e).run.Uses allowed :=
  Prog.Uses.bind uses fun _ => trivial

theorem Uses.unwrap_or (uses : p.run.Uses allowed) (d : α) :
    (unwrap_or p d).run.Uses allowed :=
  Prog.Uses.bind uses fun _ => trivial

end Uses

theorem Uses.forM {allowed : ∀ {γ : Type}, F γ → Prop} {xs : List α} {g : α → Request F PUnit}
    (each : ∀ x ∈ xs, (g x).run.Uses allowed) : (xs.forM g).run.Uses allowed := by
  induction xs with
  | nil => trivial
  | cons x xs ih =>
      change (g x >>= fun _ => xs.forM g).run.Uses allowed
      exact Uses.bind (each x List.mem_cons_self) fun _ =>
        ih fun y member => each y (List.mem_cons_of_mem _ member)

end Request

end HomeConnect
