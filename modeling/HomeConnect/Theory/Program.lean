/-
# Theory.Program -- sequential programs over atomic operations

`Prog F α` is a program whose steps are operations of the signature `F`: it either
returns, or performs one operation and continues with its reply.  A handler gives
the operations their effect on a state.  The same program then runs

* to completion (`run`), and
* one operation at a time, interleaved with others (`Theory.Pool`).

`Prog.Uses` is a property of every operation a program may still perform, whatever
the replies.
-/
import Mathlib.Logic.Basic

namespace HomeConnect.Theory

set_option autoImplicit false

universe u v

/-- A program over the operations `F`. -/
inductive Prog (F : Type → Type v) (α : Type) : Type (max 1 v)
  | ret (a : α)
  | op {β : Type} (f : F β) (k : β → Prog F α)

namespace Prog

variable {F : Type → Type v} {α β γ : Type}

def bind : Prog F α → (α → Prog F β) → Prog F β
  | .ret a, g => g a
  | .op f k, g => .op f fun b => (k b).bind g

/-- The program that performs one operation and returns its reply. -/
def perform (f : F α) : Prog F α := .op f .ret

instance : Monad (Prog F) where
  pure := .ret
  bind := bind

@[simp] theorem pure_eq (a : α) : (pure a : Prog F α) = .ret a := rfl
@[simp] theorem ret_bind (a : α) (g : α → Prog F β) : (Prog.ret a >>= g) = g a := rfl
@[simp] theorem op_bind {δ : Type} (f : F δ) (k : δ → Prog F α) (g : α → Prog F β) :
    (Prog.op f k >>= g) = .op f fun b => k b >>= g := rfl
@[simp] theorem perform_bind (f : F α) (g : α → Prog F β) : (perform f >>= g) = .op f g := rfl

theorem bind_ret (p : Prog F α) : p >>= Prog.ret = p := by
  induction p with
  | ret a => rfl
  | op f k ih => rw [op_bind]; congr 1; funext b; exact ih b

theorem bind_assoc (p : Prog F α) (g : α → Prog F β) (h : β → Prog F γ) :
    p >>= g >>= h = p >>= fun a => g a >>= h := by
  induction p with
  | ret a => rfl
  | op f k ih => simp only [op_bind]; congr 1; funext b; exact ih b

instance : LawfulMonad (Prog F) :=
  LawfulMonad.mk' (Prog F) (fun p => bind_ret p) (fun _ _ => rfl) bind_assoc

/-- The program has returned. -/
def done : Prog F α → Bool
  | .ret _ => true
  | .op _ _ => false

/-- The value a finished program returned. -/
def result? : Prog F α → Option α
  | .ret a => some a
  | .op _ _ => none

/-! ## Running to completion -/

section Run

variable {S : Type u} (exec : ∀ {β : Type}, F β → S → β × S)

/-- Run a program to completion, nothing else moving the state. -/
def run : Prog F α → S → α × S
  | .ret a, s => (a, s)
  | .op f k, s => (k (exec f s).1).run (exec f s).2

@[simp] theorem run_ret (a : α) (s : S) : (Prog.ret a : Prog F α).run exec s = (a, s) := rfl
@[simp] theorem run_op {δ : Type} (f : F δ) (k : δ → Prog F α) (s : S) :
    (Prog.op f k).run exec s = (k (exec f s).1).run exec (exec f s).2 := rfl

theorem run_bind (p : Prog F α) (g : α → Prog F β) (s : S) :
    (p >>= g).run exec s = (g (p.run exec s).1).run exec (p.run exec s).2 := by
  induction p generalizing s with
  | ret a => rfl
  | op f k ih => simp only [op_bind, run_op, ih]

end Run

/-! ## Properties of the operations a program may perform -/

/-- Every operation the program may still perform, whatever the replies, is allowed. -/
def Uses (allowed : ∀ {β : Type}, F β → Prop) : Prog F α → Prop
  | .ret _ => True
  | .op f k => allowed f ∧ ∀ b, (k b).Uses allowed

variable {allowed : ∀ {β : Type}, F β → Prop}

@[simp] theorem uses_ret (a : α) : (Prog.ret a : Prog F α).Uses allowed := trivial

theorem Uses.bind {p : Prog F α} {g : α → Prog F β} (first : p.Uses allowed)
    (rest : ∀ a, (g a).Uses allowed) : (p >>= g).Uses allowed := by
  induction p with
  | ret a => exact rest a
  | op f k ih => exact ⟨first.1, fun b => ih b (first.2 b)⟩

theorem Uses.mono {allowed' : ∀ {β : Type}, F β → Prop} {p : Prog F α} (uses : p.Uses allowed)
    (weaker : ∀ {β : Type} (f : F β), allowed f → allowed' f) : p.Uses allowed' := by
  induction p with
  | ret a => trivial
  | op f k ih => exact ⟨weaker f uses.1, fun b => ih b (uses.2 b)⟩

/-- A relation that holds along every allowed operation holds along a whole run. -/
theorem Uses.run {S : Type u} {exec : ∀ {β : Type}, F β → S → β × S} {R : S → S → Prop}
    (refl : ∀ s, R s s) (trans : ∀ {a b c}, R a b → R b c → R a c)
    (steps : ∀ {β : Type} (f : F β) (s : S), allowed f → R s (exec f s).2)
    {p : Prog F α} (uses : p.Uses allowed) (s : S) : R s (p.run exec s).2 := by
  induction p generalizing s with
  | ret a => exact refl s
  | op f k ih => exact trans (steps f s uses.1) (ih _ (uses.2 _) _)

end Prog

end HomeConnect.Theory
