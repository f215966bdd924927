/-
# Theory.Answered -- programs whose operations are answered from outside

An operation's effect may depend on an outcome that the program does not choose.
`Prog.Ends` says that a program, with nothing else moving the state, may run to its end
with a value and a state when every outcome is one that `ok` admits for the operation.

A program that can be answered in only one way ends as `run` says (`Ends.eq_run`), and a
relation along every admitted operation holds along every such run (`Uses.ends`).
-/
import HomeConnect.Theory.Program

namespace HomeConnect.Theory

set_option autoImplicit false

universe u v w

namespace Prog

variable {S : Type u} {F : Type → Type v} {O : Type w} {α β : Type}

/-- The program may run to its end, returning `b` at `s'`. -/
def Ends (exec : ∀ {γ : Type}, F γ → O → S → γ × S) (ok : ∀ {γ : Type}, F γ → O → Prop) :
    Prog F α → S → α → S → Prop
  | .ret a, s, b, s' => b = a ∧ s' = s
  | .op f k, s, b, s' => ∃ o, ok f o ∧ Ends exec ok (k (exec f o s).1) (exec f o s).2 b s'

variable {exec : ∀ {γ : Type}, F γ → O → S → γ × S} {ok : ∀ {γ : Type}, F γ → O → Prop}

/-- A sequence ends when its first part does and then the rest. -/
theorem ends_bind {p : Prog F α} {g : α → Prog F β} {s s' : S} {b : β} :
    (p >>= g).Ends exec ok s b s' ↔
      ∃ a s₁, p.Ends exec ok s a s₁ ∧ (g a).Ends exec ok s₁ b s' := by
  induction p generalizing s with
  | ret a =>
      constructor
      · intro rest
        exact ⟨a, s, ⟨rfl, rfl⟩, rest⟩
      · rintro ⟨_, _, ⟨rfl, rfl⟩, rest⟩
        exact rest
  | op f k ih =>
      constructor
      · rintro ⟨o, admitted, rest⟩
        obtain ⟨a, s₁, first, rest⟩ := (ih _).1 rest
        exact ⟨a, s₁, ⟨o, admitted, first⟩, rest⟩
      · rintro ⟨a, s₁, ⟨o, admitted, first⟩, rest⟩
        exact ⟨o, admitted, (ih _).2 ⟨a, s₁, first, rest⟩⟩

/-- Some run ends as any admitted way of answering makes it. -/
theorem Ends.of_run {answer : ∀ {γ : Type}, F γ → O} (admitted : ∀ {γ : Type} (f : F γ), ok f (answer f))
    (p : Prog F α) (s : S) :
    p.Ends exec ok s (p.run (fun f s => exec f (answer f) s) s).1
      (p.run (fun f s => exec f (answer f) s) s).2 := by
  induction p generalizing s with
  | ret a => exact ⟨rfl, rfl⟩
  | op f k ih => exact ⟨answer f, admitted f, ih _ _⟩

/-- A program whose operations can be answered in only one way ends in only one way. -/
theorem Ends.eq_run {answer : ∀ {γ : Type}, F γ → O} {sure : ∀ {γ : Type}, F γ → Prop}
    (only : ∀ {γ : Type} (f : F γ) (o : O) (s : S), sure f → ok f o → exec f o s = exec f (answer f) s)
    {p : Prog F α} (uses : p.Uses sure) {s s' : S} {b : α} (ended : p.Ends exec ok s b s') :
    (b, s') = p.run (fun f s => exec f (answer f) s) s := by
  induction p generalizing s with
  | ret a =>
      obtain ⟨rfl, rfl⟩ := ended
      rfl
  | op f k ih =>
      obtain ⟨o, admitted, rest⟩ := ended
      have rest : (k (exec f o s).1).Ends exec ok (exec f o s).2 b s' := rest
      rw [only f o s uses.1 admitted] at rest
      exact ih _ (uses.2 _) rest

/-- A relation that holds along every admitted operation holds along a whole run. -/
theorem Uses.ends {allowed : ∀ {γ : Type}, F γ → Prop} {R : S → S → Prop} (refl : ∀ s, R s s)
    (trans : ∀ {a b c}, R a b → R b c → R a c)
    (steps : ∀ {γ : Type} (f : F γ) (o : O) (s : S), allowed f → ok f o → R s (exec f o s).2)
    {p : Prog F α} (uses : p.Uses allowed) {s s' : S} {b : α} (ended : p.Ends exec ok s b s') :
    R s s' := by
  induction p generalizing s with
  | ret a =>
      obtain ⟨_, rfl⟩ := ended
      exact refl _
  | op f k ih =>
      obtain ⟨o, admitted, rest⟩ := ended
      exact trans (steps f o s uses.1 admitted) (ih _ (uses.2 _) rest)

end Prog

end HomeConnect.Theory
