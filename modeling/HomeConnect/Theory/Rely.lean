/-
# Theory.Rely -- what a task may take for granted while others run

A program is `Assured` at a state when each operation it may still perform meets `ok`
at the state it finds, whatever the tasks in between did, as long as they kept the
relation `rely`.  So a check made by one operation can be used at a later one exactly
when `rely` keeps what it found.

In a pool whose actions keep `rely`, whose tasks start assured, and where an operation
that meets `ok` keeps `rely` itself, every task is assured at every state reached
(`Reach.assured`); in particular its next operation meets `ok`.
-/
import HomeConnect.Theory.Pool

namespace HomeConnect.Theory

set_option autoImplicit false

universe u v w x

/-- The relation others keep, and what each operation needs of the state it finds. -/
structure Rely (S : Type u) (F : Type → Type v) (O : Type w) where
  exec : ∀ {β : Type}, F β → O → S → β × S
  rely : S → S → Prop
  ok : ∀ {β : Type}, F β → S → Prop

namespace Rely

variable {S : Type u} {F : Type → Type v} {O : Type w} {α γ : Type}

structure Lawful (R : Rely S F O) : Prop where
  refl : ∀ s, R.rely s s
  trans : ∀ {a b c}, R.rely a b → R.rely b c → R.rely a c
  keeps : ∀ {β} {f : F β} {s}, R.ok f s → ∀ o, R.rely s (R.exec f o s).2

def Assured (R : Rely S F O) : Prog F α → S → Prop
  | .ret _, _ => True
  | .op f k, s => ∀ s', R.rely s s' →
      R.ok f s' ∧ ∀ o, R.Assured (k (R.exec f o s').1) (R.exec f o s').2

variable {R : Rely S F O}

/-- What others do leaves a task assured. -/
theorem Assured.mono (lawful : R.Lawful) {p : Prog F α} {s s' : S} (assured : R.Assured p s)
    (kept : R.rely s s') : R.Assured p s' := by
  cases p with
  | ret a => trivial
  | op f k => exact fun s'' kept' => assured s'' (lawful.trans kept kept')

/-- The rest of a program starts from some later state. -/
theorem Assured.bind (lawful : R.Lawful) {p : Prog F γ} {g : γ → Prog F α} {s : S}
    (first : R.Assured p s) (rest : ∀ a s', R.rely s s' → R.Assured (g a) s') :
    R.Assured (p >>= g) s := by
  induction p generalizing s with
  | ret a => exact rest a s (lawful.refl s)
  | op f k ih =>
      intro s' kept
      refine ⟨(first s' kept).1, fun o => ih _ ((first s' kept).2 o) fun a s'' kept' => ?_⟩
      exact rest a s'' (lawful.trans kept (lawful.trans (lawful.keeps (first s' kept).1 o) kept'))

/-- A program is assured of operations that need nothing of the state. -/
theorem Assured.of_uses {allowed : ∀ {β : Type}, F β → Prop}
    (free : ∀ {β : Type} (f : F β) (s : S), allowed f → R.ok f s) {p : Prog F α}
    (uses : p.Uses allowed) (s : S) : R.Assured p s := by
  induction p generalizing s with
  | ret a => trivial
  | op f k ih => exact fun s' _ => ⟨free f s' uses.1, fun o => ih _ (uses.2 _) _⟩

/-! ## Pools -/

variable {T : Type} {A : Type x}

/-- Every task is assured at every state reached. -/
theorem Reach.assured (lawful : R.Lawful)
    {act : A → S → Option (S × List (Task T F α))}
    {ok : Pool S (Task T F α) → Pool.Event A O → Prop} {s : S} {p : Pool S (Task T F α)}
    (reached : (Pool.Rules.mk act (Task.turn R.exec)).system.Reach ok ⟨s, []⟩ p)
    (acts : ∀ a s s' ts, act a s = some (s', ts) →
      R.rely s s' ∧ ∀ t ∈ ts, R.Assured t.prog s') :
    ∀ t ∈ p.tasks, R.Assured t.prog p.shared := by
  refine (Pool.Rules.Reach.owned (I := fun _ => True)
    (J := fun s (t : Task T F α) => R.Assured t.prog s) reached
    ⟨trivial, fun t member => (List.not_mem_nil member).elim⟩ ?_ ?_).2
  · intro p a s' ts _ _ _ acted
    obtain ⟨kept, started⟩ := acts a p.shared s' ts acted
    exact ⟨trivial, started, fun t _ assured => assured.mono lawful kept⟩
  · intro p i o t s' t' _ each _ found turned
    obtain ⟨β, f, k, next, rfl, rfl⟩ := Task.turn_cases turned
    have assured := each t (List.mem_of_getElem? found)
    rw [next] at assured
    obtain ⟨met, after⟩ := assured p.shared (lawful.refl _)
    exact ⟨trivial, after o, fun u _ other => other.mono lawful (lawful.keeps met o)⟩

end Rely

end HomeConnect.Theory
