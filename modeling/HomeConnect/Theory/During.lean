/-
# Theory.During -- what a program does while an invariant holds

`Prog.Uses` bounds the operations of a program whatever it is answered.  Where a program
goes on according to what it reads, that is too much to ask: `Prog.During I allowed` bounds
them only for the answers that states which meet `I` can give.

In a pool where every task is started so bounded, and where the allowed operations keep
`I` at the steps a run may take, `I` holds at every state reached and every task stays
bounded (`Pool.Rules.Reach.during`).

A task that was under way before `I` came about may have been answered anything.
`Prog.Throughout P` says that `P` holds of a program and of whatever is left of it after
any answers, so at any point of a run (`Pool.Rules.Reach.throughout`).

A program that `Leads` to a goal performs quiet operations until it has come to it,
whatever it is answered.
-/
import HomeConnect.Theory.Pool

namespace HomeConnect.Theory

set_option autoImplicit false

universe u v w x

namespace Prog

variable {S : Type u} {F : Type → Type v} {O : Type w} {α γ : Type}

/-- Every operation the program may still perform is allowed, when each is performed at a
state that meets `I`. -/
def During (exec : ∀ {β : Type}, F β → O → S → β × S) (I : S → Prop)
    (allowed : ∀ {β : Type}, F β → Prop) : Prog F α → Prop
  | .ret _ => True
  | .op f k => allowed f ∧ ∀ o s, I s → During exec I allowed (k (exec f o s).1)

/-- The property holds of the program, and of what is left of it after any answers. -/
def Throughout (P : Prog F α → Prop) : Prog F α → Prop
  | .ret a => P (.ret a)
  | .op f k => P (.op f k) ∧ ∀ b, Throughout P (k b)

section During

variable {exec : ∀ {β : Type}, F β → O → S → β × S} {I : S → Prop}
  {allowed : ∀ {β : Type}, F β → Prop}

theorem Uses.during {p : Prog F α} (uses : p.Uses allowed) : p.During exec I allowed := by
  induction p with
  | ret a => trivial
  | op f k ih => exact ⟨uses.1, fun o s _ => ih _ (uses.2 _)⟩

theorem During.bind {p : Prog F γ} {g : γ → Prog F α} (first : p.During exec I allowed)
    (rest : ∀ a, (g a).During exec I allowed) : (p >>= g).During exec I allowed := by
  induction p with
  | ret a => exact rest a
  | op f k ih => exact ⟨first.1, fun o s inv => ih _ (first.2 o s inv)⟩

end During

theorem Uses.and {first second : ∀ {β : Type}, F β → Prop} {p : Prog F α} (one : p.Uses first)
    (two : p.Uses second) : p.Uses fun f => first f ∧ second f := by
  induction p with
  | ret a => trivial
  | op f k ih => exact ⟨⟨one.1, two.1⟩, fun b => ih b (one.2 b) (two.2 b)⟩

theorem Throughout.here {P : Prog F α → Prop} {p : Prog F α} (all : p.Throughout P) : P p := by
  cases p with
  | ret a => exact all
  | op f k => exact all.1

theorem Throughout.of_all {P : Prog F α → Prop} (all : ∀ q, P q) (p : Prog F α) :
    p.Throughout P := by
  induction p with
  | ret a => exact all _
  | op f k ih => exact ⟨all _, ih⟩

/-- What is left of a program with bounded operations has bounded operations. -/
theorem Uses.throughout {allowed : ∀ {β : Type}, F β → Prop} {p : Prog F α}
    (uses : p.Uses allowed) : p.Throughout fun q => q.Uses allowed := by
  induction p with
  | ret a => trivial
  | op f k ih => exact ⟨uses, fun b => ih b (uses.2 b)⟩

theorem Throughout.mono {P Q : Prog F α → Prop} {p : Prog F α} (all : p.Throughout P)
    (weaker : ∀ q, P q → Q q) : p.Throughout Q := by
  induction p with
  | ret a => exact weaker _ all
  | op f k ih => exact ⟨weaker _ all.1, fun b => ih b (all.2 b)⟩

/-- Whatever it is answered, the program performs quiet operations until it meets `goal`. -/
def Leads (quiet : ∀ {β : Type}, F β → Prop) (goal : Prog F α → Prop) : Prog F α → Prop
  | .ret a => goal (.ret a)
  | .op f k => goal (.op f k) ∨ quiet f ∧ ∀ b, Leads quiet goal (k b)

section Leads

variable {quiet : ∀ {β : Type}, F β → Prop} {goal : Prog F α → Prop}

theorem Leads.here {p : Prog F α} (met : goal p) : p.Leads quiet goal := by
  cases p with
  | ret a => exact met
  | op f k => exact .inl met

theorem Leads.bind {p : Prog F γ} {g : γ → Prog F α} (first : p.Uses quiet)
    (rest : ∀ a, (g a).Leads quiet goal) : (p >>= g).Leads quiet goal := by
  induction p with
  | ret a => exact rest a
  | op f k ih => exact .inr ⟨first.1, fun b => ih b (first.2 b)⟩

end Leads

end Prog

namespace Pool.Rules

variable {S : Type u} {F : Type → Type v} {O : Type w} {A : Type x} {T α : Type}
  {exec : ∀ {β : Type}, F β → O → S → β × S} {act : A → S → Option (S × List (Task T F α))}
  {ok : Pool S (Task T F α) → Pool.Event A O → Prop} {p₀ p : Pool S (Task T F α)}

/-- **Tasks bounded while an invariant holds.** -/
theorem Reach.during {I : S → Prop} {allowed : T → ∀ {β : Type}, F β → Prop}
    (reached : (Pool.Rules.mk act (Task.turn exec)).system.Reach ok p₀ p)
    (init : I p₀.shared)
    (bounded : ∀ t ∈ p₀.tasks, t.prog.During exec I (allowed t.tag))
    (acts : ∀ p a s ts, I p.shared → ok p (.act a) → act a p.shared = some (s, ts) →
      I s ∧ ∀ t ∈ ts, t.prog.During exec I (allowed t.tag))
    (ops : ∀ (p : Pool S (Task T F α)) (i : Nat) (o : O) (t : Task T F α) (β : Type) (f : F β)
      (k : β → Prog F α), I p.shared → ok p (.turn i o) → p.tasks[i]? = some t →
      t.prog = .op f k → allowed t.tag f → I (exec f o p.shared).2) :
    I p.shared ∧ ∀ t ∈ p.tasks, t.prog.During exec I (allowed t.tag) := by
  refine Reach.owned (J := fun _ (t : Task T F α) => t.prog.During exec I (allowed t.tag)) reached
    ⟨init, bounded⟩ ?_ ?_
  · intro p a s ts inv _ admitted acted
    obtain ⟨inv', started⟩ := acts p a s ts inv admitted acted
    exact ⟨inv', started, fun t _ other => other⟩
  · intro p i o t s' t' inv each admitted found turned
    obtain ⟨β, f, k, next, rfl, rfl⟩ := Task.turn_cases turned
    have own := each t (List.mem_of_getElem? found)
    rw [next] at own
    exact ⟨ops p i o t β f k inv admitted found next own.1, own.2 o _ inv, fun u _ other => other⟩

/-- What holds throughout the programs that are started holds of every task at every state
reached. -/
theorem Reach.throughout {P : T → Prog F α → Prop}
    (reached : (Pool.Rules.mk act (Task.turn exec)).system.Reach ok p₀ p)
    (init : ∀ t ∈ p₀.tasks, t.prog.Throughout (P t.tag))
    (acts : ∀ a s s' ts, act a s = some (s', ts) → ∀ t ∈ ts, t.prog.Throughout (P t.tag)) :
    ∀ t ∈ p.tasks, t.prog.Throughout (P t.tag) := by
  refine (Reach.owned (I := fun _ => True)
    (J := fun _ (t : Task T F α) => t.prog.Throughout (P t.tag)) reached ⟨trivial, init⟩ ?_ ?_).2
  · intro p a s ts _ _ _ acted
    exact ⟨trivial, acts a p.shared s ts acted, fun t _ other => other⟩
  · intro p i o t s' t' _ each _ found turned
    obtain ⟨β, f, k, next, rfl, rfl⟩ := Task.turn_cases turned
    have own := each t (List.mem_of_getElem? found)
    rw [next] at own
    exact ⟨trivial, own.2 _, fun u _ other => other⟩

end Pool.Rules

end HomeConnect.Theory
