/-
# Theory.Transition -- executable transition systems and runs under a condition

A `System` is an executable, guarded step function: `step s e = some s'` when
event `e` is enabled at `s`.  One definition serves three purposes.

* `replay` checks a concrete list of events, so a run is exhibited by `decide`.
* `Reach ok s₀` is what a run from `s₀` can reach when every step it takes meets
  `ok` at the state before the step.  `Reach free` is plain reachability.
* `Reach.invariant` is the one induction over runs: an invariant that holds
  initially and that every admitted step keeps holds of every state reached.

`System.guard ok` disables the steps that do not meet `ok`; replaying it exhibits
a run under the condition (`reach_of_replay_guard`).
-/
import Mathlib.Data.Option.Basic

namespace HomeConnect.Theory

set_option autoImplicit false

universe u v

/-- An executable transition system: `none` when the event is not enabled. -/
structure System (S : Type u) (E : Type v) where
  step : S → E → Option S

namespace System

variable {S : Type u} {E : Type v} (sys : System S E)

/-- Replay a list of events; `none` as soon as one of them is disabled. -/
def replay : S → List E → Option S
  | s, [] => some s
  | s, e :: es => (sys.step s e).bind fun s' => replay s' es

/-- The condition every step meets. -/
def free : S → E → Prop := fun _ _ => True

/-- What a run from `s₀` can reach when each of its steps meets `ok`. -/
inductive Reach (ok : S → E → Prop) (s₀ : S) : S → Prop
  | start : Reach ok s₀ s₀
  | next {s s' : S} {e : E} :
      Reach ok s₀ s → ok s e → sys.step s e = some s' → Reach ok s₀ s'

/-- The same system with the steps that miss `ok` disabled. -/
def guard (ok : S → E → Prop) [∀ s e, Decidable (ok s e)] : System S E where
  step s e := if ok s e then sys.step s e else none

variable {sys}

/-- An invariant that every admitted step keeps holds wherever a run ends. -/
theorem Reach.invariant {ok : S → E → Prop} {s₀ s : S} {I : S → Prop}
    (reached : sys.Reach ok s₀ s) (init : I s₀)
    (keeps : ∀ s e s', I s → ok s e → sys.step s e = some s' → I s') : I s := by
  induction reached with
  | start => exact init
  | next _ admitted stepped ih => exact keeps _ _ _ ih admitted stepped

theorem Reach.mono {ok ok' : S → E → Prop} {s₀ s : S} (reached : sys.Reach ok s₀ s)
    (weaker : ∀ s e, ok s e → ok' s e) : sys.Reach ok' s₀ s := by
  induction reached with
  | start => exact .start
  | next _ admitted stepped ih => exact .next ih (weaker _ _ admitted) stepped

theorem Reach.trans {ok : S → E → Prop} {s₀ s₁ s₂ : S} (first : sys.Reach ok s₀ s₁)
    (second : sys.Reach ok s₁ s₂) : sys.Reach ok s₀ s₂ := by
  induction second with
  | start => exact first
  | next _ admitted stepped ih => exact .next ih admitted stepped

/-- A run's first step can be taken off the front. -/
theorem Reach.head {ok : S → E → Prop} {s₀ s₁ s₂ : S} {e : E} (admitted : ok s₀ e)
    (stepped : sys.step s₀ e = some s₁) (rest : sys.Reach ok s₁ s₂) : sys.Reach ok s₀ s₂ :=
  Reach.trans (.next .start admitted stepped) rest

theorem reach_of_replay {s₀ s : S} {es : List E} (replayed : sys.replay s₀ es = some s) :
    sys.Reach free s₀ s := by
  induction es generalizing s₀ with
  | nil => cases replayed; exact .start
  | cons e es ih =>
      obtain ⟨s₁, stepped, rest⟩ := Option.bind_eq_some_iff.1 replayed
      exact Reach.head trivial stepped (ih rest)

/-- Replaying the guarded system exhibits a run under the condition. -/
theorem reach_of_replay_guard {ok : S → E → Prop} [∀ s e, Decidable (ok s e)] {s₀ s : S}
    {es : List E} (replayed : (sys.guard ok).replay s₀ es = some s) : sys.Reach ok s₀ s := by
  induction es generalizing s₀ with
  | nil => cases replayed; exact .start
  | cons e es ih =>
      obtain ⟨s₁, stepped, rest⟩ := Option.bind_eq_some_iff.1 replayed
      simp only [guard, Option.ite_none_right_eq_some] at stepped
      exact Reach.head stepped.1 stepped.2 (ih rest)

end System

end HomeConnect.Theory
