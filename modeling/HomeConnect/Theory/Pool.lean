/-
# Theory.Pool -- tasks interleaved over a shared state

A pool is a shared state and the tasks started so far, each given by its local
state.  Two kinds of event move it: an action of the environment, which may change
the shared state and start tasks, and a turn of one task, which takes that task's
next atomic step.  Every order of turns is a run, so a property of every run is a
property of every interleaving.

`Rules.step_cases` says once what an event can do.  From it comes `Reach.owned`: an
invariant `I` of the shared state together with an assertion `J` about each task,
where each step keeps `I` and re-establishes `J` for the task that moved, and no step
of one task or action breaks `J` for another.

A task whose local state is a program (`Theory.Program`) takes a turn by performing
the program's next operation: `Task.turn`.
-/
import HomeConnect.Theory.Transition
import HomeConnect.Theory.Program
import Mathlib.Data.List.Basic

namespace HomeConnect.Theory

set_option autoImplicit false

universe u v w x y

structure Pool (S : Type u) (L : Type x) where
  shared : S
  tasks : List L

namespace Pool

inductive Event (A : Type v) (O : Type w)
  | act (a : A)
  | turn (i : Nat) (o : O)
deriving DecidableEq, Repr

/-- How the environment acts, and one step of a task under an outcome. -/
structure Rules (S : Type u) (L : Type x) (A : Type v) (O : Type w) where
  act : A → S → Option (S × List L)
  turn : L → O → S → Option (S × L)

namespace Rules

variable {S : Type u} {L : Type x} {A : Type v} {O : Type w} (R : Rules S L A O)

def step (p : Pool S L) : Event A O → Option (Pool S L)
  | .act a => (R.act a p.shared).map fun r => ⟨r.1, p.tasks ++ r.2⟩
  | .turn i o =>
      (p.tasks[i]?).bind fun l => (R.turn l o p.shared).map fun r => ⟨r.1, p.tasks.set i r.2⟩

def system : System (Pool S L) (Event A O) := ⟨R.step⟩

variable {R}

/-- Everything an event can do to a pool. -/
theorem step_cases {p p' : Pool S L} {e : Event A O} (stepped : R.system.step p e = some p') :
    (∃ a s ls, e = .act a ∧ R.act a p.shared = some (s, ls) ∧ p' = ⟨s, p.tasks ++ ls⟩) ∨
    (∃ i o l s l', e = .turn i o ∧ p.tasks[i]? = some l ∧ R.turn l o p.shared = some (s, l') ∧
      p' = ⟨s, p.tasks.set i l'⟩) := by
  cases e with
  | act a =>
      obtain ⟨⟨s, ls⟩, acted, rfl⟩ := Option.map_eq_some_iff.1 stepped
      exact .inl ⟨a, s, ls, rfl, acted, rfl⟩
  | turn i o =>
      obtain ⟨l, found, more⟩ := Option.bind_eq_some_iff.1 stepped
      obtain ⟨⟨s, l'⟩, turned, rfl⟩ := Option.map_eq_some_iff.1 more
      exact .inr ⟨i, o, l, s, l', rfl, found, turned, rfl⟩

/-- **Assertions about tasks.**  `I` is an invariant of the shared state and `J` an
assertion about each task.  A turn keeps `I`, re-establishes `J` for the task that
took it and breaks it for no other; an action keeps both and starts tasks that meet
`J`. -/
theorem Reach.owned {ok : Pool S L → Event A O → Prop} {p₀ p : Pool S L} {I : S → Prop}
    {J : S → L → Prop} (reached : R.system.Reach ok p₀ p)
    (init : I p₀.shared ∧ ∀ l ∈ p₀.tasks, J p₀.shared l)
    (acts : ∀ p a s ls, I p.shared → (∀ m ∈ p.tasks, J p.shared m) → ok p (.act a) →
      R.act a p.shared = some (s, ls) →
      I s ∧ (∀ l ∈ ls, J s l) ∧ ∀ m ∈ p.tasks, J p.shared m → J s m)
    (turns : ∀ p i o l s l', I p.shared → (∀ m ∈ p.tasks, J p.shared m) → ok p (.turn i o) →
      p.tasks[i]? = some l → R.turn l o p.shared = some (s, l') →
      I s ∧ J s l' ∧ ∀ m ∈ p.tasks, J p.shared m → J s m) :
    I p.shared ∧ ∀ l ∈ p.tasks, J p.shared l := by
  refine reached.invariant (I := fun p => I p.shared ∧ ∀ l ∈ p.tasks, J p.shared l) init ?_
  rintro p e p' ⟨inv, each⟩ admitted stepped
  obtain ⟨a, s, ls, rfl, acted, rfl⟩ | ⟨i, o, l, s, l', rfl, found, turned, rfl⟩ :=
    step_cases stepped
  · obtain ⟨inv', started, others⟩ := acts p a s ls inv each admitted acted
    refine ⟨inv', fun m member => ?_⟩
    rcases List.mem_append.1 member with old | new
    · exact others m old (each m old)
    · exact started m new
  · obtain ⟨inv', own, others⟩ := turns p i o l s l' inv each admitted found turned
    refine ⟨inv', fun m member => ?_⟩
    rcases List.mem_or_eq_of_mem_set member with old | rfl
    · exact others m old (each m old)
    · exact own

end Rules

/-- How a turn moves the number of tasks with a property. -/
theorem countP_set {L : Type x} {tasks : List L} {i : Nat} {l : L} (q : L → Bool) (l' : L)
    (found : tasks[i]? = some l) :
    (tasks.set i l').countP q + (if q l then 1 else 0) =
      tasks.countP q + (if q l' then 1 else 0) := by
  obtain ⟨bound, rfl⟩ := List.getElem?_eq_some_iff.1 found
  have counted := List.boole_getElem_le_countP (p := q) bound
  rw [List.countP_set bound]
  omega

/-- At most one task has the property when the one that moves gets it only while none has it. -/
theorem countP_set_le_one {L : Type x} {tasks : List L} {i : Nat} {l l' : L} {q : L → Bool}
    (found : tasks[i]? = some l) (one : tasks.countP q ≤ 1)
    (first : q l' = true → q l = false → ∀ m ∈ tasks, q m = false) :
    (tasks.set i l').countP q ≤ 1 := by
  have counted := countP_set q l' found
  by_cases before : q l = true
  · rw [if_pos before] at counted
    split at counted <;> omega
  · rw [if_neg before] at counted
    by_cases after : q l' = true
    · have zero : tasks.countP q = 0 := by
        refine List.countP_eq_zero.2 fun m member holds => ?_
        rw [first after (Bool.eq_false_iff.2 before) m member] at holds
        cases holds
      rw [if_pos after] at counted
      omega
    · rw [if_neg after] at counted
      omega

/-- After a task's turn the others are what they were. -/
theorem mem_set_cases {L : Type x} {tasks : List L} {i : Nat} {l' m : L}
    (member : m ∈ tasks.set i l') : m = l' ∨ ∃ j, j ≠ i ∧ tasks[j]? = some m := by
  obtain ⟨j, found⟩ := List.mem_iff_getElem?.1 member
  rw [List.getElem?_set] at found
  by_cases own : i = j
  · rw [if_pos own] at found
    split at found
    · cases found
      exact .inl rfl
    · cases found
  · rw [if_neg own] at found
    exact .inr ⟨j, Ne.symm own, found⟩

theorem mem_set_of_mem {L : Type x} {tasks : List L} {i : Nat} {l m : L} (l' : L)
    (found : tasks[i]? = some l) (member : m ∈ tasks) : m = l ∨ m ∈ tasks.set i l' := by
  obtain ⟨j, other⟩ := List.mem_iff_getElem?.1 member
  by_cases own : i = j
  · rw [own, other] at found
    exact .inl (Option.some.inj found)
  · refine .inr (List.mem_of_getElem? (i := j) ?_)
    rw [List.getElem?_set, if_neg own]
    exact other

theorem mem_set_self {L : Type x} {tasks : List L} {i : Nat} {l : L} (l' : L)
    (found : tasks[i]? = some l) : l' ∈ tasks.set i l' := by
  obtain ⟨bound, _⟩ := List.getElem?_eq_some_iff.1 found
  exact List.mem_set bound l'

/-- When one task at most has a property, no other than that one has it. -/
theorem not_of_countP {L : Type x} {tasks : List L} {q : L → Bool} (one : tasks.countP q ≤ 1)
    {i j : Nat} {l m : L} (found : tasks[i]? = some l) (own : q l = true)
    (other : tasks[j]? = some m) (ne : j ≠ i) : q m = false := by
  induction tasks generalizing i j with
  | nil => cases found
  | cons a rest ih =>
      rw [List.countP_cons] at one
      cases i with
      | zero =>
          cases j with
          | zero => exact (ne rfl).elim
          | succ j =>
              cases found
              rw [if_pos own] at one
              have none : rest.countP q = 0 := by omega
              exact Bool.eq_false_iff.2 (List.countP_eq_zero.1 none m (List.mem_of_getElem? other))
      | succ i =>
          cases j with
          | zero =>
              cases other
              have some : 0 < rest.countP q :=
                List.countP_pos_iff.2 ⟨l, List.mem_of_getElem? found, own⟩
              by_contra holds
              rw [if_pos (Bool.not_eq_false _ ▸ holds)] at one
              omega
          | succ j =>
              exact ih (by omega) found other fun same => ne (congrArg (· + 1) same)

end Pool

/-! ## Tasks given by programs -/

/-- A started program, with a tag that says what it was started for. -/
structure Task (T : Type) (F : Type → Type y) (α : Type) where
  tag : T
  prog : Prog F α

namespace Task

variable {S : Type u} {T : Type} {F : Type → Type y} {α : Type} {O : Type w}

/-- Perform the program's next operation; a finished program takes no turn. -/
def turn (exec : ∀ {β : Type}, F β → O → S → β × S) (t : Task T F α) (o : O) (s : S) :
    Option (S × Task T F α) :=
  match t.prog with
  | .ret _ => none
  | .op f k => some ((exec f o s).2, ⟨t.tag, k (exec f o s).1⟩)

/-- A turn performs the operation at the head of the program. -/
theorem turn_cases {exec : ∀ {β : Type}, F β → O → S → β × S} {t t' : Task T F α} {o : O}
    {s s' : S} (turned : t.turn exec o s = some (s', t')) :
    ∃ (β : Type) (f : F β) (k : β → Prog F α), t.prog = .op f k ∧ s' = (exec f o s).2 ∧
      t' = ⟨t.tag, k (exec f o s).1⟩ := by
  obtain ⟨tag, prog⟩ := t
  cases prog with
  | ret a => cases turned
  | op f k => cases turned; exact ⟨_, f, k, rfl, rfl, rfl⟩

/-- **Invariants of allowed operations.**  When every task started performs allowed
operations only, and these and the actions keep `I`, then `I` holds at every state
reached. -/
theorem reach_uses {A : Type v} (allowed : ∀ {β : Type}, F β → Prop) {I : S → Prop}
    {exec : ∀ {β : Type}, F β → O → S → β × S} {act : A → S → Option (S × List (Task T F α))}
    {ok : Pool S (Task T F α) → Pool.Event A O → Prop} {s : S} {p : Pool S (Task T F α)}
    (reached : (Pool.Rules.mk act (turn exec)).system.Reach ok ⟨s, []⟩ p) (init : I s)
    (acts : ∀ a s s' ts, I s → act a s = some (s', ts) →
      I s' ∧ ∀ t ∈ ts, t.prog.Uses allowed)
    (ops : ∀ {β : Type} (f : F β) (o : O) (s : S), allowed f → I s → I (exec f o s).2) :
    I p.shared ∧ ∀ t ∈ p.tasks, t.prog.Uses allowed := by
  refine Pool.Rules.Reach.owned (J := fun _ (t : Task T F α) => t.prog.Uses allowed) reached
    ⟨init, fun t member => (List.not_mem_nil member).elim⟩ ?_ ?_
  · intro p a s' ts inv _ _ acted
    obtain ⟨inv', started⟩ := acts a p.shared s' ts inv acted
    exact ⟨inv', started, fun t _ uses => uses⟩
  · intro p i o t s' t' inv each _ found turned
    obtain ⟨β, f, k, next, rfl, rfl⟩ := turn_cases turned
    have uses := each t (List.mem_of_getElem? found)
    rw [next] at uses
    exact ⟨ops f o p.shared uses.1 inv, uses.2 _, fun u _ other => other⟩

/-- Every task has returned. -/
def finished (tasks : List (Task T F α)) : Bool := tasks.all fun t => t.prog.done

/-- What the finished tasks returned, with their tags. -/
def answers (tasks : List (Task T F α)) : List (T × α) :=
  tasks.filterMap fun t => t.prog.result?.map fun a => (t.tag, a)

end Task

end HomeConnect.Theory
