/-
# Theory.Brackets -- critical sections of programs

A slot is taken by an operation that says whether it got it, and given back by another;
some operations are for whoever holds it.  `Sections` says which those are, and
`Brackets h h' p` that the program `p`, begun holding `h`, keeps to it on every path: it
takes no second slot, gives back only what it holds, and returns `a` holding `h' a`.

In a pool of programs that bracket, each slot taken is held by exactly one task
(`Reach.held`).  So no two tasks are inside at once (`Held.exclusive`), and a slot never
stays taken: once every task has returned, none is (`Held.released`).
-/
import HomeConnect.Theory.Pool

namespace HomeConnect.Theory

set_option autoImplicit false

universe u v w x

/-- The operations that take a slot, give it back, and need it. -/
structure Sections (S : Type u) (F : Type → Type v) (O : Type w) (κ : Type) where
  exec : ∀ {β : Type}, F β → O → S → β × S
  /-- The slot an operation takes, when this is its answer. -/
  enter : ∀ {β : Type}, F β → β → Option κ
  leave : ∀ {β : Type}, F β → Option κ
  inside : ∀ {β : Type}, F β → Option κ
  taken : S → κ → Prop

namespace Sections

variable {S : Type u} {F : Type → Type v} {O : Type w} {κ α γ : Type}

structure Lawful (A : Sections S F O κ) : Prop where
  enters : ∀ {β} {f : F β} {o s d}, A.enter f (A.exec f o s).1 = some d →
    ¬ A.taken s d ∧ ∀ e, A.taken (A.exec f o s).2 e ↔ A.taken s e ∨ e = d
  leaves : ∀ {β} {f : F β} {o s d}, A.enter f (A.exec f o s).1 = none → A.leave f = some d →
    ∀ e, A.taken (A.exec f o s).2 e ↔ A.taken s e ∧ e ≠ d
  others : ∀ {β} {f : F β} {o s}, A.enter f (A.exec f o s).1 = none → A.leave f = none →
    ∀ e, A.taken (A.exec f o s).2 e ↔ A.taken s e

/-- What a task holds after an operation with this answer. -/
def after (A : Sections S F O κ) {β : Type} (h : Option κ) (f : F β) (b : β) : Option κ :=
  match A.enter f b with
  | some d => some d
  | none => if (A.leave f).isSome then none else h

def Brackets (A : Sections S F O κ) (h' : α → Option κ) : Option κ → Prog F α → Prop
  | h, .ret a => h = h' a
  | h, .op f k =>
      (∀ d, A.inside f = some d → h = some d) ∧ (∀ d, A.leave f = some d → h = some d) ∧
        ∀ b, (A.enter f b ≠ none → h = none) ∧ A.Brackets h' (A.after h f b) (k b)

variable {A : Sections S F O κ} {h : Option κ} {h' : α → Option κ}

/-- The slots are left alone. -/
def Quiet (A : Sections S F O κ) (h : Option κ) {β : Type} (f : F β) : Prop :=
  (∀ d, A.inside f = some d → h = some d) ∧ A.leave f = none ∧ ∀ b, A.enter f b = none

theorem Brackets.op {β : Type} {f : F β} {k : β → Prog F α} (quiet : A.Quiet h f)
    (rest : ∀ b, A.Brackets h' h (k b)) : A.Brackets h' h (.op f k) := by
  obtain ⟨inside, leave, enter⟩ := quiet
  refine ⟨inside, fun d given => ?_, fun b => ⟨fun took => (took (enter b)).elim, ?_⟩⟩
  · rw [leave] at given
    cases given
  · have same : A.after h f b = h := by
      simp [after, enter, leave]
    rw [same]
    exact rest b

theorem Brackets.bind {m : γ → Option κ} {p : Prog F γ} {g : γ → Prog F α}
    (first : A.Brackets m h p) (rest : ∀ a, A.Brackets h' (m a) (g a)) :
    A.Brackets h' h (p >>= g) := by
  induction p generalizing h with
  | ret a =>
      rw [show h = m a from first]
      exact rest a
  | op f k ih =>
      obtain ⟨inside, leave, paths⟩ := first
      exact ⟨inside, leave, fun b => ⟨(paths b).1, ih b (paths b).2⟩⟩

/-- A program that leaves the slots alone. -/
theorem Brackets.of_uses {p : Prog F α} (uses : p.Uses fun f => A.Quiet h f) :
    A.Brackets (fun _ => h) h p := by
  induction p with
  | ret a => rfl
  | op f k ih => exact Brackets.op uses.1 fun b => ih b (uses.2 b)

/-! ## Pools -/

variable {T : Type} {X : Type x}

/-- Which task holds what: the slots taken are exactly those held, each by one task. -/
structure Held (A : Sections S F O κ) (p : Pool S (Task T F α)) (holds : Nat → Option κ) : Prop where
  brackets : ∀ i t, p.tasks[i]? = some t → A.Brackets (fun _ => none) (holds i) t.prog
  beyond : ∀ i, p.tasks.length ≤ i → holds i = none
  taken : ∀ d, A.taken p.shared d ↔ ∃ i, holds i = some d
  one : ∀ d i j, holds i = some d → holds j = some d → i = j

variable {p : Pool S (Task T F α)} {holds : Nat → Option κ}

/-- No two tasks are inside the same section. -/
theorem Held.exclusive (held : Held A p holds) {i j : Nat} {t t' : Task T F α} {d : κ}
    {β γ : Type} {f : F β} {g : F γ} {k : β → Prog F α} {l : γ → Prog F α}
    (at_i : p.tasks[i]? = some t) (at_j : p.tasks[j]? = some t') (next : t.prog = .op f k)
    (next' : t'.prog = .op g l) (inside : A.inside f = some d) (inside' : A.inside g = some d) :
    i = j := by
  have here := held.brackets i t at_i
  have there := held.brackets j t' at_j
  rw [next] at here
  rw [next'] at there
  exact held.one d i j (here.1 d inside) (there.1 d inside')

/-- A task that has returned holds nothing. -/
theorem Held.returned (held : Held A p holds) {i : Nat} {t : Task T F α}
    (found : p.tasks[i]? = some t) (done : t.prog.done = true) : holds i = none := by
  have brackets := held.brackets i t found
  cases prog : t.prog with
  | ret a =>
      rw [prog] at brackets
      exact brackets
  | op f k =>
      rw [prog] at done
      cases done

/-- A slot taken is held by a task under way. -/
theorem Held.holder (held : Held A p holds) {d : κ} (taken : A.taken p.shared d) :
    ∃ i t, p.tasks[i]? = some t ∧ t.prog.done = false ∧ holds i = some d := by
  obtain ⟨i, own⟩ := (held.taken d).1 taken
  have short : i < p.tasks.length := by
    by_contra long
    rw [held.beyond i (Nat.not_lt.1 long)] at own
    cases own
  refine ⟨i, p.tasks[i], List.getElem?_eq_getElem short, ?_, own⟩
  rw [← Bool.not_eq_true]
  intro done
  rw [held.returned (List.getElem?_eq_getElem short) done] at own
  cases own

/-- Once every task has returned, no slot is taken. -/
theorem Held.released (held : Held A p holds) (finished : Task.finished p.tasks = true) (d : κ) :
    ¬ A.taken p.shared d := by
  intro taken
  obtain ⟨i, t, found, under_way, -⟩ := held.holder taken
  have done := List.all_eq_true.1 finished t (List.mem_of_getElem? found)
  rw [under_way] at done
  cases done

/-- One task moves, and now holds this. -/
theorem Held.set (held : Held A p holds) {i : Nat} {t t' : Task T F α} {s : S} (now : Option κ)
    (found : p.tasks[i]? = some t) (brackets : A.Brackets (fun _ => none) now t'.prog)
    (taken : ∀ d, A.taken s d ↔ now = some d ∨ ∃ j, j ≠ i ∧ holds j = some d)
    (free : ∀ d, now = some d → ∀ j, j ≠ i → holds j ≠ some d) :
    Held A ⟨s, p.tasks.set i t'⟩ fun j => if j = i then now else holds j where
  brackets j u at_j := by
    by_cases own : j = i
    · subst own
      rw [List.getElem?_set_self (List.getElem?_eq_some_iff.1 found).1] at at_j
      cases at_j
      rw [if_pos rfl]
      exact brackets
    · rw [List.getElem?_set_ne (Ne.symm own)] at at_j
      rw [if_neg own]
      exact held.brackets j u at_j
  beyond j long := by
    rw [List.length_set] at long
    have short := (List.getElem?_eq_some_iff.1 found).1
    rw [if_neg (by omega)]
    exact held.beyond j long
  taken d := by
    rw [taken]
    constructor
    · rintro (own | ⟨j, other, holds⟩)
      · exact ⟨i, by rw [if_pos rfl, own]⟩
      · exact ⟨j, by rw [if_neg other, holds]⟩
    · rintro ⟨j, holds⟩
      by_cases own : j = i
      · rw [if_pos own] at holds
        exact .inl holds
      · rw [if_neg own] at holds
        exact .inr ⟨j, own, holds⟩
  one d j j' here there := by
    by_cases own : j = i
    · by_cases own' : j' = i
      · rw [own, own']
      · rw [if_pos own] at here
        rw [if_neg own'] at there
        exact (free d here j' own' there).elim
    · by_cases own' : j' = i
      · rw [if_neg own] at here
        rw [if_pos own'] at there
        exact (free d there j own here).elim
      · rw [if_neg own] at here
        rw [if_neg own'] at there
        exact held.one d j j' here there

/-- A turn of a task that brackets. -/
theorem Held.turn (lawful : A.Lawful) (held : Held A p holds) {i : Nat} {t t' : Task T F α} {o : O}
    {s : S} (found : p.tasks[i]? = some t) (turned : t.turn A.exec o p.shared = some (s, t')) :
    ∃ holds', Held A ⟨s, p.tasks.set i t'⟩ holds' := by
  obtain ⟨β, f, k, next, rfl, rfl⟩ := Task.turn_cases turned
  have brackets := held.brackets i t found
  rw [next] at brackets
  obtain ⟨-, leave, paths⟩ := brackets
  obtain ⟨free, rest⟩ := paths (A.exec f o p.shared).1
  refine ⟨_, held.set (A.after (holds i) f (A.exec f o p.shared).1) found rest ?_ ?_⟩
  · intro d
    unfold after
    cases entered : A.enter f (A.exec f o p.shared).1 with
    | some e =>
        have none := free (by rw [entered]; exact Option.some_ne_none e)
        rw [(lawful.enters entered).2, held.taken]
        constructor
        · rintro (⟨j, own⟩ | rfl)
          · refine .inr ⟨j, ?_, own⟩
            rintro rfl
            rw [none] at own
            cases own
          · exact .inl rfl
        · rintro (same | ⟨j, -, own⟩)
          · cases same
            exact .inr rfl
          · exact .inl ⟨j, own⟩
    | none =>
        cases left : A.leave f with
        | some e =>
            have own := leave e left
            rw [lawful.leaves entered left, held.taken]
            constructor
            · rintro ⟨⟨j, has⟩, other⟩
              refine .inr ⟨j, ?_, has⟩
              rintro rfl
              rw [own] at has
              exact other (Option.some.inj has).symm
            · rintro (same | ⟨j, apart, has⟩)
              · cases same
              · refine ⟨⟨j, has⟩, ?_⟩
                rintro rfl
                exact apart (held.one d j i has own)
        | none =>
            rw [lawful.others entered left, held.taken]
            constructor
            · rintro ⟨j, has⟩
              by_cases own : j = i
              · exact .inl (own ▸ has)
              · exact .inr ⟨j, own, has⟩
            · rintro (has | ⟨j, -, has⟩)
              · exact ⟨i, has⟩
              · exact ⟨j, has⟩
  · intro d now j apart has
    unfold after at now
    cases entered : A.enter f (A.exec f o p.shared).1 with
    | some e =>
        rw [entered] at now
        cases now
        exact (lawful.enters entered).1 ((held.taken d).2 ⟨j, has⟩)
    | none =>
        rw [entered] at now
        dsimp only at now
        split at now
        · cases now
        · exact apart (held.one d j i has now)

/-- Tasks are started that bracket, and hold nothing yet. -/
theorem Held.start (held : Held A p holds) {s : S} {ts : List (Task T F α)}
    (same : ∀ d, A.taken s d ↔ A.taken p.shared d)
    (started : ∀ t ∈ ts, A.Brackets (fun _ => none) none t.prog) :
    Held A ⟨s, p.tasks ++ ts⟩ holds where
  brackets i t found := by
    rcases Nat.lt_or_ge i p.tasks.length with old | new
    · rw [List.getElem?_append_left old] at found
      exact held.brackets i t found
    · rw [List.getElem?_append_right new] at found
      rw [held.beyond i new]
      exact started t (List.mem_of_getElem? found)
  beyond i long := held.beyond i (by rw [List.length_append] at long; omega)
  taken d := (same d).trans (held.taken d)
  one := held.one

/-- **Every slot taken is held by one task**, in every state reached. -/
theorem Reach.held (lawful : A.Lawful) {act : X → S → Option (S × List (Task T F α))}
    {ok : Pool S (Task T F α) → Pool.Event X O → Prop} {s : S}
    (reached : (Pool.Rules.mk act (Task.turn A.exec)).system.Reach ok ⟨s, []⟩ p)
    (free : ∀ d, ¬ A.taken s d)
    (acts : ∀ a s s' ts, act a s = some (s', ts) → (∀ d, A.taken s' d ↔ A.taken s d) ∧
      ∀ t ∈ ts, A.Brackets (fun _ => none) none t.prog) : ∃ holds, Held A p holds := by
  refine reached.invariant (I := fun p => ∃ holds, Held A p holds) ⟨fun _ => none, ?_⟩ ?_
  · refine ⟨fun i t found => (nomatch found), fun _ _ => rfl, fun d => ?_, fun _ _ _ own => nomatch own⟩
    exact ⟨fun taken => (free d taken).elim, fun ⟨_, own⟩ => nomatch own⟩
  · rintro p e p' ⟨holds, held⟩ - stepped
    obtain ⟨a, s, ts, rfl, acted, rfl⟩ | ⟨i, o, t, s, t', rfl, found, turned, rfl⟩ :=
      Pool.Rules.step_cases stepped
    · obtain ⟨same, started⟩ := acts a _ _ _ acted
      exact ⟨holds, held.start same started⟩
    · exact held.turn lawful found turned

end Sections

end HomeConnect.Theory
