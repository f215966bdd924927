/-
# Theory.Recompute -- a cached value that many tasks recompute

Some state has a source and a value derived from it, stored beside it.  A task that has
changed the source brings the stored value up to date in two atomic steps: it selects
the source, and it publishes what it derives from that snapshot.  Between the two,
other tasks change the source and publish snapshots of their own.

`Pending` are the programs that still select and publish before they end without an
error; `Holding` are those about to publish.  Both are properties of the program alone.
A task is `Refreshing` when it is pending, or is about to publish what the source still
derives to.  The invariant (`Inv`) is that some task is refreshing or the stored value is
current; a publish breaks it only when what it writes is out of date and no other task
refreshes (`Safe`).  Once every task has ended without an error none is refreshing, so
the value is current: `Inv.current`.
-/
import HomeConnect.Theory.Pool

namespace HomeConnect.Theory

set_option autoImplicit false

universe u v w

/-- How the source is selected and a derived value published. -/
structure Recompute (S : Type u) (F : Type → Type v) (O : Type w) (V D E : Type) where
  exec : ∀ {β : Type}, F β → O → S → β × S
  /-- The outcomes under which an operation is carried out. -/
  done : O → Prop
  select : F (Except E V)
  derive : V → D
  publish : D → F (Except E Unit)
  /-- A snapshot from which nothing is published. -/
  nothing : V → Prop
  /-- Operations that change neither the source nor the stored value. -/
  quiet : ∀ {β : Type}, F β → Prop
  source : S → V
  current : S → Prop
  /-- An invariant of the state that every operation keeps. -/
  inv : S → Prop

namespace Recompute

variable {S : Type u} {F : Type → Type v} {O : Type w} {V D E α : Type}

structure Lawful (R : Recompute S F O V D E) : Prop where
  exec_select : ∀ {o}, R.done o → ∀ s, R.exec R.select o s = (.ok (R.source s), s)
  source_publish : ∀ d o s, R.source (R.exec (R.publish d) o s).2 = R.source s
  current_publish : ∀ {o s}, R.done o → R.inv s →
    R.current (R.exec (R.publish (R.derive (R.source s))) o s).2
  current_of_nothing : ∀ {s}, R.nothing (R.source s) → R.current s
  source_quiet : ∀ {β} {f : F β} {o s}, R.quiet f → R.source (R.exec f o s).2 = R.source s
  current_quiet : ∀ {β} {f : F β} {o s}, R.quiet f → R.current s → R.current (R.exec f o s).2
  inv_exec : ∀ {β} (f : F β) (o s), R.inv s → R.inv (R.exec f o s).2

variable (R : Recompute S F O V D E)

/-- The program performs quiet operations only. -/
def Settled (p : Prog F (Except E α)) : Prop := p.Uses R.quiet

/-- The program publishes `d` next and is settled after it. -/
def Holding (d : D) (p : Prog F (Except E α)) : Prop :=
  ∃ k : Except E Unit → Prog F (Except E α), p = .op (R.publish d) k ∧ ∀ b, R.Settled (k b)

/-- The program selects and publishes before it ends without an error. -/
inductive Pending : Prog F (Except E α) → Prop
  | failed (e : E) : Pending (.ret (.error e))
  | select (k : Except E V → Prog F (Except E α))
      (next : ∀ v, R.nothing v ∧ R.Settled (k (.ok v)) ∨ R.Holding (R.derive v) (k (.ok v))) :
      Pending (.op R.select k)
  | other {β : Type} (f : F β) (k : β → Prog F (Except E α)) (next : ∀ b, Pending (k b)) :
      Pending (.op f k)

variable {R}

/-- Whatever comes first, the rest is still pending after it. -/
theorem Pending.bind {γ : Type} (p : Prog F γ) {g : γ → Prog F (Except E α)}
    (rest : ∀ a, R.Pending (g a)) : R.Pending (p >>= g) := by
  induction p with
  | ret a => exact rest a
  | op f k ih => exact .other f _ ih

/-- A pending program may be followed by something settled that passes its error on. -/
theorem Pending.followed {γ : Type} {p : Prog F (Except E γ)}
    {g : Except E γ → Prog F (Except E α)} (pending : R.Pending p)
    (errors : ∀ e, g (.error e) = .ret (.error e)) (rest : ∀ r, R.Settled (g r)) :
    R.Pending (p >>= g) := by
  induction pending with
  | failed e =>
      rw [Prog.ret_bind, errors]
      exact .failed e
  | select k next =>
      refine .select _ fun v => ?_
      rcases next v with ⟨empty, settled⟩ | ⟨k', holding, settled⟩
      · exact .inl ⟨empty, settled.bind rest⟩
      · refine .inr ⟨fun b => k' b >>= g, ?_, fun b => (settled b).bind rest⟩
        rw [holding]
        rfl
  | other f k _ ih => exact .other f _ ih

/-! ## Tasks -/

variable {T : Type}

abbrev Recomputer (T : Type) (F : Type → Type v) (E α : Type) := Task T F (Except E α)

/-- The task will bring the stored value up to date. -/
def Refreshing (R : Recompute S F O V D E) (s : S) (t : Recomputer T F E α) : Prop :=
  R.Pending t.prog ∨ R.Holding (R.derive (R.source s)) t.prog

/-- What every task that starts pending is at any time. -/
def Disciplined (R : Recompute S F O V D E) (t : Recomputer T F E α) : Prop :=
  R.Pending t.prog ∨ (∃ d, R.Holding d t.prog) ∨ R.Settled t.prog

/-- The step selects only if the select is carried out, and publishes only if that is
carried out and the snapshot is the source or another task refreshes. -/
def Safe (R : Recompute S F O V D E) (p : Pool S (Recomputer T F E α)) (i : Nat) (o : O) : Prop :=
  ∀ t, p.tasks[i]? = some t →
    (∀ k, t.prog = .op R.select k → R.done o) ∧
    ∀ d k, t.prog = .op (R.publish d) k →
      R.done o ∧ (d = R.derive (R.source p.shared) ∨
        ∃ (j : Nat) (t' : Recomputer T F E α),
          j ≠ i ∧ p.tasks[j]? = some t' ∧ R.Refreshing p.shared t')

/-- The invariant: every task is disciplined, and one refreshes or the value is current. -/
structure Inv (R : Recompute S F O V D E) (p : Pool S (Recomputer T F E α)) : Prop where
  state : R.inv p.shared
  disciplined : ∀ t ∈ p.tasks, R.Disciplined t
  fresh : p.tasks = [] ∨ R.current p.shared ∨
    ∃ (i : Nat) (t : Recomputer T F E α), p.tasks[i]? = some t ∧ R.Refreshing p.shared t

theorem refreshing_of_source {s s' : S} {t : Recomputer T F E α} (same : R.source s' = R.source s)
    (refreshing : R.Refreshing s t) : R.Refreshing s' t := by
  rcases refreshing with pending | holding
  · exact .inl pending
  · right
    rw [same]
    exact holding

/-- What one turn does to the task that takes it, for each thing the task can be. -/
theorem turn_fresh (lawful : R.Lawful) {p : Pool S (Recomputer T F E α)} {i : Nat} {o : O}
    {t t' : Recomputer T F E α} {s' : S} (inv : R.Inv p) (safe : R.Safe p i o)
    (found : p.tasks[i]? = some t) (turned : t.turn R.exec o p.shared = some (s', t')) :
    R.Disciplined t' ∧
      (R.current s' ∨ R.Refreshing s' t' ∨
        R.source s' = R.source p.shared ∧ ((R.current p.shared → R.current s') ∧ ¬ R.Pending t.prog ∧
          ¬ R.Holding (R.derive (R.source p.shared)) t.prog ∨
        ∃ (j : Nat) (u : Recomputer T F E α),
          j ≠ i ∧ p.tasks[j]? = some u ∧ R.Refreshing p.shared u)) := by
  have safeHere := safe t found
  have disciplined := inv.disciplined t (List.mem_of_getElem? found)
  obtain ⟨tag, prog⟩ := t
  by_cases pending : R.Pending prog
  · cases pending with
    | failed e => cases turned
    | select k next =>
        have carried := safeHere.1 k rfl
        simp only [Task.turn, lawful.exec_select carried, Option.some.injEq, Prod.mk.injEq] at turned
        obtain ⟨rfl, rfl⟩ := turned
        rcases next (R.source p.shared) with ⟨empty, settled⟩ | holding
        · exact ⟨.inr (.inr settled), .inl (lawful.current_of_nothing empty)⟩
        · exact ⟨.inr (.inl ⟨_, holding⟩), .inr (.inl (.inr holding))⟩
    | other f k next =>
        cases turned
        exact ⟨.inl (next _), .inr (.inl (.inl (next _)))⟩
  · rcases disciplined with contra | ⟨d, k, rfl, settled⟩ | settled
    · exact absurd contra pending
    · cases turned
      refine ⟨.inr (.inr (settled _)), ?_⟩
      obtain ⟨carried, rfl | other⟩ := safeHere.2 d k rfl
      · exact .inl (lawful.current_publish carried inv.state)
      · exact .inr (.inr ⟨lawful.source_publish d o _, .inr other⟩)
    · by_cases holding : R.Holding (R.derive (R.source p.shared)) prog
      · -- a task about to publish the source itself
        obtain ⟨k, rfl, settled'⟩ := holding
        cases turned
        exact ⟨.inr (.inr (settled' _)),
          .inl (lawful.current_publish (safeHere.2 _ k rfl).1 inv.state)⟩
      · cases prog with
        | ret a => cases turned
        | op f k =>
            cases turned
            exact ⟨.inr (.inr (settled.2 _)), .inr (.inr ⟨lawful.source_quiet settled.1,
              .inl ⟨lawful.current_quiet settled.1, pending, holding⟩⟩)⟩

/-- A turn keeps the invariant. -/
theorem Inv.turn (lawful : R.Lawful) {p : Pool S (Recomputer T F E α)} {i : Nat} {o : O}
    {t t' : Recomputer T F E α} {s' : S} (inv : R.Inv p) (safe : R.Safe p i o)
    (found : p.tasks[i]? = some t) (turned : t.turn R.exec o p.shared = some (s', t')) :
    R.Inv ⟨s', p.tasks.set i t'⟩ := by
  obtain ⟨disciplined, fresh⟩ := turn_fresh lawful inv safe found turned
  have bound : i < p.tasks.length := (List.getElem?_eq_some_iff.1 found).1
  have elsewhere : ∀ {j : Nat} {u : Recomputer T F E α}, j ≠ i → p.tasks[j]? = some u →
      (p.tasks.set i t')[j]? = some u := by
    intro j u distinct at_j
    rw [List.getElem?_set_ne (Ne.symm distinct)]
    exact at_j
  refine ⟨?_, ?_, ?_⟩
  · obtain ⟨β, f, k, _, rfl, rfl⟩ := Task.turn_cases turned
    exact lawful.inv_exec f o _ inv.state
  · intro u member
    rcases List.mem_or_eq_of_mem_set member with old | rfl
    · exact inv.disciplined u old
    · exact disciplined
  · right
    rcases fresh with current | refreshing | ⟨same, ⟨keeps, notPending, notHolding⟩ | ⟨j, u, distinct, at_j, refreshing⟩⟩
    · exact .inl current
    · exact .inr ⟨i, t', by rw [List.getElem?_set_self bound], refreshing⟩
    · rcases inv.fresh with none | current | ⟨j, u, at_j, refreshing⟩
      · rw [none] at found
        cases found
      · exact .inl (keeps current)
      · by_cases here : j = i
        · subst here
          rw [found, Option.some.injEq] at at_j
          subst at_j
          rcases refreshing with contra | contra
          · exact absurd contra notPending
          · exact absurd contra notHolding
        · exact .inr ⟨j, u, elsewhere here at_j, refreshing_of_source same refreshing⟩
    · exact .inr ⟨j, u, elsewhere distinct at_j, refreshing_of_source same refreshing⟩

/-- Starting pending tasks keeps the invariant. -/
theorem Inv.start {p : Pool S (Recomputer T F E α)} {ts : List (Recomputer T F E α)}
    (inv : R.Inv p) (pending : ∀ t ∈ ts, R.Pending t.prog) : R.Inv ⟨p.shared, p.tasks ++ ts⟩ where
  state := inv.state
  disciplined := by
    intro t member
    rcases List.mem_append.1 member with old | new
    · exact inv.disciplined t old
    · exact .inl (pending t new)
  fresh := by
    rcases inv.fresh with none | current | ⟨i, t, found, refreshing⟩
    · cases ts with
      | nil => exact .inl (by rw [none]; rfl)
      | cons t ts =>
          exact .inr (.inr ⟨0, t, by rw [none]; rfl, .inl (pending t List.mem_cons_self)⟩)
    · exact .inr (.inl current)
    · refine .inr (.inr ⟨i, t, ?_, refreshing⟩)
      rw [List.getElem?_append_left (List.getElem?_eq_some_iff.1 found).1]
      exact found

/-- When every task has ended without an error the stored value is current. -/
theorem Inv.current {p : Pool S (Recomputer T F E α)} (inv : R.Inv p)
    (some_task : p.tasks ≠ []) (ended : ∀ t ∈ p.tasks, ∃ a, t.prog = .ret (.ok a)) :
    R.current p.shared := by
  rcases inv.fresh with none | current | ⟨i, t, found, refreshing⟩
  · exact absurd none some_task
  · exact current
  · obtain ⟨a, returned⟩ := ended t (List.mem_of_getElem? found)
    rcases refreshing with pending | ⟨k, holding, _⟩
    · rw [returned] at pending
      cases pending
    · rw [returned] at holding
      cases holding

end Recompute

end HomeConnect.Theory
