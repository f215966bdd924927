/-
# Theory.Script -- programs that carry out a list

A function that writes one thing after another is a script: from the states it is run in, it
comes to the same entries in the same order.  One of its operations may be refused.  A `vital`
one then ends the script, any other is passed over, so the entries that are carried out when
the `n`-th is refused are `left l n`.

`Script I J p r l` says that `p` is the script `l`: run where `I` holds it returns `r`, and `J`
holds after it, also when an entry that is not vital was passed over.  Scripts follow each other
(`Script.bind`), and what each entry finds when its turn comes is `Goes`.
-/
import HomeConnect.Theory.Program
import Mathlib.Data.List.Basic

namespace HomeConnect.Theory

set_option autoImplicit false

universe u v w

/-- How operations are carried out and refused, and what an entry stands for. -/
structure Scripting (F : Type → Type v) (S : Type u) (σ : Type w) where
  exec : ∀ {β : Type}, F β → S → β × S
  /-- The reply of an operation that is refused; `none` when it is not one that can be. -/
  refuse : ∀ {β : Type}, F β → Option β
  carry : σ → S → S
  /-- The script ends when the entry is refused. -/
  vital : σ → Bool
  /-- What an entry finds when its turn comes. -/
  ready : σ → S → Prop

namespace Scripting

variable {F : Type → Type v} {S : Type u} {σ : Type w} {ε α β : Type} (M : Scripting F S σ)

/-! ## One operation refused -/

/-- An operation of a run in which one is refused: the one after so many others, or none that
is still to come. -/
def step {β : Type} (f : F β) (s : S × Option Nat) : β × S × Option Nat :=
  match M.refuse f, s.2 with
  | some b, some 0 => (b, s.1, none)
  | some _, some (n + 1) => ((M.exec f s.1).1, (M.exec f s.1).2, some n)
  | _, left => ((M.exec f s.1).1, (M.exec f s.1).2, left)

def run (p : Prog F α) (n : Option Nat) (s : S) : α × S × Option Nat := p.run M.step (s, n)

@[simp] theorem run_ret (a : α) (n : Option Nat) (s : S) : M.run (.ret a) n s = (a, s, n) := rfl

theorem run_op {δ : Type} (f : F δ) (k : δ → Prog F α) (n : Option Nat) (s : S) :
    M.run (.op f k) n s = M.run (k (M.step f (s, n)).1) (M.step f (s, n)).2.2 (M.step f (s, n)).2.1 :=
  rfl

theorem run_bind (p : Prog F α) (g : α → Prog F β) (n : Option Nat) (s : S) :
    M.run (p >>= g) n s = M.run (g (M.run p n s).1) (M.run p n s).2.2 (M.run p n s).2.1 :=
  Prog.run_bind M.step p g (s, n)

theorem step_none {δ : Type} (f : F δ) (s : S) :
    M.step f (s, none) = ((M.exec f s).1, (M.exec f s).2, none) := by
  unfold step
  cases M.refuse f <;> rfl

theorem step_plain {δ : Type} {f : F δ} (plain : M.refuse f = none) (s : S) (n : Option Nat) :
    M.step f (s, n) = ((M.exec f s).1, (M.exec f s).2, n) := by
  unfold step
  rw [plain]

theorem step_refused {δ : Type} {f : F δ} {b : δ} (refusable : M.refuse f = some b) (s : S) :
    M.step f (s, some 0) = (b, s, none) := by
  unfold step
  rw [refusable]

theorem step_succ {δ : Type} {f : F δ} {b : δ} (refusable : M.refuse f = some b) (s : S) (n : Nat) :
    M.step f (s, some (n + 1)) = ((M.exec f s).1, (M.exec f s).2, some n) := by
  unfold step
  rw [refusable]

/-- Nothing is left to be refused. -/
theorem run_none (p : Prog F α) (s : S) :
    M.run p none s = ((p.run M.exec s).1, (p.run M.exec s).2, none) := by
  induction p generalizing s with
  | ret a => rfl
  | op f k ih =>
      rw [run_op, step_none]
      exact ih _ _

/-- Nothing of the program can be. -/
theorem run_plain {p : Prog F α} (plain : p.Uses fun f => M.refuse f = none) (n : Option Nat) (s : S) :
    M.run p n s = ((p.run M.exec s).1, (p.run M.exec s).2, n) := by
  induction p generalizing s with
  | ret a => rfl
  | op f k ih =>
      rw [run_op, step_plain M plain.1]
      exact ih _ (plain.2 _) _

/-- Nothing has been refused as long as the one to be is to come. -/
theorem run_exec {p : Prog F α} {n m : Nat} {s s' : S} {a : α}
    (ran : M.run p (some n) s = (a, s', some m)) : p.run M.exec s = (a, s') := by
  induction p generalizing n s with
  | ret b =>
      cases ran
      rfl
  | op f k ih =>
      rw [run_op] at ran
      cases refusable : M.refuse f with
      | none =>
          rw [step_plain M refusable] at ran
          exact ih _ ran
      | some b =>
          cases n with
          | zero =>
              rw [step_refused M refusable, run_none] at ran
              cases ran
          | succ n =>
              rw [step_succ M refusable] at ran
              exact ih _ ran

/-! ## Entries -/

/-- The entries that are carried out when the `n`-th is refused. -/
def left : List σ → Nat → List σ
  | [], _ => []
  | x :: l, 0 => if M.vital x then [] else l
  | x :: l, n + 1 => x :: left l n

def carried (l : List σ) (s : S) : S := l.foldl (fun s x => M.carry x s) s

/-- Each entry is carried out where it is ready. -/
def Goes : List σ → S → Prop
  | [], _ => True
  | x :: l, s => M.ready x s ∧ Goes l (M.carry x s)

@[simp] theorem carried_nil (s : S) : M.carried [] s = s := rfl

@[simp] theorem carried_cons (x : σ) (l : List σ) (s : S) :
    M.carried (x :: l) s = M.carried l (M.carry x s) := rfl

theorem carried_append (l m : List σ) (s : S) :
    M.carried (l ++ m) s = M.carried m (M.carried l s) := by
  simp [carried, List.foldl_append]

theorem goes_append {l m : List σ} {s : S} :
    M.Goes (l ++ m) s ↔ M.Goes l s ∧ M.Goes m (M.carried l s) := by
  induction l generalizing s with
  | nil => simp [Goes]
  | cons x l ih => simp [Goes, ih, and_assoc]

theorem left_sublist (l : List σ) (n : Nat) : (M.left l n).Sublist l := by
  induction l generalizing n with
  | nil => exact List.Sublist.refl _
  | cons x l ih =>
      cases n with
      | zero =>
          show (if M.vital x then [] else l).Sublist (x :: l)
          split
          · exact List.nil_sublist _
          · exact List.sublist_cons_self x l
      | succ n => exact (ih n).cons_cons x

theorem left_later (l m : List σ) (n : Nat) : M.left (l ++ m) (l.length + n) = l ++ M.left m n := by
  induction l with
  | nil => simp
  | cons x l ih =>
      rw [List.length_cons, Nat.add_right_comm, List.cons_append, left, ih]
      rfl

theorem left_of_vital {l : List σ} {n : Nat} {x : σ} (at_n : l[n]? = some x) (vital : M.vital x = true)
    (m : List σ) : M.left (l ++ m) n = M.left l n := by
  induction l generalizing n with
  | nil => simp at at_n
  | cons y l ih =>
      cases n with
      | zero =>
          obtain rfl : y = x := by simpa using at_n
          show (if M.vital y then [] else l ++ m) = if M.vital y then [] else l
          rw [if_pos vital, if_pos vital]
      | succ n =>
          show y :: M.left (l ++ m) n = y :: M.left l n
          rw [ih (by simpa using at_n)]

theorem left_of_spare {l : List σ} {n : Nat} {x : σ} (at_n : l[n]? = some x) (spare : M.vital x = false)
    (m : List σ) : M.left (l ++ m) n = M.left l n ++ m := by
  induction l generalizing n with
  | nil => simp at at_n
  | cons y l ih =>
      cases n with
      | zero =>
          obtain rfl : y = x := by simpa using at_n
          show (if M.vital y then [] else l ++ m) = (if M.vital y then [] else l) ++ m
          rw [spare]
          rfl
      | succ n =>
          show y :: M.left (l ++ m) n = y :: M.left l n ++ m
          rw [ih (by simpa using at_n)]
          rfl

/-! ## Scripts -/

/-- The program carries out the list, from where `I` holds to where `J` does. -/
structure Script (I J : S → Prop) (p : Prog F (Except ε α)) (r : Except ε α) (l : List σ) : Prop where
  whole : ∀ {s : S}, I s → ∀ n : Nat, M.run p (some (l.length + n)) s = (r, M.carried l s, some n)
  after : ∀ {s : S}, I s → J (M.carried l s) ∧ M.Goes l s
  refused : ∀ {s : S}, I s → ∀ {n : Nat} {x : σ}, l[n]? = some x → M.vital x = true →
    (∃ e, M.run p (some n) s = (.error e, M.carried (M.left l n) s, none)) ∧ M.Goes (M.left l n) s
  spared : ∀ {s : S}, I s → ∀ {n : Nat} {x : σ}, l[n]? = some x → M.vital x = false →
    M.run p (some n) s = (r, M.carried (M.left l n) s, none) ∧ J (M.carried (M.left l n) s) ∧
      M.Goes (M.left l n) s

namespace Script

variable {M} {I J K : S → Prop} {p : Prog F (Except ε α)} {r : Except ε α} {l m : List σ}

theorem exec (script : M.Script I J p r l) {s : S} (holds : I s) :
    p.run M.exec s = (r, M.carried l s) :=
  M.run_exec (script.whole holds 0)

/-- A run in which something was refused: it was an entry of the script. -/
theorem of_refused (script : M.Script I J p r l) {s s' : S} (holds : I s) {n : Nat} {a : Except ε α}
    (ran : M.run p (some n) s = (a, s', none)) :
    ∃ x, l[n]? = some x ∧ s' = M.carried (M.left l n) s ∧ M.Goes (M.left l n) s := by
  cases at_n : l[n]? with
  | none =>
      have late : l.length ≤ n := List.getElem?_eq_none_iff.1 at_n
      obtain ⟨k, rfl⟩ := Nat.exists_eq_add_of_le late
      rw [script.whole holds k] at ran
      cases ran
  | some x =>
      refine ⟨x, rfl, ?_⟩
      by_cases vital : M.vital x = true
      · obtain ⟨⟨e, stops⟩, goes⟩ := script.refused holds at_n vital
        rw [stops] at ran
        cases ran
        exact ⟨rfl, goes⟩
      · obtain ⟨passes, _, goes⟩ := script.spared holds at_n (Bool.eq_false_iff.2 vital)
        rw [passes] at ran
        cases ran
        exact ⟨rfl, goes⟩

theorem weaken {I' J' : S → Prop} (script : M.Script I J p r l) (before : ∀ s, I' s → I s)
    (after : ∀ s, J s → J' s) : M.Script I' J' p r l where
  whole holds := script.whole (before _ holds)
  after holds := ⟨after _ (script.after (before _ holds)).1, (script.after (before _ holds)).2⟩
  refused holds := script.refused (before _ holds)
  spared holds _ _ at_n spare := by
    obtain ⟨passes, later, goes⟩ := script.spared (before _ holds) at_n spare
    exact ⟨passes, after _ later, goes⟩

theorem ret (I : S → Prop) (r : Except ε α) : M.Script I I (.ret r) r [] where
  whole _ n := by
    rw [List.length_nil, Nat.zero_add]
    rfl
  after holds := ⟨holds, trivial⟩
  refused _ _ _ at_n := by simp at at_n
  spared _ _ _ at_n := by simp at at_n

/-- After a read the script is that of what was found. -/
theorem read {δ : Type} {f : F δ} {k : δ → Prog F (Except ε α)} (value : S → δ)
    (plain : M.refuse f = none) (reads : ∀ s, M.exec f s = (value s, s))
    (rest : ∀ s₀, I s₀ → M.Script (fun s => I s ∧ value s = value s₀) J (k (value s₀)) r l) :
    M.Script I J (.op f k) r l := by
  have same : ∀ n s, M.run (.op f k) n s = M.run (k (value s)) n s := by
    intro n s
    rw [run_op, step_plain M plain, reads s]
  constructor
  · intro s holds n
    rw [same, (rest s holds).whole ⟨holds, rfl⟩]
  · intro s holds
    exact (rest s holds).after ⟨holds, rfl⟩
  · intro s holds n x at_n vital
    rw [same]
    exact (rest s holds).refused ⟨holds, rfl⟩ at_n vital
  · intro s holds n x at_n spare
    rw [same]
    exact (rest s holds).spared ⟨holds, rfl⟩ at_n spare

/-- A write whose error ends the function. -/
theorem write {f : F (Except ε α)} {a : α} {e : ε} {x : σ} (refusable : M.refuse f = some (.error e))
    (vital : M.vital x = true)
    (carried : ∀ s, I s → M.exec f s = (.ok a, M.carry x s) ∧ M.ready x s ∧ J (M.carry x s)) :
    M.Script I J (.op f .ret) (.ok a) [x] := by
  constructor
  · intro s holds n
    rw [run_op, List.length_singleton, Nat.add_comm, step_succ M refusable, (carried s holds).1]
    rfl
  · intro s holds
    exact ⟨(carried s holds).2.2, (carried s holds).2.1, trivial⟩
  · intro s holds n y at_n _
    obtain ⟨rfl, rfl⟩ : n = 0 ∧ x = y := by
      cases n with
      | zero => exact ⟨rfl, by simpa using at_n⟩
      | succ n => simp at at_n
    have stops : M.left [x] 0 = [] := if_pos vital
    rw [stops]
    refine ⟨⟨e, ?_⟩, trivial⟩
    rw [run_op, step_refused M refusable]
    rfl
  · intro s holds n y at_n spare
    obtain rfl : x = y := by
      cases n with
      | zero => simpa using at_n
      | succ n => simp at at_n
    rw [vital] at spare
    cases spare

/-- A write whose error is discarded. -/
theorem attempt {δ : Type} {f : F δ} {a : α} {b : δ} {x : σ} (refusable : M.refuse f = some b)
    (spare : M.vital x = false) (stays : ∀ s, I s → J s)
    (carried : ∀ s, I s → (M.exec f s).2 = M.carry x s ∧ M.ready x s ∧ J (M.carry x s)) :
    M.Script I J (.op f fun _ => .ret (.ok a) : Prog F (Except ε α)) (.ok a) [x] := by
  constructor
  · intro s holds n
    rw [run_op, List.length_singleton, Nat.add_comm, step_succ M refusable, (carried s holds).1]
    rfl
  · intro s holds
    exact ⟨(carried s holds).2.2, (carried s holds).2.1, trivial⟩
  · intro s holds n y at_n vital
    obtain rfl : x = y := by
      cases n with
      | zero => simpa using at_n
      | succ n => simp at at_n
    rw [spare] at vital
    cases vital
  · intro s holds n y at_n _
    obtain ⟨rfl, rfl⟩ : n = 0 ∧ x = y := by
      cases n with
      | zero => exact ⟨rfl, by simpa using at_n⟩
      | succ n => simp at at_n
    have passes : M.left [x] 0 = [] := by
      show (if M.vital x then [] else []) = []
      rw [ite_self]
    rw [passes]
    refine ⟨?_, stays s holds, trivial⟩
    rw [run_op, step_refused M refusable]
    rfl

/-- One script after another. -/
theorem bind {k : Except ε α → Prog F (Except ε β)} {a : α} {r : Except ε β}
    (errors : ∀ e, k (.error e) = .ret (.error e)) (first : M.Script I J p (.ok a) l)
    (rest : M.Script J K (k (.ok a)) r m) : M.Script I K (p >>= k) r (l ++ m) := by
  constructor
  · intro s holds n
    rw [run_bind, List.length_append, Nat.add_assoc, first.whole holds, M.carried_append]
    exact rest.whole (first.after holds).1 n
  · intro s holds
    obtain ⟨between, goes⟩ := first.after holds
    rw [M.carried_append, M.goes_append]
    exact ⟨(rest.after between).1, goes, (rest.after between).2⟩
  · intro s holds n x at_n vital
    by_cases early : n < l.length
    · -- the first one ends
      rw [List.getElem?_append_left early] at at_n
      obtain ⟨⟨e, stops⟩, goes⟩ := first.refused holds at_n vital
      rw [M.left_of_vital at_n vital, run_bind, stops, errors]
      exact ⟨⟨e, rfl⟩, goes⟩
    · obtain ⟨k, rfl⟩ := Nat.exists_eq_add_of_le (Nat.le_of_not_lt early)
      rw [List.getElem?_append_right (by omega), Nat.add_sub_cancel_left] at at_n
      obtain ⟨between, goes⟩ := first.after holds
      obtain ⟨stops, goes'⟩ := rest.refused between at_n vital
      rw [M.left_later, run_bind, first.whole holds, M.carried_append, M.goes_append]
      exact ⟨stops, goes, goes'⟩
  · intro s holds n x at_n spare
    by_cases early : n < l.length
    · -- the second one runs on without the entry that was passed over
      rw [List.getElem?_append_left early] at at_n
      obtain ⟨passes, between, goes⟩ := first.spared holds at_n spare
      rw [M.left_of_spare at_n spare, run_bind, passes, M.carried_append, M.goes_append]
      refine ⟨?_, (rest.after between).1, goes, (rest.after between).2⟩
      dsimp only
      rw [M.run_none, rest.exec between]
    · obtain ⟨k, rfl⟩ := Nat.exists_eq_add_of_le (Nat.le_of_not_lt early)
      rw [List.getElem?_append_right (by omega), Nat.add_sub_cancel_left] at at_n
      obtain ⟨between, goes⟩ := first.after holds
      obtain ⟨passes, later, goes'⟩ := rest.spared between at_n spare
      rw [M.left_later, run_bind, first.whole holds, M.carried_append, M.goes_append]
      exact ⟨passes, later, goes, goes'⟩

/-- What comes after an error is not run. -/
theorem bind_error {k : Except ε α → Prog F (Except ε β)} {e : ε}
    (errors : ∀ e, k (.error e) = .ret (.error e)) (first : M.Script I J p (.error e) l) :
    M.Script I J (p >>= k) (.error e) l := by
  constructor
  · intro s holds n
    rw [run_bind, first.whole holds, errors]
    rfl
  · exact first.after
  · intro s holds n x at_n vital
    obtain ⟨⟨e', stops⟩, goes⟩ := first.refused holds at_n vital
    rw [run_bind, stops, errors]
    exact ⟨⟨e', rfl⟩, goes⟩
  · intro s holds n x at_n spare
    obtain ⟨passes, later, goes⟩ := first.spared holds at_n spare
    rw [run_bind, passes, errors]
    exact ⟨rfl, later, goes⟩

/-- The result is turned into another, an error into an error. -/
theorem map {h : Except ε α → Except ε β} (script : M.Script I J p r l)
    (errors : ∀ e, ∃ e', h (.error e) = .error e') :
    M.Script I J (p >>= fun r => .ret (h r)) (h r) l := by
  constructor
  · intro s holds n
    rw [run_bind, script.whole holds]
    rfl
  · exact script.after
  · intro s holds n x at_n vital
    obtain ⟨⟨e, stops⟩, goes⟩ := script.refused holds at_n vital
    obtain ⟨e', is⟩ := errors e
    rw [run_bind, stops]
    exact ⟨⟨e', congrArg (fun r => (r, _, none)) is⟩, goes⟩
  · intro s holds n x at_n spare
    obtain ⟨passes, later, goes⟩ := script.spared holds at_n spare
    rw [run_bind, passes]
    exact ⟨rfl, later, goes⟩

end Script

end Scripting

end HomeConnect.Theory
