/-
# Theory.Windows -- pieces of a line

Pieces laid end to end, a list cut into windows of one width or sorted into groups by a key,
and a loop that handles one window after another until one is past the end or fails.

* `endToEnd_iff` -- that every piece starts where those before it end is a condition on
  neighbours.
* `flatten_windows` -- the first `n` windows, put together, are a prefix.
* `groups_perm` -- the groups of different keys, put together, are the list again.
* `collect_ok_iff` -- what a loop over windows collected says about each of its rounds.
-/
import Mathlib.Algebra.BigOperators.Group.List.Basic
import Mathlib.Data.List.Chain
import Mathlib.Tactic.Abel

namespace HomeConnect.Theory

set_option autoImplicit false

universe u v

/-! ## Pieces laid end to end -/

section EndToEnd

variable {α : Type u} {G : Type v} [AddCommGroup G] {start len : α → G}

/-- Every piece starts where the pieces before it end, the first at `origin`. -/
def EndToEnd (start len : α → G) (origin : G) (xs : List α) : Prop :=
  ∀ before x after, xs = before ++ x :: after → (before.map len).sum + origin = start x

theorem endToEnd_nil (origin : G) : EndToEnd start len origin [] := by
  intro before x after split
  simp at split

theorem endToEnd_cons {origin : G} {x : α} {xs : List α} :
    EndToEnd start len origin (x :: xs) ↔
      start x = origin ∧ EndToEnd start len (origin + len x) xs := by
  constructor
  · intro laid
    refine ⟨?_, ?_⟩
    · have first := laid [] x xs rfl
      simpa using first.symm
    · intro before y after split
      have later := laid (x :: before) y after (by rw [split, List.cons_append])
      rw [List.map_cons, List.sum_cons] at later
      rw [← later]
      abel
  · rintro ⟨first, laid⟩ before y after split
    cases before with
    | nil =>
        cases split
        simpa using first.symm
    | cons z before =>
        cases split
        have later := laid before y after rfl
        rw [List.map_cons, List.sum_cons, ← later]
        abel

/-- Pieces are laid end to end when the first is at the origin and each of the others is
where the one before it ends. -/
theorem endToEnd_iff {origin : G} {xs : List α} :
    EndToEnd start len origin xs ↔
      (∀ x ∈ xs.head?, start x = origin) ∧ xs.IsChain fun x y => start y = start x + len x := by
  induction xs generalizing origin with
  | nil =>
      constructor
      · intro _
        exact ⟨by simp, .nil⟩
      · intro _
        exact endToEnd_nil origin
  | cons x xs ih =>
      rw [endToEnd_cons, ih]
      cases xs with
      | nil => simp
      | cons y rest =>
          simp only [List.head?_cons, Option.mem_some_iff, forall_eq', List.isChain_cons_cons]
          constructor
          · rintro ⟨first, second, chain⟩
            exact ⟨first, by rw [second, first], chain⟩
          · rintro ⟨first, second, chain⟩
            exact ⟨first, by rw [second, first], chain⟩

end EndToEnd

/-! ## Windows of a list -/

section Window

variable {α : Type u} {width : Nat}

/-- The `k`-th window of a list. -/
def window (width : Nat) (xs : List α) (k : Nat) : List α := (xs.drop (k * width)).take width

theorem length_window (xs : List α) (k : Nat) :
    (window width xs k).length = min width (xs.length - k * width) := by
  rw [window, List.length_take, List.length_drop]

theorem flatten_windows (xs : List α) (n : Nat) :
    ((List.range n).map (window width xs)).flatten = xs.take (n * width) := by
  induction n with
  | zero => simp
  | succ n ih =>
      rw [List.range_succ, List.map_append, List.flatten_append, ih, Nat.succ_mul, List.take_add]
      simp [window]

end Window

/-! ## Groups of a list -/

section Groups

variable {α : Type u} {κ : Type v} [DecidableEq κ]

/-- The groups of a list by their keys, in whatever order the keys come. -/
theorem groups_perm (key : α → κ) {keys : List κ} (nodup : keys.Nodup) {xs : List α}
    (covered : ∀ x ∈ xs, key x ∈ keys) :
    (keys.flatMap fun k => xs.filter fun x => decide (key x = k)).Perm xs := by
  induction keys generalizing xs with
  | nil =>
      have none : xs = [] := by
        apply List.eq_nil_iff_forall_not_mem.2
        intro x member
        simpa using covered x member
      simp [none]
  | cons k keys ih =>
      obtain ⟨fresh, nodup⟩ := List.nodup_cons.1 nodup
      let others := xs.filter fun x => !decide (key x = k)
      -- the groups of the other keys lie in what this one leaves
      have later : ∀ k' ∈ keys, (xs.filter fun x => decide (key x = k')) =
          others.filter fun x => decide (key x = k') := by
        intro k' member
        have apart : k' ≠ k := by
          rintro rfl
          exact fresh member
        rw [List.filter_filter]
        apply List.filter_congr
        intro x _
        by_cases at' : key x = k' <;> simp [at', apart]
      have rest : (keys.flatMap fun k => others.filter fun x => decide (key x = k)).Perm others := by
        apply ih nodup
        intro x member
        obtain ⟨among, apart⟩ := List.mem_filter.1 member
        have here := covered x among
        simp at apart
        simpa [apart] using here
      rw [List.flatMap_cons]
      refine .trans (.append_left _ ?_) (List.filter_append_perm (fun x => decide (key x = k)) xs)
      exact .trans (.flatMap_left _ fun k' member => .of_eq (later k' member)) rest

end Groups

/-! ## A loop over windows -/

section Collect

variable {ε : Type u} {β : Type v}

/-- What became of one window. -/
inductive Round (ε : Type u) (β : Type v)
  /-- There is nothing here: the loop ends. -/
  | past
  | failed (e : ε)
  | got (b : β)

/-- Go through `rounds` windows from `first` on. -/
def collect (round : Nat → Round ε β) : (rounds first : Nat) → Except ε (List β)
  | 0, _ => .ok []
  | rounds + 1, first =>
      match round first with
      | .past => .ok []
      | .failed e => .error e
      | .got b => (collect round rounds (first + 1)).map fun rest => b :: rest

variable {round : Nat → Round ε β}

/-- The loop can end after `m` windows: each of them gave something, and there are no more
rounds or the next window is past the end. -/
structure Stops (round : Nat → Round ε β) (rounds first m : Nat) : Prop where
  within : m ≤ rounds
  before : ∀ k < m, ∃ b, round (first + k) = .got b
  here : m = rounds ∨ round (first + m) = .past

/-- What the windows gave, in order. -/
def values (round : Nat → Round ε β) (first m : Nat) : List β :=
  (List.range' first m).filterMap fun k =>
    match round k with
    | .got b => some b
    | _ => none

theorem values_succ {first m : Nat} {b : β} (got : round first = .got b) :
    values round first (m + 1) = b :: values round (first + 1) m := by
  rw [values, List.range'_succ, List.filterMap_cons, got]
  rfl

theorem Stops.succ {rounds first m : Nat} {b : β} (got : round first = .got b) :
    Stops round (rounds + 1) first (m + 1) ↔ Stops round rounds (first + 1) m := by
  constructor
  · rintro ⟨within, before, here⟩
    refine ⟨by omega, ?_, ?_⟩
    · intro k below
      have earlier := before (k + 1) (by omega)
      rwa [show first + (k + 1) = first + 1 + k by omega] at earlier
    · rw [show first + (m + 1) = first + 1 + m by omega] at here
      rcases here with last | past
      · exact .inl (by omega)
      · exact .inr past
  · rintro ⟨within, before, here⟩
    refine ⟨by omega, ?_, ?_⟩
    · intro k below
      cases k with
      | zero => exact ⟨b, got⟩
      | succ k =>
          rw [show first + (k + 1) = first + 1 + k by omega]
          exact before k (by omega)
    · rw [show first + (m + 1) = first + 1 + m by omega]
      rcases here with last | past
      · exact .inl (by omega)
      · exact .inr past

/-- The loop collects what the windows gave up to where it can end. -/
theorem collect_ok_iff {rounds first : Nat} {bs : List β} :
    collect round rounds first = .ok bs ↔
      ∃ m, Stops round rounds first m ∧ bs = values round first m := by
  induction rounds generalizing first bs with
  | zero =>
      constructor
      · intro ran
        cases ran
        exact ⟨0, ⟨Nat.le_refl 0, fun k below => (Nat.not_lt_zero k below).elim, .inl rfl⟩, rfl⟩
      · rintro ⟨m, stops, rfl⟩
        have none : m = 0 := Nat.le_zero.1 stops.within
        rw [none]
        rfl
  | succ rounds ih =>
      rw [collect]
      cases here : round first with
      | past =>
          constructor
          · intro ran
            cases ran
            exact ⟨0, ⟨Nat.zero_le _, fun k below => (Nat.not_lt_zero k below).elim, .inr here⟩, rfl⟩
          · rintro ⟨m, stops, rfl⟩
            cases m with
            | zero => rfl
            | succ m =>
                obtain ⟨b, got⟩ := stops.before 0 (by omega)
                rw [Nat.add_zero, here] at got
                cases got
      | failed e =>
          constructor
          · intro ran
            cases ran
          · rintro ⟨m, stops, _⟩
            cases m with
            | zero =>
                rcases stops.here with none | past
                · omega
                · rw [Nat.add_zero, here] at past
                  cases past
            | succ m =>
                obtain ⟨b, got⟩ := stops.before 0 (by omega)
                rw [Nat.add_zero, here] at got
                cases got
      | got b =>
          constructor
          · intro ran
            cases rest : collect round rounds (first + 1) with
            | error e =>
                rw [rest] at ran
                cases ran
            | ok l =>
                rw [rest] at ran
                cases ran
                obtain ⟨m, stops, rfl⟩ := ih.1 rest
                exact ⟨m + 1, (Stops.succ here).2 stops, (values_succ here).symm⟩
          · rintro ⟨m, stops, rfl⟩
            cases m with
            | zero =>
                rcases stops.here with none | past
                · omega
                · rw [Nat.add_zero, here] at past
                  cases past
            | succ m =>
                have rest := ih.2 ⟨m, (Stops.succ here).1 stops, rfl⟩
                rw [values_succ here]
                simp only [rest]
                rfl

/-- There is one place to end. -/
theorem Stops.unique {rounds first m m' : Nat} (stops : Stops round rounds first m)
    (stops' : Stops round rounds first m') : m = m' := by
  have least : ∀ {a b : Nat}, Stops round rounds first a → Stops round rounds first b → ¬ a < b := by
    intro a b at_a at_b less
    rcases at_a.here with last | past
    · have := at_b.within
      omega
    · obtain ⟨v, got⟩ := at_b.before a less
      rw [past] at got
      cases got
  have one := least stops stops'
  have two := least stops' stops
  omega

theorem length_values {rounds first m : Nat} (stops : Stops round rounds first m) :
    (values round first m).length = m := by
  induction m generalizing rounds first with
  | zero => rfl
  | succ m ih =>
      obtain ⟨b, got⟩ := stops.before 0 (by omega)
      rw [Nat.add_zero] at got
      cases rounds with
      | zero =>
          have := stops.within
          omega
      | succ rounds =>
          rw [values_succ got, List.length_cons, ih ((Stops.succ got).1 stops)]

/-- Where what a window gave is known by a function, the values are the function's. -/
theorem map_values {f : Nat → Option β} {first m : Nat}
    (known : ∀ k b, round k = .got b → f k = some b)
    (before : ∀ k < m, ∃ b, round (first + k) = .got b) :
    (List.range' first m).map f = (values round first m).map some := by
  induction m generalizing first with
  | zero => rfl
  | succ m ih =>
      obtain ⟨b, here⟩ := before 0 (by omega)
      rw [Nat.add_zero] at here
      rw [values_succ here, List.range'_succ, List.map_cons, List.map_cons, known _ _ here, ih]
      intro k below
      obtain ⟨b', later⟩ := before (k + 1) (by omega)
      rw [show first + (k + 1) = first + 1 + k by omega] at later
      exact ⟨b', later⟩

end Collect

end HomeConnect.Theory
