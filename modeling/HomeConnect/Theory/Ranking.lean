/-
# Theory.Ranking -- what sorting puts in the first places

A query that keeps the best `n` rows sorts them by a total preorder and takes `n`; the rest
is what it leaves out.  The sort may put tied elements in any order, so what can be said of
the first `n` places from the order alone is whether some element tied with `k` is among
them (`exists_tied_take`), and whether some element tied with `d` is not
(`exists_tied_drop`): a matter of counting the elements before `k` and those up to `d`.

`left_out_never_beats_iff` compares the order with another relation: when is nothing that is
left out better, by that relation, than something that is kept?
-/
import Mathlib.Data.List.Sort

namespace HomeConnect.Theory

set_option autoImplicit false

universe u

variable {α : Type u}

namespace Ranking

section Counts

variable (r : α → α → Prop)

/-- Neither comes strictly before the other. -/
def Tied (a b : α) : Prop := r a b ∧ r b a

variable [DecidableRel r]

/-- The elements ranked strictly before `k`. -/
def before (xs : List α) (k : α) : Nat := xs.countP fun x => !decide (r k x)

/-- The elements ranked no later than `d`. -/
def upTo (xs : List α) (d : α) : Nat := xs.countP fun x => decide (r x d)

theorem upTo_le_length (xs : List α) (d : α) : upTo r xs d ≤ xs.length := List.countP_le_length

end Counts

section Sorted

variable {r : α → α → Prop} {ys : List α} {p : α → Bool}

/-- A property that passes to earlier elements holds of a prefix. -/
theorem filter_eq_take (sorted : ys.Pairwise r) (earlier : ∀ a b, r a b → p b = true → p a = true) :
    ys.filter p = ys.take (ys.countP p) ∧ ys.filter (fun x => !p x) = ys.drop (ys.countP p) := by
  induction ys with
  | nil => exact ⟨rfl, rfl⟩
  | cons a ys ih =>
      obtain ⟨first, rest⟩ := List.pairwise_cons.1 sorted
      obtain ⟨kept, left⟩ := ih rest
      by_cases h : p a = true
      · simp [h, kept, left]
      · have none : ∀ b ∈ ys, ¬ p b = true := fun b member hb => h (earlier a b (first b member) hb)
        have zero : ys.countP p = 0 := List.countP_eq_zero.2 none
        have all : ys.filter (fun x => !p x) = ys := by
          rw [List.filter_eq_self]
          intro b member
          simp [none b member]
        simp [h, zero, all, List.filter_eq_nil_iff.2 none]

theorem of_mem_take {n : Nat} {x : α} (sorted : ys.Pairwise r)
    (earlier : ∀ a b, r a b → p b = true → p a = true) (low : n ≤ ys.countP p)
    (member : x ∈ ys.take n) : p x = true := by
  have more : x ∈ ys.take (ys.countP p) := List.take_subset_take_left ys low member
  rw [← (filter_eq_take sorted earlier).1] at more
  exact (List.mem_filter.1 more).2

theorem of_mem_drop {n : Nat} {x : α} (sorted : ys.Pairwise r)
    (earlier : ∀ a b, r a b → p b = true → p a = true) (high : ys.countP p ≤ n)
    (member : x ∈ ys.drop n) : p x = false := by
  have more : x ∈ ys.drop (ys.countP p) := List.drop_subset_drop_left ys high member
  rw [← (filter_eq_take sorted earlier).2] at more
  simpa using (List.mem_filter.1 more).2

end Sorted

section Places

variable {r : α → α → Prop} [DecidableRel r] {ys : List α} {n : Nat} {k d : α}

theorem earlier_before [IsTrans α r] (k a b : α) (le : r a b) (h : (!decide (r k b)) = true) :
    (!decide (r k a)) = true := by
  simp only [Bool.not_eq_true', decide_eq_false_iff_not] at h ⊢
  intro ka
  exact h (Trans.trans ka le)

theorem earlier_upTo [IsTrans α r] (d a b : α) (le : r a b) (h : decide (r b d) = true) :
    decide (r a d) = true := by
  rw [decide_eq_true_eq] at h ⊢
  exact Trans.trans le h

/-- The elements in the places from `before` to `upTo` are the tied ones. -/
theorem tied_of_place [IsTrans α r] (sorted : ys.Pairwise r) {i : Nat} (bound : i < ys.length)
    (low : before r ys k ≤ i) (high : i < upTo r ys k) : Tied r ys[i] k := by
  have first : ys[i] ∈ ys.take (i + 1) := by
    rw [List.mem_take_iff_getElem]
    exact ⟨i, by omega, rfl⟩
  have last : ys[i] ∈ ys.drop i := by
    rw [List.mem_drop_iff_getElem]
    exact ⟨0, by omega, by simp⟩
  have le := of_mem_take sorted (earlier_upTo k) high first
  have ge := of_mem_drop sorted (earlier_before k) low last
  simp only [Bool.not_eq_false', decide_eq_true_eq] at le ge
  exact ⟨le, ge⟩

variable [Std.Total r]

theorem rel_refl (r : α → α → Prop) [Std.Total r] (a : α) : r a a :=
  (Std.Total.total a a).elim id id

/-- The element itself is up to itself and not before itself. -/
theorem before_lt_upTo (member : k ∈ ys) : before r ys k < upTo r ys k := by
  have refl := rel_refl r k
  induction ys with
  | nil => cases member
  | cons a ys ih =>
      have weaker : ∀ x ∈ ys, (!decide (r k x)) = true → decide (r x k) = true := by
        intro x _ h
        simp only [Bool.not_eq_true', decide_eq_false_iff_not] at h
        exact decide_eq_true ((Std.Total.total k x).resolve_left h)
      have mono := List.countP_mono_left weaker
      rcases List.mem_cons.1 member with rfl | later
      · simp only [before, upTo, List.countP_cons, refl]
        simp only [decide_true, Bool.not_true, Bool.false_eq_true, if_false, if_true]
        omega
      · have tail := ih later
        simp only [before, upTo, List.countP_cons] at tail ⊢
        by_cases h : r k a
        · simp only [h, decide_true, Bool.not_true, Bool.false_eq_true, if_false]
          omega
        · have other : r a k := (Std.Total.total k a).resolve_left h
          simp only [h, other, decide_false, decide_true, Bool.not_false, if_true]
          omega

variable [IsTrans α r]

/-- Something tied with `k` is in the first `n` places. -/
theorem exists_tied_take (sorted : ys.Pairwise r) (member : k ∈ ys) :
    (∃ x ∈ ys.take n, Tied r x k) ↔ before r ys k < n := by
  constructor
  · rintro ⟨x, taken, tied⟩
    by_contra late
    have first := of_mem_take sorted (earlier_before k) (Nat.le_of_not_lt late) taken
    simp only [Bool.not_eq_true', decide_eq_false_iff_not] at first
    exact first tied.2
  · intro early
    have room := before_lt_upTo (r := r) member
    have bound : before r ys k < ys.length := Nat.lt_of_lt_of_le room (upTo_le_length r ys k)
    refine ⟨ys[before r ys k], ?_, tied_of_place sorted bound (Nat.le_refl _) room⟩
    rw [List.mem_take_iff_getElem]
    exact ⟨before r ys k, by omega, rfl⟩

/-- Something tied with `d` is left out of the first `n` places. -/
theorem exists_tied_drop (sorted : ys.Pairwise r) (member : d ∈ ys) :
    (∃ x ∈ ys.drop n, Tied r x d) ↔ n < upTo r ys d := by
  constructor
  · rintro ⟨x, dropped, tied⟩
    by_contra late
    have last := of_mem_drop sorted (earlier_upTo d) (Nat.le_of_not_lt late) dropped
    rw [decide_eq_false_iff_not] at last
    exact last tied.1
  · intro late
    have room := before_lt_upTo (r := r) member
    have length := upTo_le_length r ys d
    have bound : upTo r ys d - 1 < ys.length := by omega
    refine ⟨ys[upTo r ys d - 1], ?_, tied_of_place sorted bound (by omega) (by omega)⟩
    rw [List.mem_drop_iff_getElem]
    exact ⟨upTo r ys d - 1 - n, by omega, by congr 1; omega⟩

end Places

/-! ## Sorting -/

section Limits

variable (r : α → α → Prop) [DecidableRel r] [IsTrans α r] [Std.Total r] {xs : List α}
  {beats : α → α → Prop}

/-- **What is left out.**  Nothing left out of the first `n` places beats anything in them
exactly when each pair of elements of which one beats the other is not parted by the limit. -/
theorem left_out_never_beats_iff (xs : List α) (n : Nat)
    (respects : ∀ d d' k k', Tied r d d' → Tied r k k' → beats d k → beats d' k') :
    (∀ d ∈ (xs.insertionSort r).drop n, ∀ k ∈ (xs.insertionSort r).take n, ¬ beats d k) ↔
      ∀ d ∈ xs, ∀ k ∈ xs, beats d k → ¬ (before r xs k < n ∧ n < upTo r xs d) := by
  have sorted := List.pairwise_insertionSort r xs
  have perm := List.perm_insertionSort r xs
  have refl : ∀ a, Tied r a a := fun a => ⟨rel_refl r a, rel_refl r a⟩
  have symm : ∀ a b, Tied r a b → Tied r b a := fun a b tied => ⟨tied.2, tied.1⟩
  have early : ∀ k, before r (xs.insertionSort r) k = before r xs k := fun k =>
    perm.countP_eq _
  have late : ∀ d, upTo r (xs.insertionSort r) d = upTo r xs d := fun d => perm.countP_eq _
  constructor
  · rintro never d hd k hk better ⟨kept, left⟩
    rw [← early] at kept
    rw [← late] at left
    obtain ⟨k', taken, tiedK⟩ := (exists_tied_take sorted (perm.mem_iff.2 hk)).2 kept
    obtain ⟨d', dropped, tiedD⟩ := (exists_tied_drop sorted (perm.mem_iff.2 hd)).2 left
    exact never d' dropped k' taken
      (respects d d' k k' (symm d' d tiedD) (symm k' k tiedK) better)
  · intro apart d dropped k taken better
    have hd := List.mem_of_mem_drop dropped
    have hk := List.mem_of_mem_take taken
    refine apart d (perm.mem_iff.1 hd) k (perm.mem_iff.1 hk) better ⟨?_, ?_⟩
    · rw [← early]
      exact (exists_tied_take sorted hk).1 ⟨k, taken, refl k⟩
    · rw [← late]
      exact (exists_tied_drop sorted hd).1 ⟨d, dropped, refl d⟩

/-- The first element is one of the least. -/
theorem least_of_head {x : α} (first : (xs.insertionSort r).head? = some x) :
    x ∈ xs ∧ ∀ y ∈ xs, r x y := by
  obtain ⟨rest, cons⟩ := List.head?_eq_some_iff.1 first
  have sorted := List.pairwise_insertionSort r xs
  have perm := List.perm_insertionSort r xs
  rw [cons] at sorted perm
  refine ⟨perm.mem_iff.1 List.mem_cons_self, fun y member => ?_⟩
  rcases List.mem_cons.1 (perm.mem_iff.2 member) with rfl | later
  · exact rel_refl r y
  · exact List.rel_of_pairwise_cons sorted later

/-- What the first element is like, when tied elements are alike: every least one is. -/
theorem head_iff (xs : List α) {P : α → Prop} (respects : ∀ a b, Tied r a b → P a → P b) :
    (∀ x, (xs.insertionSort r).head? = some x → P x) ↔
      ∀ x ∈ xs, (∀ y ∈ xs, r x y) → P x := by
  constructor
  · intro first x member least
    cases found : (xs.insertionSort r).head? with
    | none =>
        have empty := List.head?_eq_none_iff.1 found
        have back := (List.perm_insertionSort r xs).mem_iff.2 member
        rw [empty] at back
        cases back
    | some y =>
        obtain ⟨hy, least'⟩ := least_of_head r found
        exact respects y x ⟨least' x member, least y hy⟩ (first y found)
  · intro every x found
    obtain ⟨member, least⟩ := least_of_head r found
    exact every x member least

end Limits

end Ranking

end HomeConnect.Theory
