/-
# Theory.Joined -- three parts joined by a double separator

`joined c head mid last` is `head`, `mid` and `last` with the separator `c` twice between
them.  When the middle part has no separator but perhaps a leading one (`Middle`), a list
that is joined in two ways either has the same parts in both, or one way lies inside the
other (`joined_eq_iff`): the longer head ends in what the shorter way has for its middle,
or takes one more separator.
-/
import Mathlib.Data.List.Basic

namespace HomeConnect.Theory

set_option autoImplicit false

universe u

variable {α : Type u} {c : α}

/-- `head`, `mid` and `last`, with two separators between each. -/
def joined (c : α) (head mid last : List α) : List α :=
  head ++ c :: c :: (mid ++ c :: c :: last)

/-- A middle part: something other than one separator, with none after its first element. -/
structure Middle (c : α) (mid : List α) : Prop where
  some : mid ≠ []
  clear : c ∉ mid.tail
  other : mid ≠ [c]

/-- The first way of joining lies inside the head and the middle of the second. -/
def Inside (c : α) (head mid last head' mid' last' : List α) : Prop :=
  (head' = head ++ [c] ∧ mid = c :: mid' ∧ last = last') ∨
  ∃ z, head' = head ++ c :: c :: (mid ++ z) ∧
    c :: c :: last = z ++ c :: c :: (mid' ++ c :: c :: last')

/-- A middle part ends at the first pair of separators after its first element. -/
theorem Middle.ends {mid rest last last' : List α} (middle : Middle c mid)
    (middle' : Middle c (mid ++ rest)) (same : c :: c :: last = rest ++ c :: c :: last') :
    rest = [] ∧ last = last' := by
  cases rest with
  | nil =>
      rw [List.nil_append, List.cons_inj_right, List.cons_inj_right] at same
      exact ⟨rfl, same⟩
  | cons x rest =>
      rw [List.cons_append, List.cons.injEq] at same
      obtain ⟨rfl, _⟩ := same
      obtain ⟨first, others, rfl⟩ := List.exists_cons_of_ne_nil middle.some
      refine (middle'.clear ?_).elim
      rw [List.cons_append, List.tail_cons]
      exact List.mem_append_right _ List.mem_cons_self

theorem Middle.unique {mid mid' last last' : List α} (middle : Middle c mid)
    (middle' : Middle c mid') (same : mid ++ c :: c :: last = mid' ++ c :: c :: last') :
    mid = mid' ∧ last = last' := by
  rcases List.append_eq_append_iff.1 same with ⟨rest, rfl, tails⟩ | ⟨rest, rfl, tails⟩
  · obtain ⟨rfl, rfl⟩ := middle.ends middle' tails
    exact ⟨(List.append_nil _).symm, rfl⟩
  · obtain ⟨rfl, rfl⟩ := middle'.ends middle tails
    exact ⟨List.append_nil _, rfl⟩

/-- A separator before a middle part can only be one that is its first element. -/
theorem Middle.shift {mid mid' last last' : List α} (middle : Middle c mid)
    (middle' : Middle c mid')
    (same : mid ++ c :: c :: last = c :: (mid' ++ c :: c :: last')) :
    mid = c :: mid' ∧ last = last' := by
  obtain ⟨first, rest, rfl⟩ := List.exists_cons_of_ne_nil middle.some
  rw [List.cons_append, List.cons.injEq] at same
  obtain ⟨rfl, same⟩ := same
  have clear : first ∉ rest := middle.clear
  have rest_middle : Middle first rest := by
    refine ⟨fun none => middle.other (by rw [none]), fun member => ?_, fun one => ?_⟩
    · exact clear (List.mem_of_mem_tail member)
    · exact clear (one ▸ List.mem_cons_self)
  obtain ⟨rfl, rfl⟩ := rest_middle.unique middle' same
  exact ⟨rfl, rfl⟩

/-- What a longer head takes from the other way's middle and last parts. -/
theorem Middle.ahead {mid mid' last last' u : List α} (middle : Middle c mid)
    (middle' : Middle c mid') :
    c :: c :: (mid ++ c :: c :: last) = u ++ c :: c :: (mid' ++ c :: c :: last') ↔
      (u = [] ∧ mid = mid' ∧ last = last') ∨ (u = [c] ∧ mid = c :: mid' ∧ last = last') ∨
      ∃ z, u = c :: c :: (mid ++ z) ∧ c :: c :: last = z ++ c :: c :: (mid' ++ c :: c :: last') := by
  constructor
  · intro same
    match u with
    | [] =>
        simp only [List.nil_append, List.cons_inj_right] at same
        obtain ⟨rfl, rfl⟩ := middle.unique middle' same
        exact .inl ⟨rfl, rfl, rfl⟩
    | [x] =>
        rw [List.singleton_append, List.cons.injEq, List.cons_inj_right] at same
        obtain ⟨rfl, same⟩ := same
        obtain ⟨rfl, rfl⟩ := middle.shift middle' same
        exact .inr (.inl ⟨rfl, rfl, rfl⟩)
    | x :: y :: v =>
        rw [List.cons_append, List.cons_append, List.cons.injEq, List.cons.injEq] at same
        obtain ⟨rfl, rfl, same⟩ := same
        refine .inr (.inr ?_)
        rcases List.append_eq_append_iff.1 same with ⟨z, rfl, tails⟩ | ⟨z, cut, tails⟩
        · exact ⟨z, rfl, tails⟩
        · cases z with
          | nil =>
              rw [List.append_nil] at cut
              exact ⟨[], by rw [cut, List.append_nil], tails.symm⟩
          | cons first rest =>
              -- the middle would hold the separators before the other one
              rw [List.cons_append, List.cons.injEq] at tails
              obtain ⟨rfl, tails⟩ := tails
              have member : c ∈ rest ∨ rest = [] := by
                cases rest with
                | nil => exact .inr rfl
                | cons second more =>
                    rw [List.cons_append, List.cons.injEq] at tails
                    exact .inl (tails.1 ▸ List.mem_cons_self)
              cases v with
              | nil =>
                  rw [List.nil_append] at cut
                  rcases member with inside | none
                  · exact (middle.clear (cut ▸ inside)).elim
                  · exact (middle.other (by rw [cut, none])).elim
              | cons head more =>
                  refine (middle.clear ?_).elim
                  rw [cut, List.cons_append, List.tail_cons]
                  exact List.mem_append_right _ List.mem_cons_self
  · rintro (⟨rfl, rfl, rfl⟩ | ⟨rfl, rfl, rfl⟩ | ⟨z, rfl, tails⟩)
    · rfl
    · rfl
    · rw [tails]
      simp

/-- **Two ways of joining** give the same list when the parts are the same, or when one
lies inside the other. -/
theorem joined_eq_iff {head mid last head' mid' last' : List α} (middle : Middle c mid)
    (middle' : Middle c mid') :
    joined c head mid last = joined c head' mid' last' ↔
      (head = head' ∧ mid = mid' ∧ last = last') ∨
      Inside c head mid last head' mid' last' ∨ Inside c head' mid' last' head mid last := by
  unfold joined Inside
  rw [List.append_eq_append_iff]
  constructor
  · rintro (⟨u, rfl, tails⟩ | ⟨u, rfl, tails⟩)
    · rcases (middle.ahead middle').1 tails with ⟨rfl, parts⟩ | ⟨rfl, parts⟩ | ⟨z, rfl, parts⟩
      · exact .inl ⟨(List.append_nil _).symm, parts⟩
      · exact .inr (.inl (.inl ⟨rfl, parts⟩))
      · exact .inr (.inl (.inr ⟨z, rfl, parts⟩))
    · rcases (middle'.ahead middle).1 tails with ⟨rfl, mids, lasts⟩ | ⟨rfl, parts⟩ | ⟨z, rfl, parts⟩
      · exact .inl ⟨List.append_nil _, mids.symm, lasts.symm⟩
      · exact .inr (.inr (.inl ⟨rfl, parts⟩))
      · exact .inr (.inr (.inr ⟨z, rfl, parts⟩))
  · rintro (⟨rfl, parts⟩ | (⟨rfl, parts⟩ | ⟨z, rfl, parts⟩) | ⟨rfl, parts⟩ | ⟨z, rfl, parts⟩)
    · exact .inl ⟨[], (List.append_nil _).symm, (middle.ahead middle').2 (.inl ⟨rfl, parts⟩)⟩
    · exact .inl ⟨[c], rfl, (middle.ahead middle').2 (.inr (.inl ⟨rfl, parts⟩))⟩
    · exact .inl ⟨_, rfl, (middle.ahead middle').2 (.inr (.inr ⟨z, rfl, parts⟩))⟩
    · exact .inr ⟨[c], rfl, (middle'.ahead middle).2 (.inr (.inl ⟨rfl, parts⟩))⟩
    · exact .inr ⟨_, rfl, (middle'.ahead middle).2 (.inr (.inr ⟨z, rfl, parts⟩))⟩

end HomeConnect.Theory
