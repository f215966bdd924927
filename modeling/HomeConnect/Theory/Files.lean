/-
# Theory.Files -- names, files, and what an open file refers to

A name refers to a file, and so does whoever opened it: renaming or removing a name does not
close the file, and writing through an open file changes whatever name refers to it by then.
`Files` keeps the two apart: `names` gives the file of a name, by number, and `data` what each
file holds.

* `create` opens a name for writing from the start: the file it refers to is emptied, or a
  new one is made.
* `write` puts one byte at an offset of an open file, whatever its name.
* `rename` moves a name over another, `remove` drops one; the file replaced or dropped lives
  on for those who have it open.
-/
import Mathlib.Data.List.Basic

namespace HomeConnect.Theory

set_option autoImplicit false
set_option linter.unusedSectionVars false

/-- No two names refer to one file, and every name to a file there is. -/
structure Files (π β : Type) where
  names : π → Option Nat
  data : List (List β)
  bound : ∀ {a x}, names a = some x → x < data.length
  apart : ∀ {a b x}, names a = some x → names b = some x → a = b

namespace Files

variable {π β : Type} [DecidableEq π] [Inhabited β]

def empty : Files π β where
  names := fun _ => none
  data := []
  bound := fun no => nomatch no
  apart := fun no => nomatch no

/-- What a file holds. -/
def bytes (f : Files π β) (x : Nat) : List β := f.data[x]?.getD []

def read (f : Files π β) (a : π) : Option (List β) := (f.names a).map f.bytes

/-- Put a byte at an offset; a hole before it reads as zeros. -/
def put_at (bytes : List β) (offset : Nat) (b : β) : List β :=
  bytes.take offset ++ List.replicate (offset - bytes.length) default ++ b :: bytes.drop (offset + 1)

/-- A file's contents replaced. -/
def set (f : Files π β) (x : Nat) (bytes : List β) : Files π β where
  names := f.names
  data := f.data.set x bytes
  bound := fun is => by
    rw [List.length_set]
    exact f.bound is
  apart := f.apart

/-- A new file under a name. -/
def link (f : Files π β) (a : π) : Files π β where
  names := fun b => if b = a then some f.data.length else f.names b
  data := f.data ++ [[]]
  bound := fun {b x} is => by
    rw [List.length_append, List.length_singleton]
    by_cases own : b = a
    · rw [if_pos own] at is
      cases is
      omega
    · rw [if_neg own] at is
      have old := f.bound is
      omega
  apart := fun {b c x} first second => by
    by_cases own : b = a <;> by_cases own' : c = a
    · rw [own, own']
    · rw [if_pos own] at first
      rw [if_neg own'] at second
      have old := f.bound second
      cases first
      omega
    · rw [if_neg own] at first
      rw [if_pos own'] at second
      have old := f.bound first
      cases second
      omega
    · rw [if_neg own] at first
      rw [if_neg own'] at second
      exact f.apart first second

/-- Open a name for writing, its file emptied or a new one made. -/
def create (f : Files π β) (a : π) : Files π β × Nat :=
  match f.names a with
  | some x => (f.set x [], x)
  | none => (f.link a, f.data.length)

/-- Write a byte to an open file. -/
def write (f : Files π β) (x offset : Nat) (b : β) : Files π β :=
  f.set x (put_at (f.bytes x) offset b)

/-- Drop a name. -/
def unlink (f : Files π β) (a : π) : Files π β where
  names := fun b => if b = a then none else f.names b
  data := f.data
  bound := fun {b x} is => by
    rw [Option.ite_none_left_eq_some] at is
    exact f.bound is.2
  apart := fun {b c x} first second => by
    rw [Option.ite_none_left_eq_some] at first second
    exact f.apart first.2 second.2

/-- Move a name over another; `none` when there is none. -/
def rename (f : Files π β) (a b : π) : Option (Files π β) :=
  match found : f.names a with
  | none => none
  | some x => some {
      names := fun c => if c = b then some x else if c = a then none else f.names c
      data := f.data
      bound := fun {c y} is => by
        by_cases target : c = b
        · rw [if_pos target] at is
          cases is
          exact f.bound found
        · rw [if_neg target, Option.ite_none_left_eq_some] at is
          exact f.bound is.2
      apart := fun {c d y} first second => by
        by_cases target : c = b <;> by_cases target' : d = b
        · rw [target, target']
        · rw [if_pos target] at first
          rw [if_neg target', Option.ite_none_left_eq_some] at second
          cases first
          exact (second.1 (f.apart second.2 found)).elim
        · rw [if_neg target, Option.ite_none_left_eq_some] at first
          rw [if_pos target'] at second
          cases second
          exact (first.1 (f.apart first.2 found)).elim
        · rw [if_neg target, Option.ite_none_left_eq_some] at first
          rw [if_neg target', Option.ite_none_left_eq_some] at second
          exact f.apart first.2 second.2 }

/-! ## What each operation changes -/

@[simp] theorem names_set (f : Files π β) (x : Nat) (bytes : List β) : (f.set x bytes).names = f.names :=
  rfl

@[simp] theorem length_set (f : Files π β) (x : Nat) (bytes : List β) :
    (f.set x bytes).data.length = f.data.length := by
  show (f.data.set x bytes).length = _
  rw [List.length_set]

theorem bytes_set (f : Files π β) {x : Nat} (bytes : List β) (there : x < f.data.length) :
    (f.set x bytes).bytes x = bytes := by
  show ((f.data.set x bytes)[x]?).getD [] = bytes
  rw [List.getElem?_set_self there]
  rfl

theorem bytes_set_ne (f : Files π β) {x y : Nat} (bytes : List β) (ne : y ≠ x) :
    (f.set x bytes).bytes y = f.bytes y := by
  show ((f.data.set x bytes)[y]?).getD [] = _
  rw [List.getElem?_set_ne (Ne.symm ne)]
  rfl

@[simp] theorem names_write (f : Files π β) (x offset : Nat) (b : β) :
    (f.write x offset b).names = f.names := rfl

@[simp] theorem length_write (f : Files π β) (x offset : Nat) (b : β) :
    (f.write x offset b).data.length = f.data.length := length_set f x _

theorem bytes_write_ne (f : Files π β) {x y : Nat} (offset : Nat) (b : β) (ne : y ≠ x) :
    (f.write x offset b).bytes y = f.bytes y := bytes_set_ne f _ ne

/-- Writing at the end appends. -/
theorem bytes_write_end {f : Files π β} {x offset : Nat} {written : List β} (b : β)
    (there : x < f.data.length) (holds : f.bytes x = written) (last : offset = written.length) :
    (f.write x offset b).bytes x = written ++ [b] := by
  rw [write, bytes_set f _ there, holds, last, put_at]
  simp

/-- What opening a name for writing does: the file is empty, the name refers to it, and it is
the one the name referred to or a new one; every other name and file is as before. -/
structure Created (f : Files π β) (a : π) (g : Files π β) (x : Nat) : Prop where
  names : ∀ b, g.names b = if b = a then some x else f.names b
  own : g.bytes x = []
  others : ∀ {y}, y ≠ x → g.bytes y = f.bytes y
  bound : x < g.data.length
  grows : f.data.length ≤ g.data.length
  origin : f.names a = some x ∨ f.names a = none ∧ f.data.length ≤ x

theorem created (f : Files π β) (a : π) : Created f a (f.create a).1 (f.create a).2 := by
  unfold create
  split
  · rename_i x found
    refine ⟨fun b => ?_, bytes_set f [] (f.bound found), fun ne => bytes_set_ne f [] ne, ?_, ?_,
      .inl found⟩
    · by_cases own : b = a
      · rw [if_pos own, own]
        exact found
      · rw [if_neg own]
        rfl
    · show x < (f.set x []).data.length
      rw [length_set]
      exact f.bound found
    · show f.data.length ≤ (f.set x []).data.length
      exact Nat.le_of_eq (length_set f x []).symm
  · rename_i found
    have length : (f.link a).data.length = f.data.length + 1 := by
      show (f.data ++ [[]]).length = _
      rw [List.length_append, List.length_singleton]
    refine ⟨fun b => rfl, ?_, fun {y} ne => ?_, ?_, ?_, .inr ⟨found, Nat.le_refl _⟩⟩
    · show ((f.data ++ [[]])[f.data.length]?).getD [] = []
      rw [List.getElem?_append_right (Nat.le_refl _), Nat.sub_self]
      rfl
    · show ((f.data ++ [[]])[y]?).getD [] = (f.data[y]?).getD []
      rcases Nat.lt_or_gt_of_ne ne with less | more
      · rw [List.getElem?_append_left less]
      · have past : (f.data ++ [[]]).length ≤ y := length ▸ more
        have past' : f.data.length ≤ y := Nat.le_of_lt more
        rw [List.getElem?_eq_none past, List.getElem?_eq_none past']
    · show f.data.length < (f.link a).data.length
      omega
    · show f.data.length ≤ (f.link a).data.length
      omega

/-- An open file other than the name's own is untouched. -/
theorem Created.ne {f g : Files π β} {a : π} {x y : Nat} (made : Created f a g x)
    (there : y < f.data.length) (other : f.names a ≠ some y) : y ≠ x := by
  rintro rfl
  rcases made.origin with same | ⟨_, new⟩
  · exact other same
  · omega

/-- What a rename does. -/
theorem rename_eq_some {f g : Files π β} {a b : π} (renamed : f.rename a b = some g) :
    ∃ x, f.names a = some x ∧
      (∀ c, g.names c = if c = b then some x else if c = a then none else f.names c) ∧
      g.bytes = f.bytes ∧ g.data.length = f.data.length := by
  unfold rename at renamed
  split at renamed
  · cases renamed
  · rename_i x found
    cases renamed
    exact ⟨x, found, fun _ => rfl, rfl, rfl⟩

@[simp] theorem names_unlink (f : Files π β) (a b : π) :
    (f.unlink a).names b = if b = a then none else f.names b := rfl

@[simp] theorem bytes_unlink (f : Files π β) (a : π) : (f.unlink a).bytes = f.bytes := rfl

@[simp] theorem length_unlink (f : Files π β) (a : π) : (f.unlink a).data.length = f.data.length := rfl

end Files

end HomeConnect.Theory
