/-
# Theory.Rises -- counting the rising edges of a signal, whole and in parts

A signal is a list of Booleans, and `rises before xs` counts the places where it goes
up, from the value it had before.  Counted over a whole signal and over its parts, each
from a fresh start, the two sums differ in two ways only (`rises_parts`): the whole also
counts what rises in the seams between the parts, and the parts also count those that
begin with the signal already up.
-/
import Mathlib.Algebra.BigOperators.Group.List.Basic
import Mathlib.Algebra.Order.Field.Rat
import Mathlib.Tactic.Common

namespace HomeConnect.Theory

set_option autoImplicit false

/-- How often a signal goes up, from what it was before. -/
def rises : Bool → List Bool → Nat
  | _, [] => 0
  | before, x :: xs => (if x && !before then 1 else 0) + rises x xs

/-- What a signal is at its end, from what it was before. -/
def level : Bool → List Bool → Bool
  | before, [] => before
  | _, x :: xs => level x xs

/-- Does a signal start up? -/
def starts_up (xs : List Bool) : Bool := xs.head?.getD false

@[simp] theorem rises_nil (before : Bool) : rises before [] = 0 := rfl

@[simp] theorem level_nil (before : Bool) : level before [] = before := rfl

@[simp] theorem level_cons (before x : Bool) (xs : List Bool) : level before (x :: xs) = level x xs := rfl

theorem rises_append (before : Bool) (xs ys : List Bool) :
    rises before (xs ++ ys) = rises before xs + rises (level before xs) ys := by
  induction xs generalizing before with
  | nil => simp
  | cons x xs ih =>
      show _ + rises x (xs ++ ys) = _ + rises x xs + rises (level x xs) ys
      rw [ih]
      omega

theorem level_append (before : Bool) (xs ys : List Bool) :
    level before (xs ++ ys) = level (level before xs) ys := by
  induction xs generalizing before with
  | nil => rfl
  | cons x xs ih => exact ih x

/-- Started afresh, a signal counts one rise more when it was up before and goes on. -/
theorem rises_fresh (before : Bool) (xs : List Bool) :
    rises before xs + (if before && starts_up xs then 1 else 0) = rises false xs := by
  cases xs with
  | nil => simp [starts_up]
  | cons x xs =>
      unfold rises starts_up
      cases before <;> cases x <;> simp
      omega

/-! ## A signal in parts

A part is what happens in the seam before it, and what happens inside. -/

/-- How often the signal goes up in a seam. -/
def seam_rises : Bool → List (List Bool × List Bool) → Nat
  | _, [] => 0
  | before, part :: parts =>
      rises before part.1 + seam_rises (level before (part.1 ++ part.2)) parts

/-- How many parts begin up, with the signal up already. -/
def carried_over : Bool → List (List Bool × List Bool) → Nat
  | _, [] => 0
  | before, part :: parts =>
      (if level before part.1 && starts_up part.2 then 1 else 0) +
        carried_over (level before (part.1 ++ part.2)) parts

theorem rises_parts (before : Bool) (parts : List (List Bool × List Bool)) :
    rises before (parts.flatMap fun part => part.1 ++ part.2) + carried_over before parts =
      (parts.map fun part => rises false part.2).sum + seam_rises before parts := by
  induction parts generalizing before with
  | nil => rfl
  | cons part parts ih =>
      have rest := ih (level before (part.1 ++ part.2))
      have inside := rises_fresh (level before part.1) part.2
      simp only [List.flatMap_cons, List.map_cons, List.sum_cons, seam_rises, carried_over]
      rw [rises_append, rises_append]
      omega

end HomeConnect.Theory
