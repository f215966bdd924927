/-
# Theory.Assign -- assignments whose order does not matter

A step of a program assigns values to some cells of its state.  `Assigns A f g` says that
from `f` to `g` every cell was assigned one of the values `A` allows it, or none is allowed
and it is as before; which of several allowed values came last is left open.  Steps compose
to the union of what they assign (`Assigns.trans`).

When no cell is allowed two values, a cell that is allowed one holds it (`Assigns.value`)
and the outcome is determined by the union alone, in whatever order it was assigned
(`Assigns.unique`).
-/
import Mathlib.Logic.Basic

namespace HomeConnect.Theory

set_option autoImplicit false

universe u v

variable {κ : Type u} {V : Type v}

/-- Every cell holds one of its assigned values, or has none and is as before. -/
def Assigns (A : κ → V → Prop) (f g : κ → V) : Prop :=
  ∀ k, A k (g k) ∨ (∀ v, ¬ A k v) ∧ g k = f k

/-- No cell is assigned two values. -/
def Consistent (A : κ → V → Prop) : Prop := ∀ k v v', A k v → A k v' → v = v'

namespace Assigns

variable {A B : κ → V → Prop} {f g h : κ → V}

theorem refl (f : κ → V) : Assigns (fun _ _ => False) f f :=
  fun _ => .inr ⟨fun _ absurd => absurd, rfl⟩

theorem trans (first : Assigns A f g) (second : Assigns B g h) :
    Assigns (fun k v => A k v ∨ B k v) f h := by
  intro k
  rcases second k with later | ⟨unassigned, kept⟩
  · exact .inl (.inr later)
  · rcases first k with earlier | ⟨unassigned', kept'⟩
    · left; left
      rw [kept]
      exact earlier
    · right
      refine ⟨fun v either => ?_, kept.trans kept'⟩
      rcases either with earlier | later
      · exact unassigned' v earlier
      · exact unassigned v later

theorem congr (assigns : Assigns A f g) (same : ∀ k v, A k v ↔ B k v) : Assigns B f g := by
  intro k
  rcases assigns k with assigned | ⟨unassigned, kept⟩
  · exact .inl ((same k _).1 assigned)
  · exact .inr ⟨fun v now => unassigned v ((same k v).2 now), kept⟩

/-- A cell with an assigned value holds it. -/
theorem value (assigns : Assigns A f g) (consistent : Consistent A) {k : κ} {v : V}
    (assigned : A k v) : g k = v := by
  rcases assigns k with holds | ⟨unassigned, _⟩
  · exact consistent k _ _ holds assigned
  · exact (unassigned v assigned).elim

/-- **Order.**  What was assigned determines the outcome. -/
theorem unique (assigns : Assigns A f g) (assigns' : Assigns A f h) (consistent : Consistent A) :
    g = h := by
  funext k
  rcases assigns' k with holds | ⟨unassigned, kept'⟩
  · exact assigns.value consistent holds
  · rcases assigns k with holds | ⟨_, kept⟩
    · exact (unassigned _ holds).elim
    · rw [kept, kept']

end Assigns

end HomeConnect.Theory
