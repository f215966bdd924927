/-
# Theory.Embed -- a program over one signature, run over a larger one

A component's functions are written over the operations they use.  Where a system has
more operations, `Prog.embed` runs the same program there, each operation sent to its
image, and sequencing goes along.
-/
import HomeConnect.Theory.Program

namespace HomeConnect.Theory

set_option autoImplicit false

universe v w

namespace Prog

variable {F : Type → Type v} {G : Type → Type w} {α β : Type}

/-- The same program over the images of its operations. -/
def embed (image : ∀ {γ : Type}, F γ → G γ) : Prog F α → Prog G α
  | .ret a => .ret a
  | .op f k => .op (image f) fun b => (k b).embed image

variable {image : ∀ {γ : Type}, F γ → G γ}

@[simp] theorem embed_ret (a : α) : (Prog.ret a : Prog F α).embed image = .ret a := rfl

@[simp] theorem embed_op {δ : Type} (f : F δ) (k : δ → Prog F α) :
    (Prog.op f k).embed image = .op (image f) fun b => (k b).embed image := rfl

theorem embed_bind (p : Prog F α) (g : α → Prog F β) :
    (p >>= g).embed image = p.embed image >>= fun a => (g a).embed image := by
  induction p with
  | ret a => rfl
  | op f k ih =>
      simp only [op_bind, embed_op]
      congr 1
      funext b
      exact ih b

/-- What holds of every image bounds an embedded program. -/
theorem Uses.embed_any {allowed : ∀ {γ : Type}, G γ → Prop}
    (images : ∀ {γ : Type} (f : F γ), allowed (image f)) (p : Prog F α) :
    (p.embed image).Uses allowed := by
  induction p with
  | ret a => trivial
  | op f k ih => exact ⟨images f, ih⟩

end Prog

end HomeConnect.Theory
