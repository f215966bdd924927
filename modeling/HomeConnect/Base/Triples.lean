/-
# Base.Triples -- functions that may fail: run over more operations, and their triples

`Request.embed` is a function of one component run in a system with more operations.

`Request.Gives G Q p s`: the function `p`, begun at a state that `s` has become, does
only what `G` allows, and a value it returns meets `Q`.  Nothing is said of an error.
The rules follow the ways functions are put together.
-/
import HomeConnect.Base.Request
import HomeConnect.Theory.Embed
import HomeConnect.Theory.Guarantee

namespace HomeConnect

open HomeConnect.Theory

set_option autoImplicit false

universe u v w

namespace Request

section Embed

variable {F : Type → Type v} {H : Type → Type w} {α β : Type}

/-- The same function over the images of its operations. -/
def embed (image : ∀ {γ : Type}, F γ → H γ) (p : Request F α) : Request H α :=
  ExceptT.mk (p.run.embed image)

variable {image : ∀ {γ : Type}, F γ → H γ}

@[simp] theorem embed_pure (a : α) : (pure a : Request F α).embed image = pure a := rfl

@[simp] theorem embed_throw (e : AppError) : (throw e : Request F α).embed image = throw e := rfl

@[simp] theorem embed_perform (f : F (AppResult α)) :
    (perform f).embed image = perform (image f) := rfl

@[simp] theorem embed_attempt (f : F (AppResult α)) :
    (attempt f).embed image = attempt (image f) := rfl

@[simp] theorem embed_bind (p : Request F α) (g : α → Request F β) :
    (p >>= g).embed image = p.embed image >>= fun a => (g a).embed image := by
  change (p >>= g).run.embed image = (p.embed image >>= fun a => (g a).embed image).run
  rw [run_bind, run_bind, Prog.embed_bind]
  congr 1
  funext r
  cases r <;> rfl

end Embed

section Triples

variable {S : Type u} {F : Type → Type v} {O : Type w} {α γ : Type}

/-- What the function returns meets `Q`, and its steps what `G` asks. -/
def Gives (G : Guarantee S F O) (Q : α → S → Prop) (p : Request F α) (s : S) : Prop :=
  G.Ensures (fun r now => ∀ a, r = .ok a → Q a now) p.run s

variable {G : Guarantee S F O} {Q : α → S → Prop} {s : S}

theorem Gives.pure {a : α} (post : ∀ s', G.rely s s' → Q a s') : Gives G Q (pure a) s := by
  intro s' kept b same
  cases same
  exact post s' kept

theorem Gives.throw (e : AppError) : Gives G Q (throw e) s := fun _ _ _ same => nomatch same

theorem Gives.of_result {r : AppResult α} (post : ∀ a s', r = .ok a → G.rely s s' → Q a s') :
    Gives G Q (of_result r) s :=
  fun s' kept a same => post a s' same kept

theorem Gives.mono (lawful : G.Lawful) {p : Request F α} {s' : S} (gives : Gives G Q p s)
    (kept : G.rely s s') : Gives G Q p s' :=
  Guarantee.Ensures.mono lawful gives kept

theorem Gives.weaken {Q' : α → S → Prop} {p : Request F α} (gives : Gives G Q p s)
    (weaker : ∀ a s', Q a s' → Q' a s') : Gives G Q' p s :=
  Guarantee.Ensures.weaken gives fun _ s' post a same => weaker a s' (post a same)

/-- Sequencing; an error of the first part ends the function. -/
theorem Gives.bind (lawful : G.Lawful) {R : γ → S → Prop} {p : Request F γ}
    {g : γ → Request F α} (first : Gives G R p s)
    (rest : ∀ a s', G.rely s s' → R a s' → Gives G Q (g a) s') : Gives G Q (p >>= g) s := by
  rw [Gives, run_bind]
  refine Guarantee.Ensures.bind lawful first fun r s' kept post => ?_
  cases r with
  | ok a => exact rest a s' kept (post a rfl)
  | error e => exact fun _ _ _ same => nomatch same

/-- Only the value returned changes. -/
theorem Gives.map {R : γ → S → Prop} {p : Request F γ} {f : γ → α} (first : Gives G R p s)
    (post : ∀ a s', R a s' → Q (f a) s') : Gives G Q (f <$> p) s := by
  have shape : (f <$> p).run = p.run >>= fun r => .ret (r.map f) := by
    rw [← bind_pure_comp, run_bind]
    congr 1
    funext r
    cases r <;> rfl
  rw [Gives, shape]
  refine Guarantee.Ensures.map first fun r s' ended b same => ?_
  cases r with
  | ok a =>
      cases same
      exact post a s' (ended a rfl)
  | error e => cases same

/-- One operation: what it needs, and what its answer tells. -/
theorem Gives.perform {f : F (AppResult α)} (need : ∀ s', G.rely s s' → G.ok f s')
    (post : ∀ s' o a s'', G.rely s s' → G.legit f o s' → (G.exec f o s').1 = .ok a →
      G.rely (G.exec f o s').2 s'' → Q a s'') : Gives G Q (perform f) s := by
  rw [Gives, run_perform]
  refine Guarantee.Ensures.op need fun s' o kept legit s'' after a same => ?_
  exact post s' o a s'' kept legit same after

/-- An early return; past it the condition is known. -/
theorem Gives.err_if {c : Prop} [Decidable c] {e : AppError} :
    Gives G (fun _ _ => ¬ c) (err_if c e) s := by
  unfold Request.err_if
  split
  · exact Gives.throw e
  · next passed => exact Gives.pure fun _ _ => passed

/-- Allowed operations only, and no promise about what is returned. -/
theorem Gives.of_uses (lawful : G.Lawful) {allowed : ∀ {β : Type}, F β → Prop}
    {p : Request F α} (uses : p.run.Uses allowed)
    (free : ∀ {β : Type} (f : F β) (s' : S), G.rely s s' → allowed f → G.ok f s') :
    Gives G (fun _ _ => True) p s :=
  Guarantee.Ensures.of_uses lawful uses free fun _ _ _ _ => trivial

/-- An operation whose error is discarded. -/
theorem Gives.attempt {f : F (AppResult α)} (need : ∀ s', G.rely s s' → G.ok f s') :
    Gives G (fun _ _ => True) (attempt f) s :=
  Guarantee.Ensures.op need fun _ _ _ _ _ _ _ _ => trivial

/-- A function whose result is discarded. -/
theorem Gives.ignore {p : Request F α} (first : Gives G Q p s) :
    Gives G (fun _ _ => True) (ignore p) s :=
  Guarantee.Ensures.map first fun _ _ _ _ _ => trivial

/-- A function whose error is kept as a value. -/
theorem Gives.capture {p : Request F α} (first : Gives G Q p s) :
    Gives G (fun r s' => ∀ a, r = .ok a → Q a s') (capture p) s :=
  Guarantee.Ensures.map first fun _ _ ended _ same => by
    cases same
    exact ended

/-- A function whose error is replaced. -/
theorem Gives.map_err {p : Request F α} (first : Gives G Q p s) (e : AppError) :
    Gives G Q (map_err p e) s := by
  refine Guarantee.Ensures.map first fun r s' ended a same => ?_
  cases r with
  | ok b =>
      cases same
      exact ended _ rfl
  | error _ => cases same

/-- A function for each element of a list. -/
theorem Gives.forM (lawful : G.Lawful) {xs : List α} {g : α → Request F PUnit}
    (each : ∀ x ∈ xs, ∀ s', G.rely s s' → Gives G (fun _ _ => True) (g x) s') :
    Gives G (fun _ _ => True) (xs.forM g) s := by
  induction xs generalizing s with
  | nil => exact Gives.pure fun _ _ => trivial
  | cons x xs ih =>
      change Gives G _ (g x >>= fun _ => xs.forM g) s
      refine Gives.bind lawful (each x List.mem_cons_self s (lawful.refl s)) fun _ s' kept _ => ?_
      exact ih fun y member s'' later =>
        each y (List.mem_cons_of_mem _ member) s'' (lawful.trans kept later)

/-- A triple carries over to a system with more operations. -/
theorem Gives.embed {K : Type → Type v} {H : Guarantee S K O} {image : ∀ {β : Type}, F β → K β}
    (extends_by : G.ExtendsBy H image) {p : Request F α} (gives : Gives G Q p s) :
    Gives H Q (p.embed image) s :=
  Guarantee.Ensures.embed extends_by gives

end Triples

end Request

end HomeConnect
