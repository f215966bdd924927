/-
# Theory.Guarantee -- rely-guarantee triples for programs

`Ensures G Q p s` is a triple in continuation form: started at a state that `s` has
become by steps of others, the program `p` performs only operations that meet `G.ok`
where they are performed, and what it returns meets `Q`, then and ever after.  Others
keep `G.rely`; in return every step of `p` keeps it too (`Lawful`).

A run may be restricted: `G.legit` says which outcomes of an operation it admits, and a
program answers for those only.

`Reach.ensures` is the composition: if the actions keep `rely` and start only tasks with
a triple, each task of every state reached still has the rest of its triple.  So a task
that has returned meets its `Q` (`Reach.returned`), and one about to step meets `ok`.
-/
import HomeConnect.Theory.Embed
import HomeConnect.Theory.Pool

namespace HomeConnect.Theory

set_option autoImplicit false

universe u v w x

/-- What others keep, what an operation needs, and the outcomes a run admits. -/
structure Guarantee (S : Type u) (F : Type → Type v) (O : Type w) where
  exec : ∀ {β : Type}, F β → O → S → β × S
  rely : S → S → Prop
  ok : ∀ {β : Type}, F β → S → Prop
  legit : ∀ {β : Type}, F β → O → S → Prop

namespace Guarantee

variable {S : Type u} {F : Type → Type v} {O : Type w} {α γ : Type}

structure Lawful (G : Guarantee S F O) : Prop where
  refl : ∀ s, G.rely s s
  trans : ∀ {a b c}, G.rely a b → G.rely b c → G.rely a c
  keeps : ∀ {β} {f : F β} {o s}, G.ok f s → G.legit f o s → G.rely s (G.exec f o s).2

/-- The program meets `ok` at each step and returns something that meets `Q`. -/
def Ensures (G : Guarantee S F O) (Q : α → S → Prop) : Prog F α → S → Prop
  | .ret a, s => ∀ s', G.rely s s' → Q a s'
  | .op f k, s => ∀ s', G.rely s s' →
      G.ok f s' ∧ ∀ o, G.legit f o s' → G.Ensures Q (k (G.exec f o s').1) (G.exec f o s').2

variable {G : Guarantee S F O} {Q : α → S → Prop}

theorem Ensures.ret {a : α} {s : S} (post : ∀ s', G.rely s s' → Q a s') :
    G.Ensures Q (.ret a) s := post

/-- One operation: what it needs, and the rest of the program at each answer. -/
theorem Ensures.op {β : Type} {f : F β} {k : β → Prog F α} {s : S}
    (need : ∀ s', G.rely s s' → G.ok f s')
    (rest : ∀ s' o, G.rely s s' → G.legit f o s' →
      G.Ensures Q (k (G.exec f o s').1) (G.exec f o s').2) : G.Ensures Q (.op f k) s :=
  fun s' kept => ⟨need s' kept, fun o legit => rest s' o kept legit⟩

/-- What others do leaves a triple standing. -/
theorem Ensures.mono (lawful : G.Lawful) {p : Prog F α} {s s' : S} (ensures : G.Ensures Q p s)
    (kept : G.rely s s') : G.Ensures Q p s' := by
  cases p with
  | ret a => exact fun s'' kept' => ensures s'' (lawful.trans kept kept')
  | op f k => exact fun s'' kept' => ensures s'' (lawful.trans kept kept')

/-- A weaker postcondition. -/
theorem Ensures.weaken {Q' : α → S → Prop} {p : Prog F α} {s : S} (ensures : G.Ensures Q p s)
    (weaker : ∀ a s', Q a s' → Q' a s') : G.Ensures Q' p s := by
  induction p generalizing s with
  | ret a => exact fun s' kept => weaker a s' (ensures s' kept)
  | op f k ih =>
      intro s' kept
      obtain ⟨need, rest⟩ := ensures s' kept
      exact ⟨need, fun o legit => ih _ (rest o legit)⟩

/-- Sequencing: the second part starts where the first one's postcondition holds. -/
theorem Ensures.bind (lawful : G.Lawful) {R : γ → S → Prop} {p : Prog F γ} {g : γ → Prog F α}
    {s : S} (first : G.Ensures R p s)
    (rest : ∀ a s', G.rely s s' → R a s' → G.Ensures Q (g a) s') : G.Ensures Q (p >>= g) s := by
  induction p generalizing s with
  | ret a => exact rest a s (lawful.refl s) (first s (lawful.refl s))
  | op f k ih =>
      intro s' kept
      obtain ⟨need, after⟩ := first s' kept
      refine ⟨need, fun o legit => ih _ (after o legit) fun a s'' kept' post => ?_⟩
      exact rest a s'' (lawful.trans kept (lawful.trans (lawful.keeps need legit) kept')) post

/-- Only the value returned changes. -/
theorem Ensures.map {R : γ → S → Prop} {p : Prog F γ} {f : γ → α} {s : S}
    (first : G.Ensures R p s) (post : ∀ a s', R a s' → Q (f a) s') :
    G.Ensures Q (p >>= fun a => .ret (f a)) s := by
  induction p generalizing s with
  | ret a => exact fun s' kept => post a s' (first s' kept)
  | op g k ih =>
      intro s' kept
      obtain ⟨need, after⟩ := first s' kept
      exact ⟨need, fun o legit => ih _ (after o legit)⟩

/-- Allowed operations only, and no promise about what is returned. -/
theorem Ensures.of_uses (lawful : G.Lawful) {allowed : ∀ {β : Type}, F β → Prop} {p : Prog F α}
    (uses : p.Uses allowed) {s : S}
    (free : ∀ {β : Type} (f : F β) (s' : S), G.rely s s' → allowed f → G.ok f s')
    (anything : ∀ a s', Q a s') : G.Ensures Q p s := by
  induction p generalizing s with
  | ret a => exact fun s' _ => anything a s'
  | op f k ih =>
      intro s' kept
      have need := free f s' kept uses.1
      refine ⟨need, fun o legit => ih _ (uses.2 _) fun g s'' later => ?_⟩
      exact free g s'' (lawful.trans kept (lawful.trans (lawful.keeps need legit) later))

/-! ## More operations -/

/-- The images of the operations do in `H` what they do in `G`, and ask no more. -/
structure ExtendsBy {K : Type → Type v} (G : Guarantee S F O) (H : Guarantee S K O)
    (image : ∀ {β : Type}, F β → K β) : Prop where
  exec : ∀ {β : Type} (f : F β) o s, H.exec (image f) o s = G.exec f o s
  rely : ∀ {s s'}, H.rely s s' → G.rely s s'
  ok : ∀ {β : Type} {f : F β} {s}, G.ok f s → H.ok (image f) s
  legit : ∀ {β : Type} {f : F β} {o s}, H.legit (image f) o s → G.legit f o s

theorem Ensures.embed {K : Type → Type v} {H : Guarantee S K O} {image : ∀ {β : Type}, F β → K β}
    (extends_by : G.ExtendsBy H image) {p : Prog F α} {s : S} (ensures : G.Ensures Q p s) :
    H.Ensures Q (p.embed image) s := by
  induction p generalizing s with
  | ret a => exact fun s' kept => ensures s' (extends_by.rely kept)
  | op f k ih =>
      intro s' kept
      obtain ⟨need, rest⟩ := ensures s' (extends_by.rely kept)
      refine ⟨extends_by.ok need, fun o admitted => ?_⟩
      rw [extends_by.exec]
      exact ih _ (rest o (extends_by.legit admitted))

/-! ## Pools -/

variable {T : Type} {A : Type x}

/-- The turns a run takes have admitted outcomes. -/
def Admits (G : Guarantee S F O) (p : Pool S (Task T F α)) : Pool.Event A O → Prop
  | .turn i o => ∀ t β (f : F β) k, p.tasks[i]? = some t → t.prog = .op f k → G.legit f o p.shared
  | .act _ => True

variable {act : A → S → Option (S × List (Task T F α))}
  {ok : Pool S (Task T F α) → Pool.Event A O → Prop} {s : S} {p : Pool S (Task T F α)}

/-- **Composition.**  Every task of every state reached has the rest of its triple. -/
theorem Reach.ensures (post : T → α → S → Prop) (lawful : G.Lawful)
    (reached : (Pool.Rules.mk act (Task.turn G.exec)).system.Reach ok ⟨s, []⟩ p)
    (admits : ∀ q e, ok q e → G.Admits q e)
    (acts : ∀ q a s' ts, G.rely s q.shared → ok q (.act a) → act a q.shared = some (s', ts) →
      G.rely q.shared s' ∧ ∀ t ∈ ts, G.Ensures (post t.tag) t.prog s') :
    G.rely s p.shared ∧ ∀ t ∈ p.tasks, G.Ensures (post t.tag) t.prog p.shared := by
  refine Pool.Rules.Reach.owned (I := fun now => G.rely s now)
    (J := fun now (t : Task T F α) => G.Ensures (post t.tag) t.prog now) reached
    ⟨lawful.refl s, fun t member => (List.not_mem_nil member).elim⟩ ?_ ?_
  · intro p a s' ts before _ admitted acted
    obtain ⟨kept, started⟩ := acts p a s' ts before admitted acted
    exact ⟨lawful.trans before kept, started, fun t _ ensures => ensures.mono lawful kept⟩
  · intro p i o t s' t' before each admitted found turned
    obtain ⟨β, f, k, next, rfl, rfl⟩ := Task.turn_cases turned
    have legit := admits p (.turn i o) admitted t β f k found next
    have triple := each t (List.mem_of_getElem? found)
    rw [next] at triple
    obtain ⟨need, rest⟩ := triple p.shared (lawful.refl _)
    have kept := lawful.keeps need legit
    exact ⟨lawful.trans before kept, rest o legit, fun u _ other => other.mono lawful kept⟩

/-- A task that has returned meets its postcondition. -/
theorem Reach.returned (post : T → α → S → Prop) (lawful : G.Lawful) {t : Task T F α} {a : α}
    (ensures : G.Ensures (post t.tag) t.prog s) (returned : t.prog.result? = some a) :
    post t.tag a s := by
  obtain ⟨tag, prog⟩ := t
  cases prog with
  | ret b =>
      cases returned
      exact ensures s (lawful.refl s)
  | op f k => cases returned

end Guarantee

end HomeConnect.Theory
