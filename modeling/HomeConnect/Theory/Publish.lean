/-
# Theory.Publish -- write a temporary file, then rename it into place

A writer that publishes a file under `path` opens `tmp`, writes to it from the start, and
renames it over `path` when it is complete.  `work` is what a writer has in hand: the file it
has open, or will rename, and what it has put there.  `Effect` says what a step of a writer
does to the files and to its work.

* `Owns` is what a writer needs of its file, and what each of its own steps keeps
  (`Effect.owns`): nobody else writes there, and `tmp` is its file or nothing.
* `Settled` files are those that no step changes any more (`Effect.settled`); a file is one
  from when it is in place.
* `Effect.published`: what is in place after a step was there before, or is the complete
  file of the writer that took it.

Nothing here says that writers keep apart: a second one that opens `tmp` takes the file of
the first, which then owns nothing.  Who shows `Owns` of every writer has to say why only one
is at work.
-/
import HomeConnect.Theory.Files

namespace HomeConnect.Theory.Publish

set_option autoImplicit false
set_option linter.unusedSectionVars false

variable {π β : Type} [DecidableEq π] [Inhabited β]

/-- The file a writer has open or will rename, and what it has put there. -/
abbrev Work (β : Type) := Option (Nat × List β)

/-- What a step does to the files and to the work of who takes it; `complete` tells the files
that may be renamed. -/
inductive Effect (tmp path : π) (complete : List β → Prop) :
    Files π β → Work β → Files π β → Work β → Prop
  | idle (f : Files π β) : Effect tmp path complete f none f none
  | opened (f : Files π β) :
      Effect tmp path complete f none (f.create tmp).1 (some ((f.create tmp).2, []))
  | wrote (f : Files π β) (x : Nat) (w : List β) (b : β) :
      Effect tmp path complete f (some (x, w)) (f.write x w.length b) (some (x, w ++ [b]))
  | paused (f : Files π β) (x : Nat) (w : List β) :
      Effect tmp path complete f (some (x, w)) f (some (x, w))
  | left (f : Files π β) (x : Nat) (w : List β) :
      Effect tmp path complete f (some (x, w)) f none
  | removed (f : Files π β) : Effect tmp path complete f none (f.unlink tmp) none
  | renamed (f g : Files π β) (x : Nat) (w : List β) : complete w → f.rename tmp path = some g →
      Effect tmp path complete f (some (x, w)) g none

/-- The writer's file holds what it put there, and `tmp` is no other file. -/
structure Owns (tmp path : π) (f : Files π β) (x : Nat) (w : List β) : Prop where
  bound : x < f.data.length
  holds : f.bytes x = w
  tmp : ∀ y, f.names tmp = some y → y = x
  path : f.names path ≠ some x

/-- A file that is complete and that nobody opens again. -/
structure Settled (tmp : π) (complete : List β → Prop) (f : Files π β) (x : Nat) : Prop where
  bound : x < f.data.length
  tmp : f.names tmp ≠ some x
  complete : complete (f.bytes x)

variable {tmp path : π} {complete : List β → Prop} {f g : Files π β} {work work' : Work β}

/-- A writer gives up. -/
theorem Effect.given_up (f : Files π β) (work : Work β) : Effect tmp path complete f work f none := by
  cases work with
  | none => exact .idle f
  | some own => exact .left f own.1 own.2

/-- A writer does something else. -/
theorem Effect.rest (f : Files π β) (work : Work β) : Effect tmp path complete f work f work := by
  cases work with
  | none => exact .idle f
  | some own => exact .paused f own.1 own.2

theorem Effect.mono {complete' : List β → Prop} (effect : Effect tmp path complete f work g work')
    (weaker : ∀ w, complete w → complete' w) : Effect tmp path complete' f work g work' := by
  cases effect with
  | idle => exact .idle f
  | opened => exact .opened f
  | wrote x w b => exact .wrote f x w b
  | paused x w => exact .paused f x w
  | left x w => exact .left f x w
  | removed => exact .removed f
  | renamed g x w whole renamed => exact .renamed f g x w (weaker w whole) renamed

/-- A step keeps what its writer owns; a file just opened is owned. -/
theorem Effect.owns (effect : Effect tmp path complete f work g work') (ne : path ≠ tmp)
    (before : ∀ x w, work = some (x, w) → Owns tmp path f x w) :
    ∀ x w, work' = some (x, w) → Owns tmp path g x w := by
  intro x w is
  cases effect with
  | idle => cases is
  | opened =>
      cases is
      have made := f.created tmp
      refine ⟨made.bound, made.own, fun y named => ?_, fun named => ?_⟩
      · rw [made.names, if_pos rfl] at named
        exact (Option.some.inj named).symm
      · rw [made.names, if_neg ne] at named
        rcases made.origin with same | ⟨_, new⟩
        · exact ne (f.apart named same)
        · have old := f.bound named
          omega
  | wrote x w b =>
      cases is
      have own := before x w rfl
      refine ⟨?_, Files.bytes_write_end b own.bound own.holds rfl, own.tmp, own.path⟩
      rw [Files.length_write]
      exact own.bound
  | paused => exact before x w is
  | left => cases is
  | removed => cases is
  | renamed => cases is

/-- Without removals `tmp` is the writer's file while it is at work. -/
theorem Effect.linked (effect : Effect tmp path complete f work g work')
    (before : ∀ x w, work = some (x, w) → f.names tmp = some x) :
    ∀ x w, work' = some (x, w) → g.names tmp = some x := by
  intro x w is
  cases effect with
  | idle => cases is
  | opened =>
      cases is
      rw [(f.created tmp).names, if_pos rfl]
  | wrote x w b =>
      cases is
      exact before x w rfl
  | paused => exact before x w is
  | left => cases is
  | removed => cases is
  | renamed => cases is

/-- A step changes no settled file, unless it is the writer's own. -/
theorem Effect.settled (effect : Effect tmp path complete f work g work') (ne : path ≠ tmp)
    {y : Nat} (bound : y < f.data.length) (open_tmp : f.names tmp ≠ some y) (other : ∀ x w, work = some (x, w) → y ≠ x) :
    g.bytes y = f.bytes y ∧ y < g.data.length ∧ g.names tmp ≠ some y := by
  cases effect with
  | idle => exact ⟨rfl, bound, open_tmp⟩
  | opened =>
      have made := f.created tmp
      have apart := made.ne bound open_tmp
      refine ⟨made.others apart, Nat.lt_of_lt_of_le bound made.grows, fun named => ?_⟩
      rw [made.names, if_pos rfl] at named
      exact apart (Option.some.inj named).symm
  | wrote x w b =>
      refine ⟨f.bytes_write_ne _ b (other x w rfl), ?_, open_tmp⟩
      rw [Files.length_write]
      exact bound
  | paused => exact ⟨rfl, bound, open_tmp⟩
  | left => exact ⟨rfl, bound, open_tmp⟩
  | removed =>
      refine ⟨rfl, bound, ?_⟩
      rw [Files.names_unlink, if_pos rfl]
      exact (Option.some_ne_none y).symm
  | renamed g x w _ renamed =>
      obtain ⟨z, _, names, bytes, length⟩ := Files.rename_eq_some renamed
      refine ⟨congrFun bytes y, length.symm ▸ bound, ?_⟩
      rw [names, if_neg (Ne.symm ne), if_pos rfl]
      exact (Option.some_ne_none y).symm

/-- What is in place was there before, or is the complete file of the writer. -/
theorem Effect.published (effect : Effect tmp path complete f work g work') (ne : path ≠ tmp)
    (owns : ∀ x w, work = some (x, w) → Owns tmp path f x w) {y : Nat} (named : g.names path = some y) :
    f.names path = some y ∨ work' = none ∧ g.names tmp = none ∧ complete (g.bytes y) ∧
      ∃ w, work = some (y, w) := by
  cases effect with
  | idle => exact .inl named
  | opened =>
      rw [(f.created tmp).names, if_neg ne] at named
      exact .inl named
  | wrote => exact .inl named
  | paused => exact .inl named
  | left => exact .inl named
  | removed =>
      rw [Files.names_unlink, if_neg ne] at named
      exact .inl named
  | renamed g x w whole renamed =>
      obtain ⟨z, found, names, bytes, _⟩ := Files.rename_eq_some renamed
      have own := owns x w rfl
      rw [names, if_pos rfl] at named
      obtain rfl : z = y := Option.some.inj named
      obtain rfl : z = x := own.tmp z found
      refine .inr ⟨rfl, ?_, ?_, w, rfl⟩
      · rw [names, if_neg (Ne.symm ne), if_pos rfl]
      · rw [bytes, own.holds]
        exact whole

/-- What is in place stays there while nobody who has a file in hand may replace it. -/
theorem Effect.stays (effect : Effect tmp path complete f work g work') (ne : path ≠ tmp)
    (free : work ≠ none → f.names path = none) {y : Nat} (named : f.names path = some y) :
    g.names path = some y := by
  have idle : work = none := by
    by_contra busy
    cases (free busy).symm.trans named
  cases effect with
  | idle => exact named
  | opened =>
      rw [(f.created tmp).names, if_neg ne]
      exact named
  | removed =>
      rw [Files.names_unlink, if_neg ne]
      exact named
  | wrote => cases idle
  | paused => cases idle
  | left => cases idle
  | renamed => cases idle

theorem Effect.grows (effect : Effect tmp path complete f work g work') :
    f.data.length ≤ g.data.length := by
  cases effect with
  | opened => exact (f.created tmp).grows
  | renamed g x w _ renamed =>
      obtain ⟨_, _, _, _, length⟩ := Files.rename_eq_some renamed
      exact Nat.le_of_eq length.symm
  | wrote x w b => exact Nat.le_of_eq (Files.length_write f _ _ _).symm
  | _ => exact Nat.le_refl _

/-- A step of a writer with no file in hand, before or after, leaves the others theirs. -/
theorem Effect.others (effect : Effect tmp path complete f none g none) (ne : path ≠ tmp) {x : Nat}
    {w : List β} (own : Owns tmp path f x w) :
    Owns tmp path g x w ∧ g.names path = f.names path := by
  cases effect with
  | idle => exact ⟨own, rfl⟩
  | removed =>
      have path : (f.unlink tmp).names path = f.names path := by
        rw [Files.names_unlink, if_neg ne]
      refine ⟨⟨own.bound, own.holds, fun y named => ?_, fun named => own.path (path ▸ named)⟩, path⟩
      rw [Files.names_unlink, if_pos rfl] at named
      cases named

/-- Who renames nothing changes nothing that is in place. -/
theorem Effect.in_place (effect : Effect tmp path (fun _ => False) f work g work') (ne : path ≠ tmp) :
    g.names path = f.names path := by
  cases effect with
  | opened => rw [(f.created tmp).names, if_neg ne]
  | removed => rw [Files.names_unlink, if_neg ne]
  | renamed g x w never => exact never.elim
  | _ => rfl

/-- A file that is not the writer's own does not become it. -/
theorem Effect.apart (effect : Effect tmp path complete f work g work') {y : Nat}
    (bound : y < f.data.length) (open_tmp : f.names tmp ≠ some y)
    (other : ∀ x w, work = some (x, w) → y ≠ x) : ∀ x w, work' = some (x, w) → y ≠ x := by
  intro x w is
  cases effect with
  | opened =>
      cases is
      exact (f.created tmp).ne bound open_tmp
  | wrote x v b =>
      cases is
      exact other x v rfl
  | paused => exact other x w is
  | idle => cases is
  | left => cases is
  | removed => cases is
  | renamed => cases is

end HomeConnect.Theory.Publish
