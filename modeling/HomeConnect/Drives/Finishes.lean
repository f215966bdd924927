/-
# Drives.Finishes -- a function that runs alone, whatever the programs it runs come up with

`Finishes env p w r w'`: with nothing else running, every read and write is carried out,
ffmpeg and the other programs come up with anything, and `p` returns `r` and leaves `w'`.
A function that runs no program is `Inside`, and finishes as `alone` says.
-/
import HomeConnect.Drives.Alone
import HomeConnect.Theory.Answered

namespace HomeConnect.Drives

open HomeConnect.Theory HomeConnect.Storage

set_option autoImplicit false

/-- The operation runs no program. -/
def Op.inside {β : Type} : Op β → Prop
  | .encode _ | .probe => False
  | _ => True

/-- A program comes up with anything; everything else is carried out. -/
def Op.fair {β : Type} (f : Op β) (o : Outcome) : Prop := f.inside → o ≠ .failed

def Finishes {α : Type} (env : Env) (p : Request Op α) (w : World) (r : AppResult α) (w' : World) : Prop :=
  p.run.Ends (Op.exec env) Op.fair w r w'

/-- A function that runs no program. -/
def Inside {α : Type} (p : Request Op α) : Prop := p.run.Uses Op.inside

variable {env : Env} {α β : Type} {w w' : World}

theorem Op.exec_fair {f : Op β} {o : Outcome} (inside : f.inside) (fair : f.fair o) (w : World) :
    f.exec env o w = f.exec env .ok w := by
  have carried := fair inside
  cases f with
  | read q =>
      cases o with
      | failed => exact (carried rfl).elim
      | _ => rfl
  | write s =>
      cases o with
      | failed => exact (carried rfl).elim
      | _ => rfl
  | queue g => rfl
  | encode inputs => exact inside.elim
  | probe => exact inside.elim

/-- A function that runs no program finishes as it does alone. -/
theorem Finishes.alone {p : Request Op α} {r : AppResult α} (finished : Finishes env p w r w')
    (inside : Inside p) : alone env p w = (r, w') := by
  have ended : p.run.Ends (Op.exec env) Op.fair w r w' := finished
  have only : ∀ {γ : Type} (f : Op γ) (o : Outcome) (w : World), f.inside → f.fair o →
      f.exec env o w = f.exec env .ok w := fun _ _ w inside fair => Op.exec_fair inside fair w
  exact (Prog.Ends.eq_run (fun f o w => only f o w) inside ended).symm

/-- When a sequence finishes, its first part does, and the rest unless that was an error. -/
theorem Finishes.cases {p : Request Op α} {g : α → Request Op β} {r : AppResult β}
    (finished : Finishes env (p >>= g) w r w') :
    (∃ a w₁, Finishes env p w (.ok a) w₁ ∧ Finishes env (g a) w₁ r w') ∨
      ∃ e, Finishes env p w (.error e) w' ∧ r = .error e := by
  unfold Finishes at finished
  rw [Request.run_bind, Prog.ends_bind] at finished
  obtain ⟨first, w₁, ran, rest⟩ := finished
  cases first with
  | ok a => exact .inl ⟨a, w₁, ran, rest⟩
  | error e =>
      obtain ⟨rfl, rfl⟩ := rest
      exact .inr ⟨e, ran, rfl⟩

/-- What is left to finish after a first part that runs no program. -/
theorem Finishes.after {p : Request Op α} {g : α → Request Op β} {a : α} {w₁ : World} {r : AppResult β}
    (finished : Finishes env (p >>= g) w r w') (inside : Inside p)
    (ran : Drives.alone env p w = (.ok a, w₁)) : Finishes env (g a) w₁ r w' := by
  rcases finished.cases with ⟨a', w₁', first, rest⟩ | ⟨e, first, _⟩
  · have same := first.alone inside
    rw [ran] at same
    cases same
    exact rest
  · have same := first.alone inside
    rw [ran] at same
    cases same

theorem Finishes.bind {p : Request Op α} {g : α → Request Op β} {a : α} {w₁ : World} {r : AppResult β}
    (first : Finishes env p w (.ok a) w₁) (rest : Finishes env (g a) w₁ r w') :
    Finishes env (p >>= g) w r w' := by
  unfold Finishes
  rw [Request.run_bind, Prog.ends_bind]
  exact ⟨_, _, first, rest⟩

/-- An error ends a sequence. -/
theorem Finishes.stop {p : Request Op α} {g : α → Request Op β} {e : AppError}
    (first : Finishes env p w (.error e) w') : Finishes env (p >>= g) w (.error e) w' := by
  unfold Finishes
  rw [Request.run_bind, Prog.ends_bind]
  exact ⟨_, _, first, rfl, rfl⟩

theorem Finishes.of_alone {p : Request Op α} {r : AppResult α} (ran : Drives.alone env p w = (r, w')) :
    Finishes env p w r w' := by
  have ended : p.run.Ends (Op.exec env) Op.fair w (p.run.run (fun f w => f.exec env .ok w) w).1
      (p.run.run (fun f w => f.exec env .ok w) w).2 :=
    Prog.Ends.of_run (fun f _ same => by cases same) p.run w
  unfold Drives.alone at ran
  rw [ran] at ended
  exact ended

/-- An encoder may come up with anything. -/
theorem Finishes.encoded (inputs : List BlobName) (bytes : Bytes) :
    Finishes env (encode inputs) w (.ok (some bytes)) w :=
  ⟨.encoded bytes, fun inside => inside.elim, rfl, rfl⟩

theorem Finishes.not_encoded (inputs : List BlobName) : Finishes env (encode inputs) w (.ok none) w :=
  ⟨.failed, fun inside => inside.elim, rfl, rfl⟩

/-- A failed probe is one of no length. -/
theorem Finishes.probed (duration : Option Rat) :
    Finishes env probe_duration w (.ok (duration.getD 0)) w := by
  cases duration with
  | none => exact ⟨.failed, fun inside => inside.elim, rfl, rfl⟩
  | some secs => exact ⟨.probed secs, fun inside => inside.elim, rfl, rfl⟩

theorem Finishes.pure {a : α} {r : AppResult α} (finished : Finishes env (pure a) w r w') :
    r = .ok a ∧ w' = w := finished

theorem Finishes.throw {e : AppError} {r : AppResult α}
    (finished : Finishes env (throw e : Request Op α) w r w') : r = .error e ∧ w' = w := finished

theorem Finishes.ignore {p : Request Op α} {r : AppResult Unit}
    (finished : Finishes env (Request.ignore p) w r w') :
    r = .ok () ∧ ∃ r', Finishes env p w r' w' := by
  unfold Finishes at finished
  rw [Request.run_ignore, Prog.ends_bind] at finished
  obtain ⟨r', _, ran, rfl, rfl⟩ := finished
  exact ⟨rfl, r', ran⟩

/-- The default is for an error only. -/
theorem Finishes.unwrap_or {p : Request Op α} {a : α} (finished : Finishes env p w (.ok a) w') (d : α) :
    Finishes env (Request.unwrap_or p d) w (.ok a) w' := by
  unfold Finishes
  rw [Request.run_unwrap_or, Prog.ends_bind]
  exact ⟨_, _, finished, rfl, rfl⟩

/-- An encoder run changes nothing. -/
theorem Finishes.after_encode {inputs : List BlobName} {g : Option Bytes → Request Op β} {r : AppResult β}
    (finished : Finishes env (encode inputs >>= g) w r w') : ∃ output, Finishes env (g output) w r w' := by
  rcases finished.cases with ⟨output, w₁, ⟨o, _, is, same⟩, rest⟩ | ⟨e, ⟨o, _, is, _⟩, _⟩
  · have unchanged : w₁ = w := by
      rw [same]
      cases o <;> rfl
    rw [unchanged] at rest
    exact ⟨output, rest⟩
  · cases is

theorem Finishes.after_probe {g : Rat → Request Op β} {r : AppResult β}
    (finished : Finishes env (probe_duration >>= g) w r w') :
    ∃ duration, Finishes env (g duration) w r w' := by
  rcases finished.cases with ⟨duration, w₁, ⟨o, _, is, same⟩, rest⟩ | ⟨e, ⟨o, _, is, _⟩, _⟩
  · have unchanged : w₁ = w := by
      rw [same]
      cases o <;> rfl
    rw [unchanged] at rest
    exact ⟨duration, rest⟩
  · cases is

/-- A relation that every allowed write keeps, and that the queue has no part in, holds
between the start and the end. -/
theorem WritesOnly.finishes {allowed : Write → Prop} {R : World → World → Prop} (refl : ∀ w, R w w)
    (trans : ∀ {a b c}, R a b → R b c → R a c)
    (writes : ∀ {s w w'}, allowed s → s.exec env w = some w' → R w w')
    (queue : ∀ w q, R w { w with sync_queue := q }) {p : Request Op α} {r : AppResult α}
    (uses : WritesOnly allowed p) (finished : Finishes env p w r w') : R w w' := by
  refine Prog.Uses.ends (R := R) refl trans (fun f o w ok _ => ?_) uses finished
  rcases Op.exec_cases env f o w with same | ⟨s, w₁, is, _, done, after⟩ | ⟨q, same⟩
  · rw [same]; exact refl w
  · rw [after]; exact writes (ok s is) done
  · rw [same]; exact queue w q

section Inside

theorem Inside.bind {p : Request Op α} {g : α → Request Op β} (first : Inside p)
    (rest : ∀ a, Inside (g a)) : Inside (p >>= g) := Request.Uses.bind first rest

theorem Inside.pure (a : α) : Inside (pure a : Request Op α) := trivial

theorem Inside.ite {c : Prop} [Decidable c] {p q : Request Op α} (yes : Inside p) (no : Inside q) :
    Inside (if c then p else q) := by
  split
  · exact yes
  · exact no

theorem Inside.select (q : World → α) : Inside (select q) := Request.Uses.perform trivial

theorem Inside.execute (s : Write) : Inside (execute s) := Request.Uses.perform trivial

theorem Inside.attempt (s : Write) : Inside (Request.attempt (.write s)) := Request.Uses.attempt trivial

theorem Inside.unwrap_or {p : Request Op α} (inside : Inside p) (d : α) : Inside (Request.unwrap_or p d) :=
  Request.Uses.unwrap_or inside d

theorem Inside.map_err {p : Request Op α} (inside : Inside p) (e : AppError) : Inside (Request.map_err p e) :=
  Request.Uses.map_err inside e

theorem Inside.blob_exists (name : BlobName) : Inside (blob_exists env name) :=
  Inside.unwrap_or (.select _) _

theorem Inside.toggle (key : Text) (default : Bool) : Inside (toggle key default) := by
  refine .bind (Inside.unwrap_or (.select _) _) fun s => ?_
  cases s <;> trivial

end Inside

end HomeConnect.Drives
