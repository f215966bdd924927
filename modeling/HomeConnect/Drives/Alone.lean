/-
# Drives.Alone -- a function that runs with nothing else running

`alone env p w` is what `p` returns and the world it leaves when every operation is
carried out and no other task takes a turn.

Deleting things is mostly a sequence of writes whose errors are discarded.  `Attempts p l`
says that `p` comes to attempting the writes `l` in order, and `applied` is what one
of them does.
-/
import HomeConnect.Drives.Footprint

namespace HomeConnect.Drives

open HomeConnect.Theory HomeConnect.Storage

set_option autoImplicit false

variable {env : Env} {α β : Type}

/-- Run a function to its end, every operation carried out and nothing else moving the
world. -/
def alone (env : Env) (p : Request Op α) (w : World) : AppResult α × World :=
  p.run.run (fun f w => f.exec env .ok w) w

@[simp] theorem alone_pure (a : α) (w : World) : alone env (pure a) w = (.ok a, w) := rfl

@[simp] theorem alone_throw (e : AppError) (w : World) :
    alone env (throw e : Request Op α) w = (.error e, w) := rfl

theorem alone_bind (p : Request Op α) (g : α → Request Op β) (w : World) :
    alone env (p >>= g) w =
      match (alone env p w).1 with
      | .ok a => alone env (g a) (alone env p w).2
      | .error e => (.error e, (alone env p w).2) := by
  unfold alone
  rw [Request.run_bind, Prog.run_bind]
  cases (p.run.run (fun f w => f.exec env .ok w) w).1 <;> rfl

/-- A first part that returns hands its value on. -/
theorem alone_bind_ok {p : Request Op α} {g : α → Request Op β} {w w' : World} {a : α}
    (first : alone env p w = (.ok a, w')) : alone env (p >>= g) w = alone env (g a) w' := by
  rw [alone_bind, first]

/-- When a sequence returns, so do its parts. -/
theorem ok_of_bind {p : Request Op α} {g : α → Request Op β} {w w' : World} {b : β}
    (ran : alone env (p >>= g) w = (.ok b, w')) :
    ∃ a w₁, alone env p w = (.ok a, w₁) ∧ alone env (g a) w₁ = (.ok b, w') := by
  rw [alone_bind] at ran
  cases first : alone env p w with
  | mk r w₁ =>
      rw [first] at ran
      cases r with
      | error e => cases ran
      | ok a => exact ⟨a, w₁, rfl, ran⟩

@[simp] theorem alone_select (q : World → α) (w : World) : alone env (select q) w = (.ok (q w), w) :=
  rfl

theorem alone_execute {s : Write} {w w' : World} (done : s.exec env w = some w') :
    alone env (execute s) w = (.ok (), w') := by
  have after : Op.exec env (.write s) .ok w = (.ok (), w') := by
    simp only [Op.exec, done]
  unfold alone execute
  rw [Request.run_perform, Prog.run_op, after]
  rfl

/-- A statement that returns was carried out. -/
theorem exec_of_ok {s : Write} {w w' : World} (ran : alone env (execute s) w = (.ok (), w')) :
    s.exec env w = some w' := by
  cases done : s.exec env w with
  | some w₁ =>
      rw [alone_execute done] at ran
      cases ran
      rfl
  | none =>
      have after : Op.exec env (.write s) .ok w = (.error .Sqlx, w) := by
        simp only [Op.exec, done]
      unfold alone execute at ran
      rw [Request.run_perform, Prog.run_op, after] at ran
      cases ran

theorem alone_unwrap_or_eq (p : Request Op α) (d : α) (w : World) :
    alone env (Request.unwrap_or p d) w =
      (.ok ((alone env p w).1.toOption.getD d), (alone env p w).2) := by
  unfold alone
  rw [Request.run_unwrap_or, Prog.run_bind]
  rfl

theorem alone_unwrap_or {p : Request Op α} {w w' : World} {r : AppResult α} (d : α)
    (ran : alone env p w = (r, w')) :
    alone env (Request.unwrap_or p d) w = (.ok (r.toOption.getD d), w') := by
  rw [alone_unwrap_or_eq, ran]

theorem alone_capture (p : Request Op α) (w : World) :
    alone env (Request.capture p) w = (.ok (alone env p w).1, (alone env p w).2) := by
  unfold alone
  rw [Request.run_capture, Prog.run_bind]
  rfl

theorem alone_ignore (p : Request Op α) (w : World) :
    alone env (Request.ignore p) w = (.ok (), (alone env p w).2) := by
  unfold alone
  rw [Request.run_ignore, Prog.run_bind]
  rfl

theorem alone_map_err (p : Request Op α) (e : AppError) (w : World) :
    alone env (Request.map_err p e) w =
      ((alone env p w).1.mapError fun _ => e, (alone env p w).2) := by
  unfold alone
  rw [Request.run_map_err, Prog.run_bind]
  rfl

/-- A relation that every allowed write keeps, and that the queue has no part in, holds
between the start and the end. -/
theorem WritesOnly.alone {allowed : Write → Prop} {R : World → World → Prop} (refl : ∀ w, R w w)
    (trans : ∀ {a b c}, R a b → R b c → R a c)
    (writes : ∀ {s w w'}, allowed s → s.exec env w = some w' → R w w')
    (queue : ∀ w q, R w { w with sync_queue := q }) {p : Request Op α}
    (uses : WritesOnly allowed p) (w : World) : R w (alone env p w).2 := by
  refine Prog.Uses.run (R := R) refl trans (fun f w ok => ?_) uses w
  rcases Op.exec_cases env f .ok w with same | ⟨s, w', is, _, done, after⟩ | ⟨q, same⟩
  · rw [same]; exact refl w
  · rw [after]; exact writes (ok s is) done
  · rw [same]; exact queue w q

/-- A blob that no artifact of the segment is stored over is as it was. -/
theorem blob_of_registers {dongle ts : Text} {seg : Int} {p : Request Op α}
    (writes : WritesOnly (Write.registers dongle ts seg) p) {path : BlobPath}
    (other : ∀ f ∈ ARTIFACTS, env.path (.segment dongle ts seg f) ≠ path) (w : World) :
    (alone env p w).2.blobs.read path = w.blobs.read path := by
  refine WritesOnly.alone (R := fun w w' => w'.blobs.read path = w.blobs.read path) (fun _ => rfl)
    (fun first second => second.trans first) ?_ (fun _ _ => rfl) writes w
  intro s w w' registers done
  rw [Write.exec_blobs done]
  cases s with
  | blob_put name bytes =>
      obtain ⟨f, listed, rfl⟩ := registers
      rw [Dir.read_write, if_neg (other f listed).symm]
  | blob_delete => exact registers.elim
  | _ => rfl

theorem alone_blob_exists (name : BlobName) (w : World) :
    alone env (blob_exists env name) w = (.ok (w.blobs.read (env.path name)).isSome, w) :=
  alone_unwrap_or false (alone_select _ w)

/-- A toggle is read from the settings. -/
theorem alone_toggle (key : Text) (default : Bool) (w : World) :
    alone env (toggle key default) w =
      (.ok (((w.db.settings.get? key).map Setting.value).elim default
        fun s => decide (s = "1") || Text.eq_ignore_ascii_case s "true"), w) := by
  unfold toggle setting
  rw [alone_bind_ok (alone_unwrap_or none (alone_select _ w))]
  cases found : (w.db.settings.get? key).map Setting.value with
  | none => simp [Except.toOption]
  | some s => simp [Except.toOption]

theorem alone_attempt {s : Write} {w w' : World} (done : s.exec env w = some w') :
    alone env (Request.attempt (.write s)) w = (.ok (), w') := by
  unfold alone
  rw [Request.run_attempt, Prog.run_op]
  simp only [Op.exec, done]
  rfl

/-- What `store` does to the world when it succeeds. -/
structure StoredIn (env : Env) (name : BlobName) (body : Bytes) (w w' : World) : Prop where
  absent : w.blobs.read (env.path name) = none
  blobs : w'.blobs = w.blobs.write (env.path name) body
  settings : w'.db.settings = w.db.settings
  routes : w'.db.routes = w.db.routes
  segments : w'.db.segments = w.db.segments
  remote : w'.remote = w.remote
  now : w'.now = w.now

theorem store_ok {dongle : Text} {name : BlobName} {body : Bytes} {w w' : World}
    (ran : alone env (store env dongle name body) w = (.ok (), w')) :
    StoredIn env name body w w' := by
  rw [store, alone_bind_ok (alone_blob_exists name w), Request.err_if] at ran
  cases found : w.blobs.read (env.path name) with
  | some bytes =>
      rw [found, if_pos Option.isSome_some] at ran
      cases ran
  | none =>
      have put : Write.exec env (.blob_put name body) w = some
          { w with blobs := w.blobs.write (env.path name) body, made := name :: w.made } := rfl
      rw [found, if_neg (by simp), alone_bind_ok (alone_pure () w)] at ran
      rw [alone_bind_ok (by rw [alone_map_err, alone_execute put]; rfl),
        alone_attempt (s := .add_server_storage dongle body.length) rfl] at ran
      cases ran
      exact ⟨found, rfl, rfl, rfl, rfl, rfl, rfl⟩

/-! ## Sequences of attempts -/

/-- What a write whose error is discarded does. -/
def applied (env : Env) (w : World) (s : Write) : World := (s.exec env w).getD w

/-- The function comes to attempting these writes in order. -/
def Attempts (env : Env) (p : Request Op Unit) (writes : List Write) : Prop :=
  ∀ w, alone env p w = (.ok (), writes.foldl (applied env) w)

theorem Attempts.pure : Attempts env (pure ()) [] := fun _ => rfl

theorem Attempts.attempt (s : Write) : Attempts env (Request.attempt (.write s)) [s] := by
  intro w
  unfold alone
  rw [Request.run_attempt, Prog.run_op, Prog.run_ret]
  cases done : s.exec env w with
  | none => simp [Op.exec, applied, done]
  | some w' => simp [Op.exec, applied, done]

theorem Attempts.bind {p : Request Op Unit} {q : Unit → Request Op Unit} {l m : List Write}
    (first : Attempts env p l) (rest : Attempts env (q ()) m) :
    Attempts env (p >>= q) (l ++ m) := by
  intro w
  rw [alone_bind_ok (first w), rest, List.foldl_append]

theorem Attempts.forM {xs : List α} {g : α → Request Op PUnit} {l : α → List Write}
    (each : ∀ x ∈ xs, Attempts env (g x) (l x)) : Attempts env (xs.forM g) (xs.flatMap l) := by
  induction xs with
  | nil => exact Attempts.pure
  | cons x xs ih =>
      change Attempts env (g x >>= fun _ => xs.forM g) (l x ++ xs.flatMap l)
      exact Attempts.bind (each x List.mem_cons_self)
        (ih fun y member => each y (List.mem_cons_of_mem _ member))

theorem Attempts.each {xs : List α} (s : α → Write) :
    Attempts env (xs.forM fun x => Request.attempt (.write (s x))) (xs.map s) := by
  have singles : xs.flatMap (fun x => [s x]) = xs.map s := by
    induction xs with
    | nil => rfl
    | cons x xs ih => rw [List.flatMap_cons, ih]; rfl
  rw [← singles]
  exact Attempts.forM fun x _ => .attempt (s x)

end HomeConnect.Drives
