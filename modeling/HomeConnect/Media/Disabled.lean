/-
# Media.Disabled -- when a deleted movie or transcript stays deleted

The user's delete removes the blob and marks the row `disabled`.  A build that is
already under way looks at neither again: it publishes its output after the delete, and
the blob is served although the row is disabled (`deleted_movie_published`).

`Tidy` is the check the builds lack, made at the moment of publishing: the row is not
disabled, and no delete of the same movie stands between removing the blob and marking
the row.  In every run whose publishes all pass it, from the moment a delete returns the
row stays disabled and the store empty, and the handlers answer not found, until someone
asks for a rebuild (`disabled_stays_hidden`).

Movies and transcripts share everything but their names, so both are a `Clip`.
-/
import HomeConnect.Drives.Poles
import HomeConnect.Media.Serve
import HomeConnect.Theory.Pool

namespace HomeConnect.Media

open HomeConnect.Theory HomeConnect.Storage HomeConnect.Drives

set_option autoImplicit false

/-! ## Clips -/

/-- A route-level artifact the user can delete. -/
inductive Clip
  | movie (dongle ts cam : Text)
  | subs (dongle ts : Text)
deriving DecidableEq, Repr

namespace Clip

def name : Clip → BlobName
  | .movie dongle ts cam => .movie dongle ts cam
  | .subs dongle ts => .subs dongle ts

/-- The row is marked as deleted by the user. -/
def disabled (db : Storage.Db) : Clip → Bool
  | .movie dongle ts cam =>
      (db.movies.get? (fullname dongle ts, cam)).any fun m => decide (m.disabled = 1)
  | .subs dongle ts => (db.subs.get? (fullname dongle ts)).any fun s => decide (s.disabled = 1)

/-- The statement by which `disable` marks the row. -/
def disable_row : Clip → Write
  | .movie dongle ts cam => .disable_movie (fullname dongle ts) cam
  | .subs dongle ts => .disable_subs (fullname dongle ts)

/-- The statement by which a rebuild clears the row. -/
def delete_row : Clip → Write
  | .movie dongle ts cam => .delete_movie (fullname dongle ts) cam
  | .subs dongle ts => .delete_subs (fullname dongle ts)

/-- The user's delete. -/
def disable : Clip → Request Op Unit
  | .movie dongle ts cam => disable_movie dongle ts cam
  | .subs dongle ts => disable_subs dongle ts

/-- The user's request for a rebuild. -/
def rebuild : Clip → Request Op Unit
  | .movie dongle ts cam => delete_movie dongle ts cam
  | .subs dongle ts => delete_subs dongle ts

def route : Clip → Text × Text
  | .movie dongle ts _ => (dongle, ts)
  | .subs dongle ts => (dongle, ts)

/-- The handler that serves the clip; a movie is asked for by a file name. -/
def serve (env : Env) (file : Text) (auth : Option Auth) : Clip → Request Op Bytes
  | .movie dongle ts _ => serve_movie env (fullname dongle ts) file auth
  | .subs dongle ts => serve_subs env (fullname dongle ts) auth

/-- The handler takes the request for one for this clip: the route's name splits into
these parts, and the file name is one of a camera's. -/
def Requested (file : Text) : Clip → Prop
  | .movie dongle _ cam =>
      '|' ∉ dongle ∧ cam ∈ MOVIE_CAMS ∧ (Text.strip_suffix ".mp4" file).getD file = cam
  | .subs dongle _ => '|' ∉ dongle

end Clip

/-! ## Sweeps, builds, deletes and rebuilds at once -/

inductive MediaJob
  | movie_sweep
  | subs_sweep
  | build_movie (dongle ts cam : Text)
  | build_subs (dongle ts : Text)
  | disable (c : Clip)
  | rebuild (c : Clip)
deriving DecidableEq, Repr

def MediaJob.handle (env : Env) : MediaJob → Request Op Unit
  | .movie_sweep => Media.movie_sweep env
  | .subs_sweep => Media.subs_sweep env
  | .build_movie dongle ts cam => Media.build_movie env dongle ts cam
  | .build_subs dongle ts => Media.build_subs env dongle ts
  | .disable c => c.disable
  | .rebuild c => c.rebuild

abbrev MediaTask := Task MediaJob Op (AppResult Unit)

def mediaRules (env : Env) : Pool.Rules World MediaTask MediaJob Outcome where
  act job w := some (w, [⟨job, (job.handle env).run⟩])
  turn := Task.turn (Op.exec env)

/-- The statements of a delete are carried out. -/
def Carried (p : Pool World MediaTask) : Pool.Event MediaJob Outcome → Prop
  | .act _ => True
  | .turn i o => ∀ t, p.tasks[i]? = some t → ∀ c : Clip, t.tag = .disable c → o ≠ .failed

/-- The check the builds lack: a clip is published only if the row is not disabled and no
delete of the clip has yet to mark it. -/
def Rechecked (env : Env) (p : Pool World MediaTask) : Pool.Event MediaJob Outcome → Prop
  | .act _ => True
  | .turn i _ => ∀ t, p.tasks[i]? = some t →
      ∀ name bytes, next_write t = some (.blob_put name bytes) → ∀ c : Clip,
        env.path name = env.path c.name →
        c.disabled p.shared.db = false ∧ ∀ u ∈ p.tasks, next_write u ≠ some c.disable_row

def Tidy (env : Env) (p : Pool World MediaTask) (e : Pool.Event MediaJob Outcome) : Prop :=
  Carried p e ∧ Rechecked env p e

/-- The step does not clear the clip's row: nobody asked for a rebuild. -/
def NoRebuild (c : Clip) (p : Pool World MediaTask) : Pool.Event MediaJob Outcome → Prop
  | .act _ => True
  | .turn i _ => (p.tasks[i]?).bind next_write ≠ some c.delete_row

/-- A delete of the clip, the task's, has returned. -/
def Returned (c : Clip) (p : Pool World MediaTask) (i : Nat) : Prop :=
  (p.tasks[i]?).any (fun t => decide (t.tag = .disable c) && t.prog.done) = true

instance (c : Clip) (p : Pool World MediaTask) (i : Nat) : Decidable (Returned c p i) :=
  inferInstanceAs (Decidable (_ = true))

/-- The row is disabled and there is no blob. -/
structure Hidden (env : Env) (w : World) (c : Clip) : Prop where
  disabled : c.disabled w.db = true
  absent : w.blobs.read (env.path c.name) = none

/-! ## One write -/

section Write

variable {env : Env} {s : Drives.Write} {w w' : World} {c : Clip}

/-- A blob that is not there stays away unless its path is put. -/
theorem absent_exec (absent : w.blobs.read (env.path c.name) = none)
    (unpublished : ∀ name bytes, s = .blob_put name bytes → env.path name ≠ env.path c.name)
    (done : s.exec env w = some w') : w'.blobs.read (env.path c.name) = none := by
  rw [Write.exec_blobs done]
  cases s with
  | blob_put name bytes =>
      rw [Dir.read_write, if_neg (unpublished name bytes rfl).symm]
      exact absent
  | blob_delete name =>
      rw [Dir.read_remove]
      split
      · rfl
      · exact absent
  | _ => exact absent

theorem movie_disabled_exec {dongle ts cam : Text}
    (disabled : (Clip.movie dongle ts cam).disabled w.db = true)
    (kept : s ≠ .delete_movie (fullname dongle ts) cam) (done : s.exec env w = some w') :
    (Clip.movie dongle ts cam).disabled w'.db = true := by
  cases s with
  | record_movie name cam' seg_count bytes duration =>
      cases done
      simp only [Clip.disabled, Table.get?_upsert] at disabled ⊢
      split
      · obtain ⟨m, found, marked⟩ := (Option.any_eq_true _ _).1 disabled
        simpa [found] using marked
      · exact disabled
  | delete_movie name cam' =>
      cases done
      obtain ⟨m, found, marked⟩ := (Option.any_eq_true _ _).1 disabled
      have row := Table.key_of_get? found
      have other : m.id ≠ (name, cam') := by
        intro same
        rw [row] at same
        cases same
        exact kept rfl
      simp only [Clip.disabled, Table.get?_delete, found, Option.filter_some, decide_eq_false other]
      exact marked
  | disable_movie name cam' =>
      cases done
      simp only [Clip.disabled, Table.get?_upsert] at disabled ⊢
      split
      · obtain ⟨m, found, _⟩ := (Option.any_eq_true _ _).1 disabled
        simp [found]
      · exact disabled
  | delete_enabled_movies =>
      cases done
      obtain ⟨m, found, marked⟩ := (Option.any_eq_true _ _).1 disabled
      have spared : m.disabled ≠ 0 := by
        rw [of_decide_eq_true marked]
        decide
      simp only [Clip.disabled, Table.get?_delete, found, Option.filter_some, decide_eq_false spared]
      exact marked
  | _ =>
      have same := (Write.framed done).movies (by simp [Write.part])
      simpa only [Clip.disabled, same] using disabled

theorem subs_disabled_exec {dongle ts : Text}
    (disabled : (Clip.subs dongle ts).disabled w.db = true)
    (kept : s ≠ .delete_subs (fullname dongle ts)) (done : s.exec env w = some w') :
    (Clip.subs dongle ts).disabled w'.db = true := by
  cases s with
  | record_subs name seg_count cues bytes =>
      cases done
      simp only [Clip.disabled, Table.get?_upsert] at disabled ⊢
      split
      · obtain ⟨m, found, marked⟩ := (Option.any_eq_true _ _).1 disabled
        simpa [found] using marked
      · exact disabled
  | delete_subs name =>
      cases done
      obtain ⟨m, found, marked⟩ := (Option.any_eq_true _ _).1 disabled
      have row := Table.key_of_get? found
      have other : m.fullname ≠ name := by
        intro same
        rw [row] at same
        cases same
        exact kept rfl
      simp only [Clip.disabled, Table.get?_delete, found, Option.filter_some, decide_eq_false other]
      exact marked
  | disable_subs name =>
      cases done
      simp only [Clip.disabled, Table.get?_upsert] at disabled ⊢
      split
      · obtain ⟨m, found, _⟩ := (Option.any_eq_true _ _).1 disabled
        simp [found]
      · exact disabled
  | _ =>
      have same := (Write.framed done).subs (by simp [Write.part])
      simpa only [Clip.disabled, same] using disabled

/-- A row stays disabled until a rebuild clears it. -/
theorem disabled_exec (disabled : c.disabled w.db = true) (kept : s ≠ c.delete_row)
    (done : s.exec env w = some w') : c.disabled w'.db = true := by
  cases c with
  | movie dongle ts cam => exact movie_disabled_exec disabled kept done
  | subs dongle ts => exact subs_disabled_exec disabled kept done

/-- Marking the row disables the clip. -/
theorem disabled_of_disable_row (done : c.disable_row.exec env w = some w') :
    c.disabled w'.db = true := by
  cases c with
  | movie dongle ts cam =>
      cases done
      simp only [Clip.disabled, Table.get?_upsert]
      cases (w.db.movies.get? (fullname dongle ts, cam)) <;> rfl
  | subs dongle ts =>
      cases done
      simp only [Clip.disabled, Table.get?_upsert]
      cases (w.db.subs.get? (fullname dongle ts)) <;> rfl

end Write

/-! ## One step -/

section Step

variable {env : Env} {c : Clip} {w w' : World} {t t' : MediaTask} {o : Outcome}

theorem next_write_of_prog {α : Type} {f : Op α} {k : α → Prog Op (AppResult Unit)}
    (next : t.prog = .op f k) : next_write t = f.write? := by
  rw [next_write, next]

/-- What a turn does to the world: one write of the task's, or nothing that matters here. -/
theorem turn_write (turned : t.turn (Op.exec env) o w = some (w', t')) :
    (w'.db = w.db ∧ w'.blobs = w.blobs) ∨
      ∃ s, next_write t = some s ∧ s.exec env w = some w' := by
  obtain ⟨β, f, k, next, rfl, rfl⟩ := Task.turn_cases turned
  rcases Op.exec_cases env f o w with same | ⟨s, w₁, is, _, done, after⟩ | ⟨q, same⟩
  · rw [same]; exact .inl ⟨rfl, rfl⟩
  · rw [after, next_write_of_prog next]; exact .inr ⟨s, is, done⟩
  · rw [same]; exact .inl ⟨rfl, rfl⟩

/-- An absent blob stays away if the task's next write does not put it. -/
theorem absent_turn (absent : w.blobs.read (env.path c.name) = none)
    (unpublished : ∀ name bytes, next_write t = some (.blob_put name bytes) →
      env.path name ≠ env.path c.name)
    (turned : t.turn (Op.exec env) o w = some (w', t')) :
    w'.blobs.read (env.path c.name) = none := by
  rcases turn_write turned with ⟨_, same⟩ | ⟨s, next, done⟩
  · rw [same]; exact absent
  · refine absent_exec absent (fun name bytes is => ?_) done
    subst is
    exact unpublished name bytes next

theorem disabled_turn (disabled : c.disabled w.db = true)
    (kept : next_write t ≠ some c.delete_row)
    (turned : t.turn (Op.exec env) o w = some (w', t')) : c.disabled w'.db = true := by
  rcases turn_write turned with ⟨same, _⟩ | ⟨s, next, done⟩
  · rw [same]; exact disabled
  · refine disabled_exec disabled (fun is => ?_) done
    subst is
    exact kept next

end Step

/-! ## Inside a delete -/

/-- The two statements of a delete. -/
theorem disable_run (c : Clip) :
    c.disable.run = .op (.write (.blob_delete c.name)) fun _ =>
      .op (.write c.disable_row) fun _ => .ret (.ok ()) := by
  cases c <;> rfl

/-- Where a delete stands: at its start, or about to mark the row with the blob gone, or
finished. -/
def Deleting (env : Env) (w : World) (c : Clip) (p : Prog Op (AppResult Unit)) : Prop :=
  p = c.disable.run ∨
  (p = .op (.write c.disable_row) (fun _ => .ret (.ok ())) ∧
    w.blobs.read (env.path c.name) = none) ∨
  p = .ret (.ok ())

section Deleting

variable {env : Env} {c : Clip} {w w' : World} {t t' : MediaTask} {o : Outcome}

/-- A delete's own turn takes it to its next place. -/
theorem Deleting.own (deleting : Deleting env w c t.prog) (carried : o ≠ .failed)
    (turned : t.turn (Op.exec env) o w = some (w', t')) : Deleting env w' c t'.prog := by
  obtain ⟨β, f, k, next, rfl, rfl⟩ := Task.turn_cases turned
  rcases deleting with start | ⟨mark, absent⟩ | finished
  · rw [start, disable_run] at next
    cases next
    refine .inr (.inl ⟨rfl, ?_⟩)
    cases o with
    | failed => exact (carried rfl).elim
    | _ =>
        change Dir.read (Dir.remove w.blobs (env.path c.name)) (env.path c.name) = none
        rw [Dir.read_remove, if_pos rfl]
  · rw [mark] at next
    cases next
    exact .inr (.inr rfl)
  · rw [finished] at next
    cases next

/-- A delete that has removed the blob finds it still away when it marks the row. -/
theorem Deleting.returns (deleting : Deleting env w c t.prog) (carried : o ≠ .failed)
    (turned : t.turn (Op.exec env) o w = some (w', t')) (returned : t'.prog.done = true) :
    Hidden env w' c := by
  obtain ⟨β, f, k, next, rfl, rfl⟩ := Task.turn_cases turned
  rcases deleting with start | ⟨mark, absent⟩ | finished
  · rw [start, disable_run] at next
    cases next
    cases returned
  · rw [mark] at next
    cases next
    obtain ⟨w', done⟩ : ∃ w', c.disable_row.exec env w = some w' := by
      cases c <;> exact ⟨_, rfl⟩
    have after : (Op.exec env (.write c.disable_row) o w).2 = w' := by
      cases o with
      | failed => exact (carried rfl).elim
      | _ => simp only [Op.exec, done]
    rw [after]
    refine ⟨disabled_of_disable_row done, absent_exec absent (fun name bytes is => ?_) done⟩
    cases c <;> cases is
  · rw [finished] at next
    cases next

end Deleting

/-- The invariant of every tidy run: each delete under way is at one of its places. -/
theorem deleting_of_reach {env : Env} {w : World} {p : Pool World MediaTask}
    (reached : (mediaRules env).system.Reach (Tidy env) ⟨w, []⟩ p) :
    ∀ t ∈ p.tasks, ∀ c, t.tag = .disable c → Deleting env p.shared c t.prog := by
  refine (Pool.Rules.Reach.owned (I := fun _ => True)
    (J := fun w (t : MediaTask) => ∀ c, t.tag = .disable c → Deleting env w c t.prog) reached
    ⟨trivial, fun t member => (List.not_mem_nil member).elim⟩ ?_ ?_).2
  · intro p job w' ts _ _ _ acted
    cases acted
    refine ⟨trivial, fun t member c tag => ?_, fun t _ deleting => deleting⟩
    cases List.mem_singleton.1 member
    cases tag
    exact .inl rfl
  · intro p i o t w' t' _ each tidy found turned
    refine ⟨trivial, fun c tag => ?_, fun u member deleting c tag => ?_⟩
    · obtain ⟨β, f, k, next, _, rfl⟩ := Task.turn_cases turned
      exact (each t (List.mem_of_getElem? found) c tag).own (tidy.1 t found c tag) turned
    · rcases deleting c tag with start | ⟨mark, absent⟩ | finished
      · exact .inl start
      · refine .inr (.inl ⟨mark, absent_turn absent (fun name bytes put here => ?_) turned⟩)
        exact (tidy.2 t found name bytes put c here).2 u member (next_write_of_prog mark)
      · exact .inr (.inr finished)

/-! ## After a delete -/

/-- Hidden stays hidden while publishes are checked and nobody asks for a rebuild. -/
theorem hidden_of_reach {env : Env} {c : Clip} {p₁ p₂ : Pool World MediaTask}
    (hidden : Hidden env p₁.shared c)
    (reached : (mediaRules env).system.Reach (fun p e => Tidy env p e ∧ NoRebuild c p e) p₁ p₂) :
    Hidden env p₂.shared c := by
  refine reached.invariant (I := fun p => Hidden env p.shared c) hidden ?_
  rintro p e p' hidden ⟨tidy, kept⟩ stepped
  obtain ⟨job, w', ts, rfl, acted, rfl⟩ | ⟨i, o, t, w', t', rfl, found, turned, rfl⟩ :=
    Pool.Rules.step_cases stepped
  · cases acted
    exact hidden
  · refine ⟨disabled_turn hidden.disabled (fun cleared => kept ?_) turned,
      absent_turn hidden.absent (fun name bytes put here => ?_) turned⟩
    · rw [found]
      exact cleared
    · have published := (tidy.2 t found name bytes put c here).1
      rw [hidden.disabled] at published
      cases published

/-! ## What the handlers answer -/

/-- The answer to a request that runs alone. -/
def answer {α : Type} (env : Env) (p : Request Op α) (w : World) : AppResult α :=
  (p.run.run (fun f w => f.exec env .ok w) w).1

/-- Access checks write nothing. -/
theorem writes_check_route_access (name dongle : Text) (auth : Option Auth) :
    Writes (fun _ => False) (check_route_access name dongle auth) := by
  refine .bind (.select _) fun is_public => .ite (.pure ()) ?_
  cases auth with
  | none => exact .throw _
  | some auth =>
      refine .bind (.bind (.select _) fun device => ?_) fun allowed => .err_if _ _
      cases device with
      | none => exact .pure _
      | some d =>
          obtain ⟨identity, user, device⟩ := auth
          cases device with
          | some d' => exact .pure _
          | none =>
              cases user with
              | none => exact .pure _
              | some u => exact .ite (.pure _) (.select _)

/-- A request that writes nothing leaves the store alone. -/
theorem blobs_of_writes_none {α : Type} (env : Env) {p : Request Op α}
    (writes : Writes (fun _ => False) p) (w : World) :
    (p.run.run (fun f w => f.exec env .ok w) w).2.blobs = w.blobs := by
  refine Prog.Uses.run (R := fun w w' : World => w'.blobs = w.blobs) (fun _ => rfl)
    (fun first second => second.trans first) (fun f w none => ?_) writes.only w
  rcases Op.exec_cases env f .ok w with same | ⟨s, w', is, _⟩ | ⟨q, same⟩
  · rw [same]
  · exact (none s is).elim
  · rw [same]

/-- Without the blob, a request that passes the access check is answered not found. -/
theorem answer_serve {env : Env} {c : Clip} {w : World} {file : Text} (requested : c.Requested file)
    (absent : w.blobs.read (env.path c.name) = none) (auth : Option Auth) :
    answer env (c.serve env file auth) w =
      (answer env (check_route_access (fullname c.route.1 c.route.2) c.route.1 auth) w).bind
        fun _ => .error (.NotFound "file not found") := by
  have looked : ∀ w', w'.blobs = w.blobs →
      answer env (serve_file env c.name) w' = .error (.NotFound "file not found") := by
    intro w' same
    rw [← same] at absent
    have read : (Op.exec env (.read fun w => w.blobs.read (env.path c.name)) .ok w').1 = .ok none :=
      congrArg Except.ok absent
    rw [answer, serve_file, Request.run_bind]
    simp only [select, Request.run_unwrap_or, Request.run_perform, Prog.op_bind, Prog.ret_bind,
      Prog.run_op, read]
    rfl
  have served : c.serve env file auth =
      check_route_access (fullname c.route.1 c.route.2) c.route.1 auth >>= fun _ =>
        serve_file env c.name := by
    cases c with
    | movie dongle ts cam =>
        obtain ⟨clean, listed, rfl⟩ := requested
        simp only [Clip.serve, serve_movie, split_fullname, fullname_split clean]
        simp only [Request.err_if, listed, not_true_eq_false, if_false]
        rfl
    | subs dongle ts =>
        simp only [Clip.serve, serve_subs, split_fullname, fullname_split requested]
        rfl
  have same := blobs_of_writes_none env
    (writes_check_route_access (fullname c.route.1 c.route.2) c.route.1 auth) w
  rw [served]
  unfold answer at looked ⊢
  rw [Request.run_bind, Prog.run_bind]
  cases (Prog.run (fun f w => f.exec env .ok w)
      (check_route_access (fullname c.route.1 c.route.2) c.route.1 auth).run w).1 with
  | ok _ => exact looked _ same
  | error e => rfl

/-- **A deleted clip stays deleted.**  In a run whose publishes are all rechecked, from the
moment a delete returns until the first rebuild the row is disabled and there is no blob,
and the handlers answer not found to everyone they let see the route. -/
theorem disabled_stays_hidden (env : Env) (w : World) (c : Clip) (p p₁ p₂ : Pool World MediaTask)
    (i : Nat) (o : Outcome) (reached : (mediaRules env).system.Reach (Tidy env) ⟨w, []⟩ p)
    (tidy : Tidy env p (.turn i o)) (stepped : (mediaRules env).system.step p (.turn i o) = some p₁)
    (returned : Returned c p₁ i)
    (after : (mediaRules env).system.Reach (fun p e => Tidy env p e ∧ NoRebuild c p e) p₁ p₂) :
    Hidden env p₂.shared c ∧ ∀ file auth, c.Requested file →
      answer env (c.serve env file auth) p₂.shared =
        (answer env (check_route_access (fullname c.route.1 c.route.2) c.route.1 auth)
          p₂.shared).bind fun _ => .error (.NotFound "file not found") := by
  have hidden : Hidden env p₁.shared c := by
    obtain ⟨_, _, _, is, _⟩ | ⟨j, o', t, w', t', is, found, turned, rfl⟩ :=
      Pool.Rules.step_cases stepped
    · cases is
    · cases is
      have here : (p.tasks.set i t')[i]? = some t' := by
        rw [List.getElem?_set_self (List.getElem?_eq_some_iff.1 found).1]
      rw [Returned, here, Option.any_some, Bool.and_eq_true, decide_eq_true_eq] at returned
      obtain ⟨tag, finished⟩ := returned
      have own : t.tag = .disable c := by
        obtain ⟨β, f, k, _, _, rfl⟩ := Task.turn_cases turned
        exact tag
      have deleting := deleting_of_reach reached t (List.mem_of_getElem? found) c own
      exact deleting.returns (tidy.1 t found c own) turned finished
  have still := hidden_of_reach hidden after
  exact ⟨still, fun file auth requested => answer_serve requested still.absent auth⟩

/-! ## Poles -/

/-- A route with one segment, its qcamera stored. -/
private def one_segment : World :=
  { one_drive (.single { drive_segment 0 with qcam_url := "q" }) with
    blobs := Dir.write Table.empty (plain_env.path (.segment "d" "t" 0 "qcamera.ts")) [1] }

private def qmovie : Clip := .movie "d" "t" "qcamera"

/-- The sweep starts and works up to the end of the encoder's run. -/
private def encoded_sweep : List (Pool.Event MediaJob Outcome) :=
  .act .movie_sweep :: List.replicate 8 (.turn 0 .ok) ++ [.turn 0 (.encoded [7])]

/-- No statement fails, and nobody asks for a rebuild of the clip. -/
private def plain_turn (c : Clip) (p : Pool World MediaTask) (e : Pool.Event MediaJob Outcome) :
    Bool :=
  match e with
  | .act _ => true
  | .turn i o => o ≠ .failed && decide ((p.tasks[i]?).bind next_write ≠ some c.delete_row)

private theorem carried_of_plain {c : Clip} {p : Pool World MediaTask}
    {e : Pool.Event MediaJob Outcome} (plain : plain_turn c p e = true) :
    Carried p e ∧ NoRebuild c p e := by
  cases e with
  | act job => exact ⟨trivial, trivial⟩
  | turn i o =>
      simp only [plain_turn, Bool.and_eq_true, decide_eq_true_eq] at plain
      exact ⟨fun t _ c _ => plain.1, plain.2⟩

/-- The sweep has encoded a movie when the user deletes it, and then publishes it. -/
theorem deleted_movie_published : ¬ ∀ (env : Env) (w : World) (c : Clip)
    (p p₁ p₂ : Pool World MediaTask) (i : Nat) (o : Outcome),
    (mediaRules env).system.Reach Carried ⟨w, []⟩ p → Carried p (.turn i o) →
    (mediaRules env).system.step p (.turn i o) = some p₁ → Returned c p₁ i →
    (mediaRules env).system.Reach (fun p e => Carried p e ∧ NoRebuild c p e) p₁ p₂ →
    Hidden env p₂.shared c := by
  intro claim
  have run : (((mediaRules plain_env).system.guard fun p e => plain_turn qmovie p e = true).replay
      ⟨one_segment, []⟩ (encoded_sweep ++ [.act (.disable qmovie), .turn 1 .ok])).any (fun p =>
        ((mediaRules plain_env).system.step p (.turn 1 .ok)).any fun p₁ =>
          decide (Returned qmovie p₁ 1) &&
          (((mediaRules plain_env).system.guard fun p e => plain_turn qmovie p e = true).replay
            p₁ [.turn 0 .ok]).any fun p₂ =>
              decide (p₂.shared.blobs.read (plain_env.path qmovie.name) = some [7])) = true := by
    decide
  obtain ⟨p, before, run⟩ := (Option.any_eq_true _ _).1 run
  obtain ⟨p₁, stepped, run⟩ := (Option.any_eq_true _ _).1 run
  obtain ⟨returned, run⟩ := Bool.and_eq_true_iff.1 run
  obtain ⟨p₂, after, published⟩ := (Option.any_eq_true _ _).1 run
  have hidden := claim plain_env one_segment qmovie p p₁ p₂ 1 .ok
    ((System.reach_of_replay_guard before).mono fun _ _ plain => (carried_of_plain plain).1)
    (fun _ _ _ _ => by simp) stepped (of_decide_eq_true returned)
    ((System.reach_of_replay_guard after).mono fun _ _ plain => carried_of_plain plain)
  rw [hidden.absent] at published
  cases of_decide_eq_true published

/-- A check for `Rechecked`: when something is published, no row is disabled and no delete
is about to mark one. -/
private def quiet_publish (p : Pool World MediaTask) (e : Pool.Event MediaJob Outcome) : Bool :=
  match e with
  | .act _ => true
  | .turn i _ =>
      match (p.tasks[i]?).bind next_write with
      | some (.blob_put _ _) =>
          p.shared.db.movies.rows.isEmpty && p.shared.db.subs.rows.isEmpty &&
            p.tasks.all fun u => match next_write u with
              | some (.disable_movie _ _) => false
              | some (.disable_subs _) => false
              | _ => true
      | _ => true

private theorem rechecked_of_quiet {p : Pool World MediaTask} {e : Pool.Event MediaJob Outcome}
    (quiet : quiet_publish p e = true) : Rechecked plain_env p e := by
  cases e with
  | act job => trivial
  | turn i o =>
      intro t found name bytes next c _
      simp only [quiet_publish, found, Option.bind_some, next, Bool.and_eq_true,
        List.isEmpty_iff] at quiet
      obtain ⟨⟨no_movies, no_subs⟩, none⟩ := quiet
      refine ⟨?_, fun u member marking => ?_⟩
      · cases c <;> simp [Clip.disabled, Table.get?, no_movies, no_subs]
      · have clear := List.all_eq_true.1 none u member
        rw [marking] at clear
        cases c <;> cases clear

/-- The movie is published before the user deletes it. -/
theorem disabled_stays_hidden_published : ∃ p₂ : Pool World MediaTask,
    Hidden plain_env p₂.shared qmovie ∧ p₂.shared.made = [qmovie.name] ∧
      Task.finished p₂.tasks = true := by
  have run : (((mediaRules plain_env).system.guard fun p e =>
        (plain_turn qmovie p e && quiet_publish p e) = true).replay
      ⟨one_segment, []⟩ (encoded_sweep ++ List.replicate 4 (.turn 0 .ok) ++
        [.act (.disable qmovie), .turn 1 .ok])).any (fun p =>
        ((mediaRules plain_env).system.step p (.turn 1 .ok)).any fun p₁ =>
          decide (Returned qmovie p₁ 1) && quiet_publish p (.turn 1 .ok) &&
            decide (p₁.shared.made = [qmovie.name]) && Task.finished p₁.tasks) = true := by
    decide
  obtain ⟨p, before, run⟩ := (Option.any_eq_true _ _).1 run
  obtain ⟨p₁, stepped, run⟩ := (Option.any_eq_true _ _).1 run
  simp only [Bool.and_eq_true, decide_eq_true_eq] at run
  obtain ⟨⟨⟨returned, quiet⟩, made⟩, finished⟩ := run
  have hidden := disabled_stays_hidden plain_env one_segment qmovie p p₁ p₁ 1 .ok
    ((System.reach_of_replay_guard before).mono fun _ _ checked => by
      obtain ⟨plain, quiet⟩ := Bool.and_eq_true_iff.1 checked
      exact ⟨(carried_of_plain plain).1, rechecked_of_quiet quiet⟩)
    ⟨fun _ _ _ _ => by simp, rechecked_of_quiet quiet⟩ stepped returned .start
  exact ⟨p₁, hidden.1, made, finished⟩

end HomeConnect.Media
