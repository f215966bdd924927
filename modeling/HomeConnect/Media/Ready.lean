/-
# Media.Ready -- when the movie that is served is the one its row describes

`status` calls a movie ready when it has a row that is not disabled and there is a blob.
A build that fails records 0 bytes and leaves the blob of an earlier build in place, so
afterwards the movie is ready with 0 bytes (`failed_rebuild_ready`).

A sweep only reads and builds one movie after the other, so every build is a task of its
own here, which may start at any time for any movie of a registered device.  From its first
encoder run to its end a build holds the one permit.  `Studio.log` is history: the writes
that were carried out, and by which task.

In every run in which builds store and record as `Sound` says, a ready movie is described by
its row once no build is under way (`ready_is_described`).
-/
import HomeConnect.Drives.Poles
import HomeConnect.Media.Once

namespace HomeConnect.Media

open HomeConnect.Theory HomeConnect.Storage HomeConnect.Drives

set_option autoImplicit false

/-! ## Builds and the user's actions at once -/

inductive MovieJob
  | register (dongle ts : Text) (seg : Int) (file : Text) (body : Bytes)
  | build (dongle ts cam : Text)
  | disable (dongle ts cam : Text)
  | delete (dongle ts cam : Text)
  | reencode_all
deriving DecidableEq, Repr

namespace MovieJob

def handle (env : Env) : MovieJob → Request Op Unit
  | .register dongle ts seg file body => register_segment_file env dongle ts seg file body
  | .build dongle ts cam => build_movie env dongle ts cam
  | .disable dongle ts cam => disable_movie dongle ts cam
  | .delete dongle ts cam => delete_movie dongle ts cam
  | .reencode_all => Request.ignore Media.reencode_all

def builds : MovieJob → Bool
  | .build .. => true
  | _ => false

/-- A build is of a route; its device's name has no `|`. -/
def admitted : MovieJob → Bool
  | .build dongle _ _ => decide ('|' ∉ dongle)
  | _ => true

end MovieJob

structure Studio where
  world : World
  /-- The build that holds the semaphore. -/
  permit : Option Nat := none
  started : Nat := 0
  log : List (Nat × Write) := []

structure MovieTask where
  id : Nat
  job : MovieJob
  prog : Prog Op (AppResult Unit)

/-- The write that an operation carries out. -/
def carried {β : Type} (env : Env) (f : Op β) (o : Outcome) (w : World) : Option Write :=
  f.write?.filter fun s => o ≠ .failed && (s.exec env w).isSome

namespace MovieTask

def next_write (t : MovieTask) : Option Write :=
  match t.prog with
  | .op f _ => f.write?
  | .ret _ => none

/-- A build waits for the permit before it encodes, and gives it back when it returns. -/
def turn (env : Env) (t : MovieTask) (o : Outcome) (s : Studio) : Option (Studio × MovieTask) :=
  match t.prog with
  | .ret _ => none
  | .op f k =>
      let encodes := t.job.builds && (encode_inputs f).isSome
      if encodes && s.permit.any fun holder => decide (holder ≠ t.id) then none
      else
        let r := f.exec env o s.world
        let holder := if encodes then some t.id else s.permit
        let permit := if (k r.1).done && decide (holder = some t.id) then none else holder
        let log := (carried env f o s.world).toList.map (fun w => (t.id, w)) ++ s.log
        some ({ s with world := r.2, permit, log }, { t with prog := k r.1 })

end MovieTask

def movieRules (env : Env) : Pool.Rules Studio MovieTask MovieJob Outcome where
  act job s :=
    if job.admitted then
      some ({ s with started := s.started + 1 }, [⟨s.started, job, (job.handle env).run⟩])
    else none
  turn := MovieTask.turn env

/-! ## Who wrote what -/

def puts (env : Env) (path : BlobPath) : Write → Bool
  | .blob_put name _ => decide (env.path name = path)
  | _ => false

def records (name cam : Text) : Write → Bool
  | .record_movie n c _ _ _ => decide (n = name ∧ c = cam)
  | _ => false

/-- The task that last stored a blob at the path. -/
def last_put (env : Env) (log : List (Nat × Write)) (path : BlobPath) : Option Nat :=
  (log.find? fun e => puts env path e.2).map Prod.fst

/-- The task that last recorded the movie. -/
def last_record (log : List (Nat × Write)) (name cam : Text) : Option Nat :=
  (log.find? fun e => records name cam e.2).map Prod.fst

theorem last_put_cons (env : Env) (i : Nat) (s : Write) (log : List (Nat × Write)) (path : BlobPath) :
    last_put env ((i, s) :: log) path = if puts env path s then some i else last_put env log path := by
  unfold last_put
  rw [List.find?_cons]
  cases puts env path s <;> rfl

theorem last_record_cons (i : Nat) (s : Write) (log : List (Nat × Write)) (name cam : Text) :
    last_record ((i, s) :: log) name cam = if records name cam s then some i else last_record log name cam := by
  unfold last_record
  rw [List.find?_cons]
  cases records name cam s <;> rfl

/-- The movie's row and blob agree, and are of one build. -/
def Described (env : Env) (s : Studio) (dongle ts cam : Text) : Prop :=
  ∃ row bytes id, s.world.db.movies.get? (fullname dongle ts, cam) = some row ∧
    s.world.blobs.read (env.path (.movie dongle ts cam)) = some bytes ∧
    0 < row.bytes ∧ row.bytes = bytes.length ∧
    last_put env s.log (env.path (.movie dongle ts cam)) = some id ∧
    last_record s.log (fullname dongle ts) cam = some id

/-- Whatever `status` reports as ready is described by its row. -/
def ReadyDescribed (env : Env) (s : Studio) : Prop :=
  ∀ name statuses, (alone env (movie_status env name) s.world).1 = .ok statuses →
    ∀ c ∈ statuses, c.ready = true →
      ∃ dongle ts, Text.split_once '|' name = some (dongle, ts) ∧ Described env s dongle ts c.cam

/-- The movie has no row, or is disabled. -/
def NotShown (s : Studio) (dongle ts cam : Text) : Prop :=
  ∀ row, s.world.db.movies.get? (fullname dongle ts, cam) = some row → row.disabled = 1

/-- A build stores its output where no other movie that is shown is stored; it records no
size only while the movie has no blob or is disabled; and the statement that records it
fails only if the movie is not shown or the blob it stored is gone. -/
def Sound (env : Env) (p : Pool Studio MovieTask) : Pool.Event MovieJob Outcome → Prop
  | .act _ => True
  | .turn i o => ∀ t, p.tasks[i]? = some t → ∀ dongle ts cam, t.job = .build dongle ts cam →
      (∀ output, t.next_write = some (.blob_put (.movie dongle ts cam) output) →
        ∀ dongle' ts' cam', '|' ∉ dongle' →
          env.path (.movie dongle' ts' cam') = env.path (.movie dongle ts cam) →
          (dongle', ts', cam') ≠ (dongle, ts, cam) → NotShown p.shared dongle' ts' cam') ∧
      ∀ seg_count bytes duration,
        t.next_write = some (.record_movie (fullname dongle ts) cam seg_count bytes duration) →
        (bytes = 0 → p.shared.world.blobs.read (env.path (.movie dongle ts cam)) = none ∨
          (Clip.movie dongle ts cam).disabled p.shared.world.db = true) ∧
        (o = .failed → NotShown p.shared dongle ts cam ∨
          p.shared.world.blobs.read (env.path (.movie dongle ts cam)) = none ∨
          last_put env p.shared.log (env.path (.movie dongle ts cam)) ≠ some t.id)

/-! ## Where a build stands -/

section Build

variable (env : Env) (dongle ts cam : Text)

/-- What is left of a build that has not stored anything: whatever it is answered, it writes
nothing but a failed attempt, and only an encoder run leads to storing. -/
def Builds : Prog Op (AppResult Unit) → Prop
  | .ret _ => True
  | .op f k =>
      (f.write? = none ∧ encode_inputs f = none ∧ ∀ b, Builds (k b)) ∨
      (encode_inputs f ≠ none ∧
        ∀ b, Builds (k b) ∨ ∃ seg_count output, k b = (publish_movie env dongle ts cam seg_count output).run) ∨
      (∃ seg_count, f.write? = some (.record_movie (fullname dongle ts) cam seg_count 0 0)) ∧
        ∀ b, (k b).done = true

/-- Stored; the size is to be read. -/
def measure_movie (seg_count : Int) : Request Op Unit := do
  let size ← Request.unwrap_or
    (select fun w => ((w.blobs.read (env.path (.movie dongle ts cam))).map List.length).getD 0) 0
  let duration ← probe_duration
  record_movie (fullname dongle ts) cam seg_count size duration

/-- The size is read. -/
def probe_movie (seg_count : Int) (size : Nat) : Request Op Unit := do
  let duration ← probe_duration
  record_movie (fullname dongle ts) cam seg_count size duration

theorem publish_run (seg_count : Int) (output : Bytes) :
    (publish_movie env dongle ts cam seg_count output).run =
      .op (.write (.blob_put (.movie dongle ts cam) output)) fun
        | .ok () => (measure_movie env dongle ts cam seg_count).run
        | .error _ => .ret (.error (.Other "rename")) := by
  show Prog.op _ _ = _
  congr 1
  funext r
  cases r <;> rfl

theorem measure_run (seg_count : Int) :
    (measure_movie env dongle ts cam seg_count).run =
      .op (.read fun w => ((w.blobs.read (env.path (.movie dongle ts cam))).map List.length).getD 0) fun r =>
        (probe_movie dongle ts cam seg_count (r.toOption.getD 0)).run := rfl

theorem probe_run (seg_count : Int) (size : Nat) :
    (probe_movie dongle ts cam seg_count size).run = .op .probe fun r =>
      (record_movie (fullname dongle ts) cam seg_count size (r.getD 0)).run := rfl

variable {env dongle ts cam}

/-- A part that only reads comes first. -/
theorem Builds.bind {α : Type} {p : Request Op α} {g : α → Request Op Unit}
    (reads : p.run.Uses fun f => f.write? = none ∧ encode_inputs f = none)
    (rest : ∀ a, Builds env dongle ts cam (g a).run) : Builds env dongle ts cam (p >>= g).run := by
  rw [Request.run_bind]
  revert reads
  generalize p.run = q
  intro reads
  induction q with
  | ret r =>
      cases r with
      | ok a => exact rest a
      | error e => trivial
  | op f k ih => exact .inl ⟨reads.1.1, reads.1.2, fun b => ih b (reads.2 b)⟩

theorem reads_select {α : Type} (q : World → α) :
    (select q).run.Uses fun f => f.write? = none ∧ encode_inputs f = none :=
  Request.Uses.perform ⟨rfl, rfl⟩

theorem reads_toggle (key : Text) (default : Bool) :
    (toggle key default).run.Uses fun f => f.write? = none ∧ encode_inputs f = none := by
  refine Request.Uses.bind (Request.Uses.unwrap_or (reads_select _) _) fun s => ?_
  cases s <;> trivial

theorem reads_usable (file : Text) (segs : List Int) :
    (usable env dongle ts file segs).run.Uses fun f => f.write? = none ∧ encode_inputs f = none := by
  induction segs with
  | nil => trivial
  | cons n rest ih =>
      refine Request.Uses.bind (Request.Uses.unwrap_or (reads_select _) _) fun _ => ?_
      exact Request.Uses.bind ih fun _ => trivial

theorem reads_segments_with_cam (name c : Text) :
    (segments_with_cam name c).run.Uses fun f => f.write? = none ∧ encode_inputs f = none := by
  unfold segments_with_cam
  split
  · exact reads_select _
  · trivial

theorem builds_failed (seg_count : Int) (e : AppError) :
    Builds env dongle ts cam (movie_failed (fullname dongle ts) cam seg_count e).run :=
  .inr (.inr ⟨⟨seg_count, rfl⟩, fun _ => rfl⟩)

/-- An encoder run, after which an output is published. -/
theorem Builds.encode {inputs : List BlobName} {g : Option Bytes → Request Op Unit} {seg_count : Int}
    (output : ∀ bytes, g (some bytes) = publish_movie env dongle ts cam seg_count bytes)
    (failed : Builds env dongle ts cam (g none).run) : Builds env dongle ts cam (Drives.encode inputs >>= g).run := by
  refine .inr (.inl ⟨nofun, fun b => ?_⟩)
  cases b with
  | none => exact .inl failed
  | some bytes =>
      refine .inr ⟨seg_count, bytes, ?_⟩
      rw [← output]
      rfl

theorem builds_build_movie : Builds env dongle ts cam (build_movie env dongle ts cam).run := by
  unfold build_movie
  split
  · trivial
  refine .bind (reads_segments_with_cam _ _) fun segs => ?_
  unfold Request.err_if
  split
  · trivial
  refine Builds.bind (p := pure ()) trivial fun _ => .bind (reads_usable _ _) fun v_paths => ?_
  split
  · exact builds_failed _ _
  refine .bind (Request.Uses.unwrap_or (reads_segments_with_cam _ _) _) fun qsegs => ?_
  refine .bind (reads_usable _ _) fun a_paths => ?_
  have not_encoded : Builds env dongle ts cam
      (movie_not_encoded env (fullname dongle ts) cam segs.length).run := by
    refine .bind (reads_toggle _ _) fun on => ?_
    split
    · exact builds_failed _ _
    · trivial
  rw [encode_movie, bind_assoc]
  refine Builds.encode (fun bytes => rfl) ?_
  dsimp only
  rw [bind_assoc]
  refine .bind (reads_toggle _ _) fun on => ?_
  split
  · exact Builds.encode (fun bytes => rfl) not_encoded
  · exact not_encoded

end Build

/-- The blob is gone, or the one that task `i` stored. -/
def Stored (env : Env) (s : Studio) (i : Nat) (dongle ts cam : Text) : Prop :=
  ∀ bytes, s.world.blobs.read (env.path (.movie dongle ts cam)) = some bytes →
    last_put env s.log (env.path (.movie dongle ts cam)) = some i

/-- ... and of this size, if one was read. -/
def Sized (env : Env) (s : Studio) (i : Nat) (dongle ts cam : Text) (size : Nat) : Prop :=
  ∀ bytes, s.world.blobs.read (env.path (.movie dongle ts cam)) = some bytes →
    last_put env s.log (env.path (.movie dongle ts cam)) = some i ∧ (size = 0 ∨ size = bytes.length)

theorem Sized.stored {env : Env} {s : Studio} {i : Nat} {dongle ts cam : Text} {size : Nat}
    (sized : Sized env s i dongle ts cam size) : Stored env s i dongle ts cam :=
  fun bytes read => (sized bytes read).1

/-- Build `i` holds the permit and has stored its output, but not recorded it. -/
inductive Between (env : Env) (s : Studio) (i : Nat) (dongle ts cam : Text) : Prog Op (AppResult Unit) → Prop
  | measuring {seg_count : Int} (permit : s.permit = some i) (stored : Stored env s i dongle ts cam) :
      Between env s i dongle ts cam (measure_movie env dongle ts cam seg_count).run
  | probing {seg_count : Int} {size : Nat} (permit : s.permit = some i) (sized : Sized env s i dongle ts cam size) :
      Between env s i dongle ts cam (probe_movie dongle ts cam seg_count size).run
  | recording {seg_count : Int} {size : Nat} {duration : Rat} (permit : s.permit = some i)
      (sized : Sized env s i dongle ts cam size) :
      Between env s i dongle ts cam (record_movie (fullname dongle ts) cam seg_count size duration).run

/-- Where build `i` of a movie stands. -/
inductive Position (env : Env) (s : Studio) (i : Nat) (dongle ts cam : Text) : Prog Op (AppResult Unit) → Prop
  | gathering {p : Prog Op (AppResult Unit)} (builds : Builds env dongle ts cam p) : Position env s i dongle ts cam p
  | storing {seg_count : Int} {output : Bytes} (permit : s.permit = some i) :
      Position env s i dongle ts cam (publish_movie env dongle ts cam seg_count output).run
  | between {p : Prog Op (AppResult Unit)} (between : Between env s i dongle ts cam p) :
      Position env s i dongle ts cam p

/-- A write that neither records a movie nor stores anything but a segment's artifact. -/
def Harmless : Write → Prop
  | .blob_put name _ => ∃ dongle ts seg, ∃ f ∈ ARTIFACTS, name = .segment dongle ts seg f
  | .record_movie .. => False
  | _ => True

/-- A build is at one of its places; the other tasks do no harm. -/
def Placed (env : Env) (s : Studio) (t : MovieTask) : Prop :=
  (∀ dongle ts cam, t.job = .build dongle ts cam → '|' ∉ dongle ∧ Position env s t.id dongle ts cam t.prog) ∧
    (t.job.builds = false → t.prog.Uses fun f => ∀ w, f.write? = some w → Harmless w)

theorem harmless_handle (env : Env) (job : MovieJob) (other : job.builds = false) :
    WritesOnly Harmless (job.handle env) := by
  cases job with
  | register dongle ts seg file body =>
      refine (writes_register_segment_file env dongle ts seg file body).only.mono fun w registers => ?_
      cases w with
      | blob_put name bytes =>
          obtain ⟨f, listed, is⟩ := registers
          exact ⟨dongle, ts, seg, f, listed, is⟩
      | record_movie => exact registers.elim
      | _ => trivial
  | build => cases other
  | disable dongle ts cam => exact (Writes.bind (.attempt trivial) fun _ => .attempt trivial).only
  | delete dongle ts cam => exact (Writes.bind (.attempt trivial) fun _ => .attempt trivial).only
  | reencode_all =>
      refine (Writes.ignore (Writes.bind (Writes.unwrap_or (.select _) _) fun rows => ?_)).only
      refine .bind ?_ fun _ => .bind (.attempt trivial) fun _ => .pure _
      refine Request.Uses.forM fun row _ => ?_
      unfold delete_movie_blob
      split
      · exact Writes.attempt trivial
      · trivial

/-- Only a segment's artifact is stored without a build, and never where a movie is. -/
theorem harmless_puts {w : Write} (harmless : Harmless w) (env : Env) (dongle ts cam : Text) :
    puts env (env.path (.movie dongle ts cam)) w = false := by
  cases w with
  | blob_put name bytes =>
      obtain ⟨d, t, seg, f, listed, rfl⟩ := harmless
      refine decide_eq_false fun same => ?_
      have each : ∀ f ∈ ARTIFACTS, 4 ≤ f.length ∧ (sanitize f).reverse.take 4 ≠ "4pm." := by decide
      obtain ⟨long, not_movie⟩ := each f listed
      have kind := ending_segment env d t seg long
      rw [same, ending_movie] at kind
      exact not_movie kind.symm
  | _ => rfl

theorem harmless_records {w : Write} (harmless : Harmless w) (name cam : Text) : records name cam w = false := by
  cases w with
  | record_movie => exact harmless.elim
  | _ => rfl

/-! ## One turn -/

section Turn

variable {env : Env} {t t' : MovieTask} {o : Outcome} {s s' : Studio}

/-- All that a turn does. -/
structure Turned (env : Env) (t t' : MovieTask) (o : Outcome) (s s' : Studio) : Prop where
  id : t'.id = t.id
  job : t'.job = t.job
  started : s'.started = s.started
  /-- One write is carried out and logged, or rows, blobs and log are as before. -/
  world : (s'.world.db = s.world.db ∧ s'.world.blobs = s.world.blobs ∧ s'.log = s.log ∧
      ∀ w, t.next_write = some w → o = .failed ∨ w.exec env s.world = none) ∨
    ∃ w, t.next_write = some w ∧ o ≠ .failed ∧ w.exec env s.world = some s'.world ∧ s'.log = (t.id, w) :: s.log
  other_permit : ∀ j, s.permit = some j → j ≠ t.id → s'.permit = some j
  own_permit : s.permit = some t.id → t'.prog.done = false → s'.permit = some t.id

theorem turned_world {β : Type} (f : Op β) (o : Outcome) (s : Studio) (i : Nat) :
    ((f.exec env o s.world).2.db = s.world.db ∧ (f.exec env o s.world).2.blobs = s.world.blobs ∧
        (carried env f o s.world).toList.map (fun w => (i, w)) ++ s.log = s.log ∧
        ∀ w, f.write? = some w → o = .failed ∨ w.exec env s.world = none) ∨
      ∃ w, f.write? = some w ∧ o ≠ .failed ∧ w.exec env s.world = some (f.exec env o s.world).2 ∧
        (carried env f o s.world).toList.map (fun w => (i, w)) ++ s.log = (i, w) :: s.log := by
  cases f with
  | write w =>
      cases o with
      | failed => exact .inl ⟨rfl, rfl, rfl, fun _ _ => .inl rfl⟩
      | _ =>
          cases done : w.exec env s.world with
          | none =>
              left
              simp only [Op.exec, carried, Op.write?, done, Option.filter_some, Option.isSome_none]
              exact ⟨trivial, trivial, by simp, fun w' is => .inr (Option.some.inj is ▸ done)⟩
          | some w' =>
              right
              refine ⟨w, rfl, ?_, ?_, ?_⟩
              · intro is
                cases is
              · simp only [Op.exec, done]
              · simp [carried, Op.write?, Option.filter_some, done]
  | read q => cases o <;> exact .inl ⟨rfl, rfl, rfl, fun w is => (Option.some_ne_none w is.symm).elim⟩
  | queue g => exact .inl ⟨rfl, rfl, rfl, fun w is => (Option.some_ne_none w is.symm).elim⟩
  | encode inputs => cases o <;> exact .inl ⟨rfl, rfl, rfl, fun w is => (Option.some_ne_none w is.symm).elim⟩
  | probe => cases o <;> exact .inl ⟨rfl, rfl, rfl, fun w is => (Option.some_ne_none w is.symm).elim⟩

theorem turned_of_turn (turned : t.turn env o s = some (s', t')) : Turned env t t' o s s' ∧
    ∃ (β : Type) (f : Op β) (k : β → Prog Op (AppResult Unit)), t.prog = .op f k ∧
      t'.prog = k (f.exec env o s.world).1 ∧ s'.world = (f.exec env o s.world).2 ∧
      s'.log = (carried env f o s.world).toList.map (fun w => (t.id, w)) ++ s.log ∧
      (t.job.builds = true → encode_inputs f ≠ none → t'.prog.done = false → s'.permit = some t.id) := by
  obtain ⟨id, job, prog⟩ := t
  unfold MovieTask.turn at turned
  cases prog with
  | ret r => cases turned
  | op f k =>
      dsimp only at turned
      split at turned
      · cases turned
      · rename_i free
        cases turned
        refine ⟨⟨rfl, rfl, rfl, turned_world f o s id, fun j held other => ?_, fun held going_on => ?_⟩,
          _, f, k, rfl, rfl, rfl, rfl, fun builds encodes going_on => ?_⟩
        · cases encodes : job.builds && (encode_inputs f).isSome with
          | true =>
              rw [encodes, held] at free
              simp [other] at free
          | false => simp [held, other]
        · cases encodes : job.builds && (encode_inputs f).isSome with
          | true =>
              dsimp only at going_on
              simp [going_on]
          | false =>
              dsimp only at going_on held
              simp [going_on, held]
        · have taken : (job.builds && (encode_inputs f).isSome) = true := by
            dsimp only at builds
            rw [builds, Bool.true_and, Option.isSome_iff_ne_none]
            exact encodes
          dsimp only at going_on
          simp [taken, going_on]

theorem write_of_encode {β : Type} {f : Op β} (encodes : encode_inputs f ≠ none) : f.write? = none := by
  cases f with
  | encode inputs => rfl
  | _ => exact (encodes rfl).elim

theorem builds_of_done {dongle ts cam : Text} {p : Prog Op (AppResult Unit)} (finished : p.done = true) :
    Builds env dongle ts cam p := by
  cases p with
  | ret r => trivial
  | op f k => cases finished

/-- What a build may be about to write: its output, or a row with no size or that of what it stored. -/
theorem Placed.build_writes (placed : Placed env s t) {dongle ts cam : Text} (job : t.job = .build dongle ts cam)
    {w : Write} (next : t.next_write = some w) :
    (s.permit = some t.id ∧ ∃ seg_count output, t.prog = (publish_movie env dongle ts cam seg_count output).run ∧
        w = .blob_put (.movie dongle ts cam) output) ∨
      ∃ seg_count bytes duration, w = .record_movie (fullname dongle ts) cam seg_count bytes duration ∧
        (bytes = 0 ∨ ∃ size : Nat, bytes = size ∧ Sized env s t.id dongle ts cam size) := by
  obtain ⟨_, position⟩ := placed.1 dongle ts cam job
  obtain ⟨id, job', prog⟩ := t
  unfold MovieTask.next_write at next
  dsimp only at position next
  cases position with
  | gathering builds =>
      cases prog with
      | ret r => cases next
      | op f k =>
          have next : f.write? = some w := next
          rcases builds with ⟨quiet, _⟩ | ⟨encodes, _⟩ | ⟨⟨n, is⟩, _⟩
          · rw [quiet] at next
            cases next
          · rw [write_of_encode encodes] at next
            cases next
          · rw [is] at next
            cases next
            exact .inr ⟨n, 0, 0, rfl, .inl rfl⟩
  | @storing n output permit =>
      cases next
      exact .inl ⟨permit, n, output, rfl, rfl⟩
  | between between =>
      cases between with
      | measuring => cases next
      | probing => cases next
      | @recording n size duration permit sized =>
          cases next
          exact .inr ⟨n, size, duration, rfl, .inr ⟨size, rfl, sized⟩⟩

theorem Placed.harmless (placed : Placed env s t) (other : t.job.builds = false) {w : Write}
    (next : t.next_write = some w) : Harmless w := by
  have uses := placed.2 other
  unfold MovieTask.next_write at next
  split at next
  · rename_i f k is
    rw [is] at uses
    exact uses.1 w next
  · cases next

theorem job_cases (job : MovieJob) : (∃ dongle ts cam, job = .build dongle ts cam) ∨ job.builds = false := by
  cases job with
  | build dongle ts cam => exact .inl ⟨dongle, ts, cam, rfl⟩
  | _ => exact .inr rfl

/-- A movie is stored by a build that holds the permit. -/
theorem Placed.puts_holds (placed : Placed env s t) {w : Write} (next : t.next_write = some w)
    {dongle ts cam : Text} (put : puts env (env.path (.movie dongle ts cam)) w = true) : s.permit = some t.id := by
  rcases job_cases t.job with ⟨d, t', c, job⟩ | other
  · rcases placed.build_writes job next with ⟨permit, _⟩ | ⟨n, bytes, duration, rfl, _⟩
    · exact permit
    · cases put
  · rw [harmless_puts (placed.harmless other next)] at put
    cases put

/-- A path that the turn does not store at. -/
theorem Turned.blob (turned : Turned env t t' o s s') {path : BlobPath}
    (no_put : ∀ w, t.next_write = some w → puts env path w = false) :
    (s'.world.blobs.read path = none ∨ s'.world.blobs.read path = s.world.blobs.read path) ∧
      last_put env s'.log path = last_put env s.log path := by
  rcases turned.world with ⟨_, blobs, log, _⟩ | ⟨w, next, _, done, log⟩
  · rw [blobs, log]
    exact ⟨.inr rfl, rfl⟩
  · have elsewhere := no_put w next
    rw [log, last_put_cons, elsewhere, Write.exec_blobs done]
    refine ⟨?_, rfl⟩
    cases w with
    | blob_put name bytes =>
        right
        dsimp only
        rw [Dir.read_write, if_neg fun same => of_decide_eq_false elsewhere same.symm]
    | blob_delete name =>
        dsimp only
        rw [Dir.read_remove]
        split
        · exact .inl rfl
        · exact .inr rfl
    | _ => exact .inr rfl

theorem Between.permit {i : Nat} {dongle ts cam : Text} {p : Prog Op (AppResult Unit)}
    (between : Between env s i dongle ts cam p) : s.permit = some i := by
  cases between with
  | measuring permit => exact permit
  | probing permit => exact permit
  | recording permit => exact permit

/-- Nobody stores a movie over that of the build that holds the permit. -/
theorem Between.kept {i : Nat} {dongle ts cam : Text} {p : Prog Op (AppResult Unit)}
    (between : Between env s i dongle ts cam p) (permit : s'.permit = some i)
    (blob : (s'.world.blobs.read (env.path (.movie dongle ts cam)) = none ∨
        s'.world.blobs.read (env.path (.movie dongle ts cam)) = s.world.blobs.read (env.path (.movie dongle ts cam))) ∧
      last_put env s'.log (env.path (.movie dongle ts cam)) = last_put env s.log (env.path (.movie dongle ts cam))) :
    Between env s' i dongle ts cam p := by
  obtain ⟨gone | same, log⟩ := blob
  · cases between with
    | measuring =>
        refine .measuring permit fun bytes read => ?_
        rw [gone] at read
        cases read
    | probing =>
        refine .probing permit fun bytes read => ?_
        rw [gone] at read
        cases read
    | recording =>
        refine .recording permit fun bytes read => ?_
        rw [gone] at read
        cases read
  · cases between with
    | measuring _ stored =>
        refine .measuring permit fun bytes read => ?_
        rw [same] at read
        rw [log]
        exact stored bytes read
    | probing _ sized =>
        refine .probing permit fun bytes read => ?_
        rw [same] at read
        rw [log]
        exact sized bytes read
    | recording _ sized =>
        refine .recording permit fun bytes read => ?_
        rw [same] at read
        rw [log]
        exact sized bytes read

/-- While another build is between storing and recording, a turn stores no movie. -/
theorem Between.other {i : Nat} {dongle ts cam : Text} {p : Prog Op (AppResult Unit)}
    (between : Between env s i dongle ts cam p) (mover : Placed env s t) (turned : Turned env t t' o s s')
    (other : i ≠ t.id) : Between env s' i dongle ts cam p := by
  have permit := between.permit
  refine between.kept (turned.other_permit _ permit other) (turned.blob fun w next => ?_)
  rw [Bool.eq_false_iff]
  intro put
  rw [mover.puts_holds next put] at permit
  exact other (Option.some.inj permit).symm

/-- A turn leaves the other tasks at their places. -/
theorem Placed.other {u : MovieTask} (placed : Placed env s u) (mover : Placed env s t)
    (turned : Turned env t t' o s s') (other : u.id ≠ t.id) : Placed env s' u := by
  refine ⟨fun dongle ts cam job => ?_, placed.2⟩
  obtain ⟨clean, position⟩ := placed.1 dongle ts cam job
  refine ⟨clean, ?_⟩
  generalize u.prog = q at position ⊢
  cases position with
  | gathering builds => exact .gathering builds
  | storing permit => exact .storing (turned.other_permit _ permit other)
  | between between => exact .between (between.other mover turned other)

/-- Once its output is stored a build is between storing and recording. -/
theorem stored_of_turn (turn : t.turn env o s = some (s', t')) {dongle ts cam : Text} {seg_count : Int}
    {output : Bytes} (permit : s.permit = some t.id)
    (prog : t.prog = (publish_movie env dongle ts cam seg_count output).run) (put : o ≠ .failed) :
    Between env s' t.id dongle ts cam t'.prog := by
  obtain ⟨turned, β, f, k, is, goes_on, world, log, _⟩ := turned_of_turn turn
  rw [publish_run, is] at prog
  cases prog
  cases o with
  | failed => exact (put rfl).elim
  | _ =>
      rw [goes_on]
      refine .measuring (turned.own_permit permit (by rw [goes_on]; rfl)) fun bytes read => ?_
      rw [log]
      show last_put env ((t.id, Write.blob_put (.movie dongle ts cam) output) :: s.log) _ = _
      rw [last_put_cons, puts, decide_eq_true rfl]
      rfl

/-- A build stays between until it records. -/
theorem Between.own {dongle ts cam : Text} (between : Between env s t.id dongle ts cam t.prog)
    (turn : t.turn env o s = some (s', t')) : Between env s' t.id dongle ts cam t'.prog ∨
      t'.prog.done = true ∧ Stored env s t.id dongle ts cam ∧
        ∃ seg_count bytes duration, t.next_write = some (.record_movie (fullname dongle ts) cam seg_count bytes duration) := by
  obtain ⟨turned, β, f, k, is, goes_on, world, log, _⟩ := turned_of_turn turn
  generalize prog : t.prog = q at between
  cases between with
  | @measuring n permit stored =>
      rw [measure_run, is] at prog
      cases prog
      rw [goes_on]
      have same_world : s'.world = s.world := by
        rw [world]
        cases o <;> rfl
      have same_log : s'.log = s.log := by
        rw [log]
        cases o <;> rfl
      refine .inl (.probing (turned.own_permit permit (by rw [goes_on]; rfl)) fun bytes read => ?_)
      rw [same_world] at read
      rw [same_log]
      refine ⟨stored bytes read, ?_⟩
      cases o with
      | failed => exact .inl rfl
      | _ =>
          right
          show ((s.world.blobs.read (env.path (.movie dongle ts cam))).map List.length).getD 0 = bytes.length
          rw [read]
          rfl
  | @probing n size permit sized =>
      rw [probe_run, is] at prog
      cases prog
      rw [goes_on]
      have same_world : s'.world = s.world := by
        rw [world]
        cases o <;> rfl
      have same_log : s'.log = s.log := by
        rw [log]
        cases o <;> rfl
      refine .inl (.recording (turned.own_permit permit (by rw [goes_on]; rfl)) fun bytes read => ?_)
      rw [same_world] at read
      rw [same_log]
      exact sized bytes read
  | @recording n size duration permit sized =>
      refine .inr ⟨?_, sized.stored, n, size, duration, ?_⟩
      · rw [is] at prog
        cases prog
        rw [goes_on]
        rfl
      · unfold MovieTask.next_write
        rw [prog]
        rfl

/-- A turn takes its own task to the next place. -/
theorem Placed.own (placed : Placed env s t) (turn : t.turn env o s = some (s', t')) : Placed env s' t' := by
  obtain ⟨turned, β, f, k, is, goes_on, world, log, acquires⟩ := turned_of_turn turn
  constructor
  · intro dongle ts cam job
    rw [turned.job] at job
    obtain ⟨clean, position⟩ := placed.1 dongle ts cam job
    refine ⟨clean, ?_⟩
    rw [turned.id]
    have builds : t.job.builds = true := by
      rw [job]
      rfl
    generalize prog : t.prog = q at position
    cases position with
    | gathering gathers =>
        rw [is] at prog
        cases prog
        rw [goes_on]
        rcases gathers with ⟨_, _, next⟩ | ⟨encodes, next⟩ | ⟨_, next⟩
        · exact .gathering (next _)
        · rcases next (f.exec env o s.world).1 with gathers | ⟨n, output, publishes⟩
          · exact .gathering gathers
          · rw [goes_on, publishes] at acquires
            rw [publishes]
            exact .storing (acquires builds encodes rfl)
        · exact .gathering (builds_of_done (next _))
    | @storing n output permit =>
        by_cases failed : o = .failed
        · rw [publish_run, is] at prog
          cases prog
          rw [goes_on, failed]
          exact .gathering trivial
        · exact .between (stored_of_turn turn permit prog failed)
    | between between =>
        rw [← prog] at between
        rcases between.own turn with between | ⟨ended, _⟩
        · exact .between between
        · exact .gathering (builds_of_done ended)
  · intro other
    rw [turned.job] at other
    have uses := placed.2 other
    rw [is] at uses
    rw [goes_on]
    exact uses.2 _

end Turn

/-! ## A run -/

/-- A movie that is shown is described by its row, or its build is about to record it. -/
def Film (env : Env) (p : Pool Studio MovieTask) (dongle ts cam : Text) : Prop :=
  ∀ row bytes, p.shared.world.db.movies.get? (fullname dongle ts, cam) = some row → row.disabled ≠ 1 →
    p.shared.world.blobs.read (env.path (.movie dongle ts cam)) = some bytes →
    Described env p.shared dongle ts cam ∨
      ∃ (i : Nat) (t : MovieTask), p.tasks[i]? = some t ∧ t.job = .build dongle ts cam ∧
        Between env p.shared t.id dongle ts cam t.prog

structure Inv (env : Env) (p : Pool Studio MovieTask) : Prop where
  started : p.shared.started = p.tasks.length
  placed : ∀ (i : Nat) (t : MovieTask), p.tasks[i]? = some t → t.id = i ∧ Placed env p.shared t
  films : ∀ dongle ts cam, '|' ∉ dongle → Film env p dongle ts cam

section Run

variable {env : Env} {p : Pool Studio MovieTask} {dongle ts cam : Text}

/-- Without a recording a movie that is shown has the row it had. -/
theorem row_of_harmless {w : Write} (harmless : Harmless w) {w₁ w₂ : World} (done : w.exec env w₁ = some w₂)
    {key : Text × Text} {row : Movie} (found : w₂.db.movies.get? key = some row) (shown : row.disabled ≠ 1) :
    w₁.db.movies.get? key = some row := by
  cases w with
  | record_movie => exact harmless.elim
  | delete_movie name cam =>
      cases done
      rw [Table.get?_delete] at found
      exact (Option.filter_eq_some_iff.1 found).1
  | delete_enabled_movies =>
      cases done
      rw [Table.get?_delete] at found
      exact (Option.filter_eq_some_iff.1 found).1
  | disable_movie name cam =>
      cases done
      dsimp only at found
      rw [Table.get?_upsert] at found
      split at found
      · refine (shown ?_).elim
        cases found
        cases w₁.db.movies.get? key <;> rfl
      · exact found
  | _ =>
      have same := (Write.framed done).movies (by simp [Write.part])
      rwa [same] at found

/-- Movies of devices whose names have no `|` have rows of their own. -/
theorem same_movie {dongle' ts' cam' : Text} (clean : '|' ∉ dongle) (clean' : '|' ∉ dongle')
    (same : (fullname dongle ts, cam) = (fullname dongle' ts', cam')) :
    (dongle, ts, cam) = (dongle', ts', cam') := by
  obtain ⟨same_name, same_cam⟩ := Prod.ext_iff.1 same
  dsimp only at same_name same_cam
  have split := fullname_split clean ts
  rw [same_name, fullname_split clean'] at split
  cases split
  rw [same_cam]

theorem Film.act (film : Film env p dongle ts cam) (new : MovieTask) :
    Film env ⟨{ p.shared with started := p.shared.started + 1 }, p.tasks ++ [new]⟩ dongle ts cam := by
  intro row bytes found shown read
  rcases film row bytes found shown read with described | ⟨i, t, member, is, between⟩
  · exact .inl described
  · refine .inr ⟨i, t, ?_, is, between.kept between.permit ⟨.inr rfl, rfl⟩⟩
    rw [List.getElem?_append_left (List.getElem?_eq_some_iff.1 member).1]
    exact member

variable {i : Nat} {t t' : MovieTask} {o : Outcome} {s' : Studio}

/-- A build of another movie that is between storing and recording stays there. -/
theorem Inv.between_other (inv : Inv env p) (member : p.tasks[i]? = some t) (turned : Turned env t t' o p.shared s')
    {j : Nat} {u : MovieTask} (there : p.tasks[j]? = some u) (other : j ≠ i) (job : u.job = .build dongle ts cam)
    (between : Between env p.shared u.id dongle ts cam u.prog) :
    ∃ (j : Nat) (u : MovieTask), (p.tasks.set i t')[j]? = some u ∧ u.job = .build dongle ts cam ∧
      Between env s' u.id dongle ts cam u.prog := by
  obtain ⟨id, placed⟩ := inv.placed i t member
  refine ⟨j, u, ?_, job, between.other placed turned ?_⟩
  · rw [List.getElem?_set_ne (Ne.symm other)]
    exact there
  · rw [(inv.placed j u there).1, id]
    exact other

/-- A turn of another job that touches neither the row nor the blob. -/
theorem Film.kept (film : Film env p dongle ts cam) (inv : Inv env p) (member : p.tasks[i]? = some t)
    (turned : Turned env t t' o p.shared s') (other : t.job ≠ .build dongle ts cam)
    (row_kept : ∀ row, s'.world.db.movies.get? (fullname dongle ts, cam) = some row → row.disabled ≠ 1 →
      p.shared.world.db.movies.get? (fullname dongle ts, cam) = some row)
    (blob_kept : (s'.world.blobs.read (env.path (.movie dongle ts cam)) = none ∨
        s'.world.blobs.read (env.path (.movie dongle ts cam)) =
          p.shared.world.blobs.read (env.path (.movie dongle ts cam))) ∧
      last_put env s'.log (env.path (.movie dongle ts cam)) =
        last_put env p.shared.log (env.path (.movie dongle ts cam)))
    (record_kept : last_record s'.log (fullname dongle ts) cam = last_record p.shared.log (fullname dongle ts) cam) :
    Film env ⟨s', p.tasks.set i t'⟩ dongle ts cam := by
  intro row bytes found shown read
  obtain ⟨gone | same, log⟩ := blob_kept
  · have read : s'.world.blobs.read (env.path (.movie dongle ts cam)) = some bytes := read
    rw [gone] at read
    cases read
  · have read : s'.world.blobs.read (env.path (.movie dongle ts cam)) = some bytes := read
    rw [same] at read
    have before := row_kept row found shown
    rcases film row bytes before shown read with ⟨row', bytes', id, has, reads, some_size, size, put, recorded⟩ |
      ⟨j, u, there, job, between⟩
    · rw [before] at has
      cases has
      rw [read] at reads
      cases reads
      exact .inl ⟨row, bytes, id, found, same.trans read, some_size, size, log.trans put, record_kept.trans recorded⟩
    · refine .inr (inv.between_other member turned there ?_ job between)
      rintro rfl
      rw [member] at there
      cases there
      exact other job

/-- A turn of a build of this movie. -/
theorem Film.own (film : Film env p dongle ts cam) (inv : Inv env p) (member : p.tasks[i]? = some t)
    (sound : Sound env p (.turn i o)) (turn : t.turn env o p.shared = some (s', t'))
    (own : t.job = .build dongle ts cam) : Film env ⟨s', p.tasks.set i t'⟩ dongle ts cam := by
  intro row bytes found shown read
  obtain ⟨turned, _⟩ := turned_of_turn turn
  obtain ⟨_, placed⟩ := inv.placed i t member
  obtain ⟨_, records_soundly⟩ := sound t member dongle ts cam own
  have here : (p.tasks.set i t')[i]? = some t' := by
    rw [List.getElem?_set_self (List.getElem?_eq_some_iff.1 member).1]
  have going_on (between : Between env s' t.id dongle ts cam t'.prog) :
      ∃ (j : Nat) (u : MovieTask), (p.tasks.set i t')[j]? = some u ∧ u.job = .build dongle ts cam ∧
        Between env s' u.id dongle ts cam u.prog :=
    ⟨i, t', here, turned.job.trans own, turned.id.symm ▸ between⟩
  have found : s'.world.db.movies.get? (fullname dongle ts, cam) = some row := found
  have read : s'.world.blobs.read (env.path (.movie dongle ts cam)) = some bytes := read
  rcases turned.world with ⟨db, blobs, log, failed⟩ | ⟨w, next, put, done, log⟩
  · -- nothing is written
    have before := found
    have reads := read
    rw [db] at before
    rw [blobs] at reads
    rcases film row bytes before shown reads with ⟨row', bytes', id, described⟩ | ⟨j, u, there, job, between⟩
    · left
      refine ⟨row', bytes', id, ?_⟩
      show s'.world.db.movies.get? _ = _ ∧ s'.world.blobs.read _ = _ ∧ _ ∧ _ ∧ last_put env s'.log _ = _ ∧
        last_record s'.log _ _ = _
      rw [db, blobs, log]
      exact described
    · right
      by_cases same : j = i
      · subst same
        rw [member] at there
        cases there
        rcases between.own turn with between | ⟨_, stored, n, size, duration, next⟩
        · exact going_on between
        · -- the row is not written only if nothing is shown or the blob is not this build's
          rcases failed _ next with failed | refused
          · rcases (records_soundly n size duration next).2 failed with unshown | gone | replaced
            · exact (shown (unshown row before)).elim
            · rw [gone] at reads
              cases reads
            · exact (replaced (stored bytes reads)).elim
          · cases refused
      · exact inv.between_other member turned there same job between
  · rcases placed.build_writes own next with ⟨permit, n, output, prog, rfl⟩ | ⟨n, size, duration, rfl, sizes⟩
    · exact .inr (going_on (stored_of_turn turn permit prog put))
    · left
      have reads : p.shared.world.blobs.read (env.path (.movie dongle ts cam)) = some bytes := by
        rw [Write.exec_blobs done] at read
        exact read
      -- a row with no size would be disabled
      have some_size : size ≠ 0 := by
        intro none
        rcases (records_soundly n size duration next).1 none with gone | disabled
        · rw [gone] at reads
          cases reads
        · have still := movie_disabled_exec (s := .record_movie (fullname dongle ts) cam n size duration) disabled
            nofun done
          simp only [Clip.disabled, found, Option.any_some] at still
          exact shown (of_decide_eq_true still)
      obtain ⟨row', _, sized, rows⟩ := record_movie_rows done
      rw [rows, if_pos rfl] at found
      cases found
      rcases sizes with none | ⟨size', is, stored⟩
      · exact (some_size none).elim
      · obtain ⟨last, none | length⟩ := stored bytes reads
        · rw [none] at is
          exact (some_size is).elim
        · refine ⟨row, bytes, t.id, ?_, read, ?_, ?_, ?_, ?_⟩
          · show s'.world.db.movies.get? _ = _
            rw [rows, if_pos rfl]
          · omega
          · omega
          · show last_put env s'.log _ = _
            rw [log, last_put_cons]
            exact last
          · show last_record s'.log _ _ = _
            rw [log, last_record_cons, records, decide_eq_true ⟨rfl, rfl⟩]
            rfl

/-- A turn of any other task. -/
theorem Film.other (film : Film env p dongle ts cam) (clean : '|' ∉ dongle) (inv : Inv env p)
    (member : p.tasks[i]? = some t) (sound : Sound env p (.turn i o))
    (turn : t.turn env o p.shared = some (s', t')) (other : t.job ≠ .build dongle ts cam) :
    Film env ⟨s', p.tasks.set i t'⟩ dongle ts cam := by
  obtain ⟨turned, _⟩ := turned_of_turn turn
  obtain ⟨_, placed⟩ := inv.placed i t member
  rcases turned.world with ⟨db, blobs, log, _⟩ | ⟨w, next, _, done, log⟩
  · refine film.kept inv member turned other (fun row found _ => ?_) ?_ ?_
    · rwa [db] at found
    · rw [blobs, log]
      exact ⟨.inr rfl, rfl⟩
    · rw [log]
  · have blob_kept (no_put : puts env (env.path (.movie dongle ts cam)) w = false) :=
      @Turned.blob _ _ _ _ _ _ turned (env.path (.movie dongle ts cam)) fun w' is => by
        rw [next] at is
        cases is
        exact no_put
    rcases job_cases t.job with ⟨dongle', ts', cam', job⟩ | harmless
    · have differs : (dongle', ts', cam') ≠ (dongle, ts, cam) := by
        intro same
        cases same
        exact other job
      obtain ⟨clean', _⟩ := placed.1 dongle' ts' cam' job
      rcases placed.build_writes job next with ⟨_, n, output, _, rfl⟩ | ⟨n, size, duration, rfl, _⟩
      · have same_rows : s'.world.db = p.shared.world.db := by
          have stored := Option.some.inj done
          rw [← stored]
        by_cases same_path : env.path (.movie dongle' ts' cam') = env.path (.movie dongle ts cam)
        · -- then this movie is not shown
          have not_shown := (sound t member dongle' ts' cam' job).1 output next dongle ts cam clean same_path.symm differs.symm
          intro row bytes found shown
          have found : s'.world.db.movies.get? (fullname dongle ts, cam) = some row := found
          rw [same_rows] at found
          exact (shown (not_shown row found)).elim
        · refine film.kept inv member turned other (fun row found _ => ?_) (blob_kept (decide_eq_false same_path)) ?_
          · rwa [same_rows] at found
          · rw [log, last_record_cons]
            rfl
      · have other_row : (fullname dongle ts, cam) ≠ (fullname dongle' ts', cam') :=
          fun same => differs (same_movie clean clean' same).symm
        obtain ⟨_, _, _, rows⟩ := record_movie_rows done
        refine film.kept inv member turned other (fun row found _ => ?_) (blob_kept rfl) ?_
        · rwa [rows, if_neg other_row] at found
        · rw [log, last_record_cons, records, decide_eq_false fun same => other_row ?_]
          · rfl
          · rw [same.1, same.2]
    · have harmless := placed.harmless harmless next
      refine film.kept inv member turned other (fun row found shown => ?_)
        (blob_kept (harmless_puts harmless env _ _ _)) ?_
      · exact row_of_harmless harmless done found shown
      · rw [log, last_record_cons, harmless_records harmless]
        rfl

theorem Placed.started {s : Studio} (placed : Placed env s t) (n : Nat) : Placed env { s with started := n } t := by
  refine ⟨fun dongle ts cam job => ?_, placed.2⟩
  obtain ⟨clean, position⟩ := placed.1 dongle ts cam job
  refine ⟨clean, ?_⟩
  generalize t.prog = q at position ⊢
  cases position with
  | gathering builds => exact .gathering builds
  | storing permit => exact .storing permit
  | between between => exact .between (between.kept between.permit ⟨.inr rfl, rfl⟩)

theorem placed_new (s : Studio) {job : MovieJob} (admitted : job.admitted = true) (n : Nat) :
    Placed env s ⟨n, job, (job.handle env).run⟩ := by
  refine ⟨fun dongle ts cam is => ?_, fun other => ?_⟩
  · cases is
    exact ⟨of_decide_eq_true admitted, .gathering builds_build_movie⟩
  · exact harmless_handle env job other

theorem Inv.act (inv : Inv env p) {job : MovieJob} (admitted : job.admitted = true) :
    Inv env ⟨{ p.shared with started := p.shared.started + 1 },
      p.tasks ++ [⟨p.shared.started, job, (job.handle env).run⟩]⟩ := by
  refine ⟨?_, fun i t member => ?_, fun dongle ts cam clean => (inv.films dongle ts cam clean).act _⟩
  · show p.shared.started + 1 = (p.tasks ++ [_]).length
    rw [List.length_append, inv.started]
    rfl
  · have member : (p.tasks ++ [_])[i]? = some t := member
    by_cases old : i < p.tasks.length
    · rw [List.getElem?_append_left old] at member
      obtain ⟨id, placed⟩ := inv.placed i t member
      exact ⟨id, placed.started _⟩
    · rw [List.getElem?_append_right (Nat.le_of_not_lt old)] at member
      cases past : i - p.tasks.length with
      | succ n =>
          rw [past] at member
          cases member
      | zero =>
          rw [past] at member
          cases member
          have started := inv.started
          refine ⟨?_, placed_new _ admitted _⟩
          show p.shared.started = i
          omega

theorem Inv.turn (inv : Inv env p) (member : p.tasks[i]? = some t) (sound : Sound env p (.turn i o))
    (turn : t.turn env o p.shared = some (s', t')) : Inv env ⟨s', p.tasks.set i t'⟩ := by
  obtain ⟨turned, _⟩ := turned_of_turn turn
  obtain ⟨id, placed⟩ := inv.placed i t member
  refine ⟨?_, fun j u there => ?_, fun dongle ts cam clean => ?_⟩
  · show s'.started = (p.tasks.set i t').length
    rw [turned.started, inv.started, List.length_set]
  · have there : (p.tasks.set i t')[j]? = some u := there
    by_cases own : j = i
    · subst own
      rw [List.getElem?_set_self (List.getElem?_eq_some_iff.1 member).1] at there
      cases there
      exact ⟨turned.id.trans id, placed.own turn⟩
    · rw [List.getElem?_set_ne (Ne.symm own)] at there
      obtain ⟨other_id, other⟩ := inv.placed j u there
      refine ⟨other_id, other.other placed turned ?_⟩
      rw [other_id, id]
      exact own
  · by_cases own : t.job = .build dongle ts cam
    · exact (inv.films dongle ts cam clean).own inv member sound turn own
    · exact (inv.films dongle ts cam clean).other clean inv member sound turn own

/-- In a run in which builds store and record as `Sound` says, every movie that is shown is
described by its row, or its build is about to record it. -/
theorem inv_of_reach {w : World} (empty : w.db.movies.rows = [])
    (reached : (movieRules env).system.Reach (Sound env) ⟨{ world := w }, []⟩ p) : Inv env p := by
  refine reached.invariant (I := Inv env) ?_ ?_
  · refine ⟨rfl, fun i t member => ?_, fun dongle ts cam _ row bytes found => ?_⟩
    · cases member
    · have found : w.db.movies.get? (fullname dongle ts, cam) = some row := found
      rw [Table.get?, empty] at found
      cases found
  · intro p e p' inv sound stepped
    obtain ⟨job, s, tasks, rfl, acted, rfl⟩ | ⟨i, o, t, s', t', rfl, member, turn, rfl⟩ := Pool.Rules.step_cases stepped
    · have acted : (if job.admitted then
          some ({ p.shared with started := p.shared.started + 1 },
            [(⟨p.shared.started, job, (job.handle env).run⟩ : MovieTask)])
        else none) = some (s, tasks) := acted
      split at acted
      · rename_i admitted
        cases acted
        exact inv.act admitted
      · cases acted
    · exact inv.turn member sound turn

end Run

/-! ## What is reported -/

section Report

variable (env : Env) (w : World)

theorem alone_cam_status (dongle ts : Text) (rows : List Movie) (cam : Text) :
    ∃ c, alone env (cam_status env dongle ts rows cam) w = (.ok c, w) ∧ c.cam = cam ∧
      (c.ready = true → ∃ row, rows.find? (fun m => decide (m.cam = cam)) = some row ∧ row.disabled ≠ 1 ∧
        (w.blobs.read (env.path (.movie dongle ts cam))).isSome = true) := by
  unfold cam_status
  cases found : rows.find? (fun m => decide (m.cam = cam)) with
  | none => exact ⟨_, rfl, rfl, nofun⟩
  | some row =>
      dsimp only
      cases disabled : Option.any (fun m : Movie => decide (m.disabled = 1)) (some row) with
      | true => exact ⟨_, rfl, rfl, nofun⟩
      | false =>
          rw [if_neg Bool.false_ne_true, if_pos Option.isSome_some, alone_bind_ok (alone_blob_exists _ w)]
          exact ⟨_, rfl, rfl, fun ready => ⟨row, rfl, of_decide_eq_false disabled, ready⟩⟩

theorem alone_cam_statuses (dongle ts : Text) (rows : List Movie) (cams : List Text) :
    ∃ statuses, alone env (cam_statuses env dongle ts rows cams) w = (.ok statuses, w) ∧
      ∀ c ∈ statuses, alone env (cam_status env dongle ts rows c.cam) w = (.ok c, w) := by
  induction cams with
  | nil => exact ⟨[], rfl, fun _ none => (List.not_mem_nil none).elim⟩
  | cons cam rest ih =>
      obtain ⟨more, ran, each⟩ := ih
      obtain ⟨c, asked, of_cam, _⟩ := alone_cam_status env w dongle ts rows cam
      refine ⟨c :: more, ?_, fun c' listed => ?_⟩
      · rw [cam_statuses, alone_bind_ok asked, alone_bind_ok ran]
        rfl
      · rcases List.mem_cons.1 listed with rfl | later
        · rw [of_cam]
          exact asked
        · exact each c' later

variable {env w}

/-- A movie reported as ready has a row that is not disabled, and a blob. -/
theorem shown_of_ready {name : Text} {statuses : List CamStatus}
    (asked : (alone env (movie_status env name) w).1 = .ok statuses) {c : CamStatus} (listed : c ∈ statuses)
    (ready : c.ready = true) : ∃ dongle ts row bytes, Text.split_once '|' name = some (dongle, ts) ∧
      w.db.movies.get? (name, c.cam) = some row ∧ row.disabled ≠ 1 ∧
      w.blobs.read (env.path (.movie dongle ts c.cam)) = some bytes := by
  unfold movie_status at asked
  cases split : Text.split_once '|' name with
  | none =>
      rw [split] at asked
      cases asked
      exact (List.not_mem_nil listed).elim
  | some parts =>
      obtain ⟨dongle, ts⟩ := parts
      rw [split] at asked
      dsimp only at asked
      rw [alone_bind_ok (alone_unwrap_or [] (alone_select _ w))] at asked
      obtain ⟨all, ran, each⟩ := alone_cam_statuses env w dongle ts
        (w.db.movies.rows.filter fun m => decide (m.fullname = name)) MOVIE_CAMS
      have ran' : (alone env (cam_statuses env dongle ts
        (w.db.movies.rows.filter fun m => decide (m.fullname = name)) MOVIE_CAMS) w).1 = .ok all := by rw [ran]
      have same := ran'.symm.trans asked
      cases same
      obtain ⟨c', reported, _, shows⟩ := alone_cam_status env w dongle ts
        (w.db.movies.rows.filter fun m => decide (m.fullname = name)) c.cam
      rw [each c listed] at reported
      cases reported
      obtain ⟨row, found, shown, stored⟩ := shows ready
      obtain ⟨bytes, read⟩ := Option.isSome_iff_exists.1 stored
      refine ⟨dongle, ts, row, bytes, rfl, ?_, shown, read⟩
      rw [List.find?_filter] at found
      rw [Table.get?, ← found]
      congr 1
      funext m
      simp [Movie.id, Prod.ext_iff]

end Report

/-- **Ready describes the file that is served.**  From no movies, by any actions of the
user and any builds, in any order and with any outcomes: if every build stores and records
as `Sound` says, then once no build is under way whatever `status` reports as ready has a
row with its blob's size, and both were written by one build. -/
theorem ready_is_described (env : Env) (w : World) (empty : w.db.movies.rows = []) (p : Pool Studio MovieTask)
    (reached : (movieRules env).system.Reach (Sound env) ⟨{ world := w }, []⟩ p)
    (quiet : ∀ t ∈ p.tasks, t.job.builds = true → t.prog.done = true) : ReadyDescribed env p.shared := by
  intro name statuses asked c listed ready
  obtain ⟨dongle, ts, row, bytes, split, found, shown, read⟩ := shown_of_ready asked listed ready
  refine ⟨dongle, ts, split, ?_⟩
  obtain ⟨is, clean⟩ := Text.split_once_eq_some split
  have is : name = fullname dongle ts := by
    rw [is, fullname, List.append_assoc]
    rfl
  rw [is] at found
  rcases (inv_of_reach empty reached).films dongle ts c.cam clean row bytes found shown read with
    described | ⟨i, t, member, job, between⟩
  · exact described
  · have done := quiet t (List.mem_of_getElem? member) (by rw [job]; rfl)
    generalize t.prog = q at between done
    cases between <;> cases done

/-! ## Poles -/

/-- A drive of one segment with its qcamera. -/
private def one_take : World :=
  { one_drive (.single { drive_segment 0 with qcam_url := "q" }) with
    blobs := Dir.write Table.empty (plain_env.path (.segment "d" "t" 0 "qcamera.ts")) [1] }

/-- Task `i` builds the movie of the one segment. -/
private def good_take (i : Nat) (output : Bytes) : List (Pool.Event MovieJob Outcome) :=
  .act (.build "d" "t" "qcamera") :: List.replicate 4 (.turn i .ok) ++ [.turn i (.encoded output)] ++
    List.replicate 2 (.turn i .ok) ++ [.turn i (.probed 60), .turn i .ok]

private def reported_ready (w : World) : Bool :=
  match (alone plain_env (movie_status plain_env "d|t") w).1 with
  | .ok statuses => statuses.any fun c => c.ready && decide (c.cam = "qcamera")
  | .error _ => false

private theorem reported {w : World} (ready : reported_ready w = true) :
    ∃ statuses, (alone plain_env (movie_status plain_env "d|t") w).1 = .ok statuses ∧
      ∃ c ∈ statuses, c.ready = true ∧ c.cam = "qcamera" := by
  unfold reported_ready at ready
  split at ready
  · rename_i statuses asked
    obtain ⟨c, listed, is⟩ := List.any_eq_true.1 ready
    obtain ⟨is_ready, cam⟩ := Bool.and_eq_true_iff.1 is
    exact ⟨statuses, asked, c, listed, is_ready, of_decide_eq_true cam⟩
  · cases ready

/-- A second segment comes in after the movie was built; the rebuild fails.  The movie is
then ready with 0 bytes. -/
theorem failed_rebuild_ready : ¬ ∀ (env : Env) (w : World) (p : Pool Studio MovieTask),
    w.db.movies.rows = [] → (movieRules env).system.Reach System.free ⟨{ world := w }, []⟩ p →
    (∀ t ∈ p.tasks, t.job.builds = true → t.prog.done = true) → ReadyDescribed env p.shared := by
  intro claim
  have run : ((movieRules plain_env).system.replay ⟨{ world := one_take }, []⟩
      (good_take 0 [7] ++ .act (.register "d" "t" 1 "qcamera.ts" [2]) :: List.replicate 5 (.turn 1 .ok) ++
        .act (.build "d" "t" "qcamera") :: List.replicate 11 (.turn 2 .ok))).any (fun p =>
      p.tasks.all (fun t => t.prog.done) && reported_ready p.shared.world &&
        (p.shared.world.db.movies.get? (fullname "d" "t", "qcamera")).all fun row => decide (row.bytes = 0)) = true := by
    decide
  obtain ⟨p, reached, run⟩ := (Option.any_eq_true _ _).1 run
  simp only [Bool.and_eq_true] at run
  obtain ⟨⟨done, ready⟩, no_size⟩ := run
  obtain ⟨statuses, asked, c, listed, is_ready, cam⟩ := reported ready
  obtain ⟨dongle, ts, split, row, bytes, id, found, _, some_size, _⟩ :=
    claim plain_env one_take p rfl (System.reach_of_replay reached)
      (fun t member _ => List.all_eq_true.1 done t member) "d|t" statuses asked c listed is_ready
  cases split
  rw [cam] at found
  have found : p.shared.world.db.movies.get? (fullname "d" "t", "qcamera") = some row := found
  rw [found] at no_size
  have none : row.bytes = 0 := of_decide_eq_true no_size
  omega

/-- A check for `Sound`: when a build stores there are no rows, and it records some size. -/
private def sound_turn (p : Pool Studio MovieTask) (e : Pool.Event MovieJob Outcome) : Bool :=
  match e with
  | .act _ => true
  | .turn i o =>
      match (p.tasks[i]?).bind MovieTask.next_write with
      | some (.blob_put _ _) => p.shared.world.db.movies.rows.isEmpty
      | some (.record_movie _ _ _ bytes _) => decide (bytes ≠ 0) && decide (o ≠ .failed)
      | _ => true

private theorem sound_of_turn {p : Pool Studio MovieTask} {e : Pool.Event MovieJob Outcome}
    (checked : sound_turn p e = true) : Sound plain_env p e := by
  cases e with
  | act job => trivial
  | turn i o =>
      intro t member dongle ts cam _
      refine ⟨fun output next dongle' ts' cam' _ _ _ => ?_, fun n bytes duration next => ?_⟩
      · simp only [sound_turn, member, Option.bind_some, next, List.isEmpty_iff] at checked
        intro row found
        rw [Table.get?, checked] at found
        cases found
      · simp only [sound_turn, member, Option.bind_some, next, Bool.and_eq_true, decide_eq_true_eq] at checked
        exact ⟨fun none => (checked.1 none).elim, fun failed => (checked.2 failed).elim⟩

/-- The movie is built, everything is re-encoded, and it is built again. -/
theorem ready_is_described_rebuilt : ∃ p : Pool Studio MovieTask, ReadyDescribed plain_env p.shared ∧
    reported_ready p.shared.world = true ∧ p.shared.world.db.movies.rows.map Movie.bytes = [2] := by
  have run : (((movieRules plain_env).system.guard fun p e => sound_turn p e = true).replay
      ⟨{ world := one_take }, []⟩
      (good_take 0 [7] ++ .act .reencode_all :: List.replicate 3 (.turn 1 .ok) ++ good_take 2 [7, 8])).any (fun p =>
      p.tasks.all (fun t => t.prog.done) && reported_ready p.shared.world &&
        decide (p.shared.world.db.movies.rows.map Movie.bytes = [2])) = true := by
    decide
  obtain ⟨p, reached, run⟩ := (Option.any_eq_true _ _).1 run
  simp only [Bool.and_eq_true, decide_eq_true_eq] at run
  obtain ⟨⟨done, ready⟩, sizes⟩ := run
  refine ⟨p, ?_, ready, sizes⟩
  exact ready_is_described plain_env one_take rfl p
    ((System.reach_of_replay_guard reached).mono fun _ _ checked => sound_of_turn checked)
    fun t member _ => List.all_eq_true.1 done t member

end HomeConnect.Media
