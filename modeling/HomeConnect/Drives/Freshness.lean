/-
# Drives.Freshness -- when route aggregates go stale

`recompute_route` selects a route's segment rows and then writes their aggregation, and
nothing keeps another task from changing the rows, or from writing an aggregation of its
own, in between: of two cameras registered at once the older aggregation can be written
last, and stays (`older_aggregation_written_last`).

The task that selects and writes is an instance of `Theory.Recompute`.  Its condition
`Safe` says which writes do harm: those of an aggregation the rows no longer have, when
no other task has yet to select them or is about to write what they have.  In every run
without such a write the aggregates are fresh once all tasks have ended
(`aggregates_fresh`).
-/
import HomeConnect.Drives.Ingest
import HomeConnect.Drives.Poles
import HomeConnect.Theory.Recompute

namespace HomeConnect.Drives

open HomeConnect.Theory HomeConnect.Storage

set_option autoImplicit false

/-! ## The foreign key of the segment rows -/

/-- Every segment row refers to a row of `routes`. -/
def Linked (db : Storage.Db) : Prop :=
  ∀ s ∈ db.segments.rows, ∃ r ∈ db.routes.rows, r.fullname = s.canonical_route_name

theorem route_of_get? {db : Storage.Db} {name : Text} (found : (db.routes.get? name).isSome) :
    ∃ r ∈ db.routes.rows, r.fullname = name := by
  obtain ⟨r, at_name⟩ := Option.isSome_iff_exists.1 found
  exact ⟨r, Table.get?_eq_some.1 at_name⟩

theorem accepted_segment {w : World} {dongle ts : Text} {seg : Int}
    (accepted : w.refuses_segment dongle ts seg = false)
    (absent : w.db.segments.get? (canonical dongle ts seg) = none) :
    ∃ r ∈ w.db.routes.rows, r.fullname = fullname dongle ts := by
  apply route_of_get?
  cases found : w.db.routes.get? (fullname dongle ts) with
  | none => simp [World.refuses_segment, absent, found] at accepted
  | some r => rfl

/-- A write that changes neither table's names keeps the foreign key. -/
theorem Linked.congr {db db' : Storage.Db} (linked : Linked db)
    (segments : ∀ s' ∈ db'.segments.rows,
      ∃ s ∈ db.segments.rows, s.canonical_route_name = s'.canonical_route_name)
    (routes : ∀ r ∈ db.routes.rows, ∃ r' ∈ db'.routes.rows, r'.fullname = r.fullname) :
    Linked db' := by
  intro s' member'
  obtain ⟨s, member, same⟩ := segments s' member'
  obtain ⟨r, route, named⟩ := linked s member
  obtain ⟨r', route', named'⟩ := routes r route
  exact ⟨r', route', by rw [named', named, same]⟩

/-- Every write keeps the foreign key. -/
theorem Linked.exec {env : Env} {s : Write} {w w' : World} (linked : Linked w.db)
    (done : s.exec env w = some w') : Linked w'.db := by
  have same_routes : ∀ r ∈ w.db.routes.rows, ∃ r' ∈ w.db.routes.rows, r'.fullname = r.fullname :=
    fun r member => ⟨r, member, rfl⟩
  have same_segments : ∀ s' ∈ w.db.segments.rows,
      ∃ s ∈ w.db.segments.rows, s.canonical_route_name = s'.canonical_route_name :=
    fun s member => ⟨s, member, rfl⟩
  cases s with
  | insert_route dongle ts =>
      simp only [Write.exec] at done
      split at done
      · cases done
      · cases done
        exact linked.congr same_segments fun r member =>
          ⟨r, Table.mem_insertIfAbsent.2 (.inl member), rfl⟩
  | insert_segment dongle ts seg =>
      simp only [Write.exec] at done
      split at done
      · cases done
      · rename_i accepted
        cases done
        intro s' member
        rcases Table.mem_insertIfAbsent.1 member with old | ⟨rfl, absent⟩
        · exact linked s' old
        · have owner := accepted_segment (Bool.not_eq_true _ ▸ accepted) absent
          exact owner
  | upsert_segment dongle ts seg data =>
      simp only [Write.exec] at done
      split at done
      · cases done
      · rename_i accepted
        cases done
        intro s' member
        simp only [Table.upsert] at member
        split at member
        · rename_i absent
          rcases Table.mem_insertIfAbsent.1 member with old | ⟨rfl, _⟩
          · exact linked s' old
          · have owner := accepted_segment (Bool.not_eq_true _ ▸ accepted) absent
            exact owner
        · obtain ⟨s, old, rfl⟩ := Table.mem_update.1 member
          obtain ⟨r, route, named⟩ := linked s old
          refine ⟨r, route, ?_⟩
          split <;> exact named
  | set_url dongle ts seg col url =>
      cases done
      refine linked.congr (fun s' member => ?_) same_routes
      obtain ⟨s, old, rfl⟩ := List.mem_map.1 member
      refine ⟨s, old, ?_⟩
      split
      · exact (s.set_url_route col url).symm
      · rfl
  | set_aggregates name aggregates =>
      cases done
      exact linked.congr same_segments fun r member => Table.exists_mem_update (fun _ => by rfl) member
  | set_meta name info =>
      cases done
      exact linked.congr same_segments fun r member => Table.exists_mem_update (fun _ => by rfl) member
  | set_sync_types name types =>
      cases done
      exact linked.congr same_segments fun r member => Table.exists_mem_update (fun _ => by rfl) member
  | delete_segments name =>
      cases done
      exact linked.congr (fun s member => ⟨s, (Table.mem_delete.1 member).1, rfl⟩) same_routes
  | delete_route name =>
      simp only [Write.exec] at done
      split at done
      · cases done
      · rename_i unused
        cases done
        intro s member
        obtain ⟨r, route, named⟩ := linked s member
        refine ⟨r, Table.mem_delete.2 ⟨route, ?_⟩, named⟩
        -- a route a segment refers to is not the one deleted
        by_contra hit
        have hit' : r.fullname = name := by simpa using hit
        refine unused ?_
        rw [Bool.and_eq_true, List.any_eq_true]
        refine ⟨?_, s, member, by simpa [← named] using hit'⟩
        rw [(Table.get?_eq_some (a := r)).2 ⟨route, hit'⟩]
        rfl
  | ts_rename tmp out =>
      obtain ⟨bytes, _, rfl⟩ := Option.map_eq_some_iff.1 done
      exact linked
  | _ => cases done; exact linked

/-! ## Segment rows and aggregates after one operation -/

section Recompute

variable (env : Env) (dongle ts : Text)

/-- An operation that changes neither segment rows nor route aggregates. -/
def Quiet {β : Type} (f : Op β) : Prop :=
  ∀ o w, (f.exec env o w).2.db.segments = w.db.segments ∧
    ∀ name, ((f.exec env o w).2.db.routes.get? name).map Route.aggregates =
      (w.db.routes.get? name).map Route.aggregates

/-- `recompute_route` as a select-and-publish task. -/
def recompute : Recompute World Op Outcome (List Segment) Aggregates AppError where
  exec := Op.exec env
  done o := o ≠ .failed
  select := .read fun w => w.db.route_segments (fullname dongle ts)
  derive := aggregate
  publish a := .write (.set_aggregates (fullname dongle ts) a)
  nothing segs := segs = []
  quiet := Quiet env
  source w := w.db.route_segments (fullname dongle ts)
  current w := Fresh w.db (fullname dongle ts)
  inv w := Linked w.db

theorem exec_set_aggregates (name : Text) (a : Aggregates) (o : Outcome) (w : World) :
    ((Op.write (.set_aggregates name a)).exec env o w).2.db.segments = w.db.segments := by
  cases o <;> rfl

theorem fresh_set_aggregates {w : World} {o : Outcome} (carried : o ≠ .failed)
    (linked : Linked w.db) (name : Text) :
    Fresh ((Op.write (.set_aggregates name (aggregate (w.db.route_segments name)))).exec env o w).2.db
      name := by
  have rows : ((Op.write (.set_aggregates name (aggregate (w.db.route_segments name)))).exec
      env o w).2.db.route_segments name = w.db.route_segments name := by
    rw [Db.route_segments, exec_set_aggregates, Db.route_segments]
  rw [Fresh, rows]
  by_cases empty : w.db.route_segments name = []
  · exact .inl empty
  · right
    -- a segment row guarantees the route row the update hits
    obtain ⟨s, member⟩ := List.exists_mem_of_ne_nil _ empty
    have listed : s ∈ w.db.segments.rows ∧ s.canonical_route_name = name := by
      simpa [Db.route_segments, List.mem_insertionSort] using member
    obtain ⟨r, route, named⟩ := linked s listed.1
    rw [listed.2] at named
    have found : w.db.routes.get? name = some r := Table.get?_eq_some.2 ⟨route, named⟩
    cases o with
    | failed => exact absurd rfl carried
    | _ => simp [Op.exec, Write.exec, Table.get?_update, found, named]

theorem recompute_lawful : (recompute env dongle ts).Lawful where
  exec_select := by
    intro o carried w
    cases o with
    | failed => exact absurd rfl carried
    | _ => rfl
  source_publish := by
    intro a o w
    simp only [recompute, Db.route_segments, exec_set_aggregates]
  current_publish := fun carried linked => fresh_set_aggregates env carried linked _
  current_of_nothing := .inl
  source_quiet := by
    intro β f o w quiet
    simp only [recompute, Db.route_segments, (quiet o w).1]
  current_quiet := by
    intro β f o w quiet current
    simpa only [recompute, Fresh, Db.route_segments, (quiet o w).1, (quiet o w).2] using current
  inv_exec := by
    intro β f o w linked
    rcases Op.exec_cases env f o w with same | ⟨s, w', _, _, done, after⟩ | ⟨q, same⟩
    · simp only [recompute, same]; exact linked
    · simp only [recompute, after]; exact linked.exec done
    · simp only [recompute, same]; exact linked

/-! ## What the ingesting functions do -/

variable {env dongle ts}

theorem quiet_of_write {s : Write} (quiet : ∀ w w', s.exec env w = some w' →
    w'.db.segments = w.db.segments ∧ ∀ name, (w'.db.routes.get? name).map Route.aggregates =
      (w.db.routes.get? name).map Route.aggregates) : Quiet env (Op.write s) := by
  intro o w
  cases o with
  | failed => exact ⟨rfl, fun _ => rfl⟩
  | _ =>
      cases done : s.exec env w with
      | none => simp only [Op.exec, done]; exact ⟨trivial, fun _ => trivial⟩
      | some w' => simp only [Op.exec, done]; exact quiet w w' done

theorem quiet_set_meta (name : Text) (info : RouteMeta) :
    Quiet env (Op.write (.set_meta name info)) := by
  refine quiet_of_write fun w w' done => ?_
  cases done
  refine ⟨rfl, fun n => ?_⟩
  simp only [Table.get?_update, Option.map_map]
  congr 1
  funext r
  simp only [Function.comp]
  split <;> rfl

theorem quiet_set_last_gps (dongle : Text) (lat lng : Rat) (time : Int) :
    Quiet env (Op.write (.set_last_gps dongle lat lng time)) :=
  quiet_of_write fun w w' done => by cases done; exact ⟨rfl, fun _ => rfl⟩

theorem quiet_blob_put (name : BlobName) (bytes : Bytes) :
    Quiet env (Op.write (.blob_put name bytes)) :=
  quiet_of_write fun w w' done => by cases done; exact ⟨rfl, fun _ => rfl⟩

/-- `recompute_route` followed by something quiet is pending. -/
theorem recompute_route_pending {k : AppResult Unit → Prog Op (AppResult Unit)}
    (rest : ∀ r, (recompute env dongle ts).Settled (k r)) :
    (recompute env dongle ts).Pending ((recompute_route dongle ts).run >>= k) := by
  have unfolded : (recompute_route dongle ts).run >>= k =
      .op (recompute env dongle ts).select fun
        | .ok segs =>
            if segs.isEmpty then k (.ok ())
            else .op ((recompute env dongle ts).publish (aggregate segs)) k
        | .error e => k (.error e) := by
    rw [recompute_route, select, Request.run_perform_bind, Prog.op_bind]
    congr 1
    funext r
    cases r with
    | error e => rfl
    | ok segs =>
        dsimp only
        split <;> rfl
  rw [unfolded]
  refine .select _ fun segs => ?_
  by_cases empty : segs = []
  · left
    subst empty
    exact ⟨rfl, rest _⟩
  · right
    refine ⟨k, ?_, rest⟩
    simp only [List.isEmpty_iff, empty, if_false]
    rfl

/-- Whatever a function does first, it ends with an error or goes on pending. -/
theorem pending_bind {α : Type} (p : Request Op α) {g : α → Request Op Unit}
    (rest : ∀ a, (recompute env dongle ts).Pending (g a).run) :
    (recompute env dongle ts).Pending (p >>= g).run := by
  rw [Request.run_bind]
  refine Recompute.Pending.bind _ fun r => ?_
  cases r with
  | ok a => exact rest a
  | error e => exact .failed e

theorem parse_and_store_pending (seg : Int) (file : Text) (raw : Bytes) :
    (recompute env dongle ts).Pending (parse_and_store env dongle ts seg file raw).run := by
  refine pending_bind _ fun acc => pending_bind _ fun _ => pending_bind _ fun _ => ?_
  rw [Request.run_bind]
  refine recompute_route_pending fun r => ?_
  cases r with
  | error e => trivial
  | ok _ =>
      refine Request.Uses.bind ?_ fun _ => ?_
      · exact ⟨quiet_set_meta _ _, fun r => by trivial⟩
      · rw [update_last_gps]
        split
        · exact ⟨quiet_set_last_gps _ _ _ _, fun _ => trivial⟩
        · trivial

theorem register_segment_file_pending (seg : Int) (file : Text) (body : Bytes) :
    (recompute env dongle ts).Pending (register_segment_file env dongle ts seg file body).run := by
  rw [register_segment_file]
  split
  · exact parse_and_store_pending seg file body
  · refine pending_bind _ fun _ => ?_
    rw [Request.run_ignore]
    exact recompute_route_pending fun _ => trivial

theorem parse_model_and_store_settled (seg : Int) (file : Text) (raw : Bytes) :
    (parse_model_and_store env dongle ts seg file raw).run.Uses (Quiet env) := by
  rw [parse_model_and_store]
  split
  · trivial
  · exact ⟨quiet_blob_put _ _, fun _ => trivial⟩

theorem ingest_segment_file_pending (seg : Int) (file : Text) (body : Bytes) :
    (recompute env dongle ts).Pending (ingest_segment_file env dongle ts seg file body).run := by
  refine pending_bind _ fun _ => ?_
  rw [Request.run_bind]
  refine (register_segment_file_pending seg file body).followed (fun e => rfl) fun r => ?_
  cases r with
  | error e => trivial
  | ok _ =>
      dsimp only
      split
      · exact Prog.Uses.bind (parse_model_and_store_settled seg file body) fun _ => trivial
      · trivial

/-- An upload registers its file as `register_segment_file` does. -/
theorem register_upload_eq (seg : Int) (file : Text) (body : Bytes) :
    register_upload env dongle ts seg file body = register_segment_file env dongle ts seg file body :=
  rfl

theorem upload_driving_pending (auth : Auth) (seg : Int) (file : Text) (body : Bytes) :
    (recompute env dongle ts).Pending
      (upload_driving env auth dongle ts seg file body >>= Request.of_result).run := by
  rw [upload_driving, bind_assoc]
  refine pending_bind _ fun _ => ?_
  rw [bind_assoc]
  refine pending_bind _ fun _ => ?_
  rw [Request.capture_bind_of_result, register_upload_eq]
  exact register_segment_file_pending seg file body

end Recompute

/-! ## Any number of files of one route at once -/

/-- One file of the route on its way in: pulled, found on disk, or uploaded. -/
inductive Ingest
  | pull (seg : Int) (file : Text) (body : Bytes)
  | on_disk (seg : Int) (file : Text) (body : Bytes)
  | upload (auth : Auth) (seg : Int) (file : Text) (body : Bytes)
deriving DecidableEq, Repr

/-- An upload whose registration failed counts as failed here, though it was answered. -/
def Ingest.handle (env : Env) (dongle ts : Text) : Ingest → Request Op Unit
  | .pull seg file body => ingest_segment_file env dongle ts seg file body
  | .on_disk seg file body => register_segment_file env dongle ts seg file body
  | .upload auth seg file body =>
      upload_driving env auth dongle ts seg file body >>= Request.of_result

abbrev IngestTask := Task Ingest Op (AppResult Unit)

def ingestRules (env : Env) (dongle ts : Text) : Pool.Rules World IngestTask Ingest Outcome where
  act file w := some (w, [⟨file, (file.handle env dongle ts).run⟩])
  turn := Task.turn (Op.exec env)

section Run

variable {env : Env} {dongle ts : Text}

theorem handle_pending (file : Ingest) :
    (recompute env dongle ts).Pending (file.handle env dongle ts).run := by
  cases file with
  | pull seg file body => exact ingest_segment_file_pending seg file body
  | on_disk seg file body => exact register_segment_file_pending seg file body
  | upload auth seg file body => exact upload_driving_pending auth seg file body

/-- Every turn is safe: a write of the aggregates is that of the rows' own aggregation,
unless another task has yet to select the rows or is about to write it. -/
def Current (env : Env) (dongle ts : Text) (p : Pool World IngestTask) :
    Pool.Event Ingest Outcome → Prop
  | .act _ => True
  | .turn i o => (recompute env dongle ts).Safe p i o

theorem ingest_inv {w : World} (linked : Linked w.db) {p : Pool World IngestTask}
    (reached : (ingestRules env dongle ts).system.Reach (Current env dongle ts) ⟨w, []⟩ p) :
    (recompute env dongle ts).Inv p := by
  refine reached.invariant ⟨linked, fun t member => (List.not_mem_nil member).elim, .inl rfl⟩ ?_
  intro p e p' inv safe stepped
  obtain ⟨file, w', started, rfl, acted, rfl⟩ | ⟨i, o, t, w', t', rfl, found, turned, rfl⟩ :=
    Pool.Rules.step_cases stepped
  · cases acted
    refine inv.start fun t member => ?_
    rw [List.mem_singleton.1 member]
    exact handle_pending file
  · exact inv.turn (recompute_lawful env dongle ts) safe found turned

/-- **Aggregates are fresh.**  When all files of a route have been ingested without an
error, in a run whose writes of the aggregates are all current, the route's aggregates
are the aggregation of its segment rows. -/
theorem aggregates_fresh (env : Env) (dongle ts : Text) (w : World) (linked : Linked w.db)
    (p : Pool World IngestTask)
    (reached : (ingestRules env dongle ts).system.Reach (Current env dongle ts) ⟨w, []⟩ p)
    (started : p.tasks ≠ []) (ended : ∀ t ∈ p.tasks, t.prog.result? = some (.ok ())) :
    Fresh p.shared.db (fullname dongle ts) := by
  refine (ingest_inv linked reached).current started fun t member => ⟨(), ?_⟩
  have returned := ended t member
  cases prog : t.prog with
  | ret r =>
      rw [prog] at returned
      rw [Option.some.inj returned]
  | op f k =>
      rw [prog] at returned
      cases returned

end Run

/-! ## Poles -/

private def new_device : World := one_device { dongle_id := "d" }

private theorem new_device_linked : Linked new_device.db := fun _ member => (List.not_mem_nil member).elim

private def camera (seg : Int) : Pool.Event Ingest Outcome := .act (.on_disk seg "qcamera.ts" [])

private def step_of (i : Nat) : Pool.Event Ingest Outcome := .turn i .ok

/-- Cameras of two segments: the first selects before the second's row exists, and
writes after it. -/
theorem older_aggregation_written_last : ¬ ∀ (env : Env) (dongle ts : Text) (w : World),
    Linked w.db → ∀ p : Pool World IngestTask,
    (ingestRules env dongle ts).system.Reach System.free ⟨w, []⟩ p → p.tasks ≠ [] →
    (∀ t ∈ p.tasks, t.prog.result? = some (.ok ())) → Fresh p.shared.db (fullname dongle ts) := by
  intro claim
  have run : ∃ p, (ingestRules plain_env "d" "t").system.replay ⟨new_device, []⟩
      ([camera 0, camera 1] ++ List.replicate 4 (step_of 0) ++ List.replicate 5 (step_of 1) ++
        [step_of 0]) = some p ∧
      (p.tasks.map fun t => t.prog.result?) = [some (.ok ()), some (.ok ())] ∧
      ¬ Fresh p.shared.db (fullname "d" "t") := by
    refine ⟨_, rfl, ?_⟩
    decide +kernel
  obtain ⟨p, replayed, ended, stale⟩ := run
  refine stale (claim _ _ _ _ new_device_linked p (System.reach_of_replay replayed) ?_ ?_)
  · intro none
    rw [none] at ended
    cases ended
  · intro t member
    have listed := List.mem_map_of_mem (f := fun t => t.prog.result?) member
    rw [ended] at listed
    simpa using listed

/-- A check for `Current`: every write of the aggregates is that of the rows. -/
private def writes_rows (p : Pool World IngestTask) : Pool.Event Ingest Outcome → Bool
  | .act _ => true
  | .turn i .ok =>
      match p.tasks[i]? with
      | some ⟨_, .op (.write (.set_aggregates _ a)) _⟩ =>
          a = aggregate (p.shared.db.route_segments (fullname "d" "t"))
      | _ => true
  | .turn _ _ => false

private theorem current_of_writes_rows (p : Pool World IngestTask)
    (e : Pool.Event Ingest Outcome) (checked : writes_rows p e = true) :
    Current plain_env "d" "t" p e := by
  cases e with
  | act file => trivial
  | turn i o =>
      cases o with
      | ok =>
          intro t found
          refine ⟨fun k prog => by simp [recompute], fun a k prog => ⟨by simp [recompute], .inl ?_⟩⟩
          obtain ⟨tag, prog'⟩ := t
          cases prog
          simpa [writes_rows, found, recompute] using checked
      | failed => cases checked
      | encoded bytes => cases checked
      | probed duration => cases checked

/-- The same two cameras, both rows in place before either selects. -/
theorem aggregates_fresh_overlapping : ∃ p : Pool World IngestTask,
    (ingestRules plain_env "d" "t").system.Reach (Current plain_env "d" "t") ⟨new_device, []⟩ p ∧
      Fresh p.shared.db (fullname "d" "t") ∧
      (p.shared.db.routes.get? (fullname "d" "t")).map (fun r => r.aggregates.segment_numbers) =
        some [0, 1] := by
  have run : (((ingestRules plain_env "d" "t").system.guard fun p e =>
        writes_rows p e = true).replay ⟨new_device, []⟩
      ([camera 0, camera 1] ++ List.replicate 3 (step_of 0) ++ List.replicate 4 (step_of 1) ++
        [step_of 0, step_of 0, step_of 1])).any (fun p =>
      (p.tasks.map fun t => t.prog.result?) = [some (.ok ()), some (.ok ())] ∧
      (p.shared.db.routes.get? (fullname "d" "t")).map (fun r => r.aggregates.segment_numbers) =
        some [0, 1]) = true := by
    decide +kernel
  obtain ⟨p, replayed, checked⟩ := (Option.any_eq_true _ _).1 run
  obtain ⟨ended, numbers⟩ := of_decide_eq_true checked
  have reached := (System.reach_of_replay_guard replayed).mono current_of_writes_rows
  refine ⟨p, reached, aggregates_fresh _ _ _ _ new_device_linked p reached ?_ ?_, numbers⟩
  · intro none
    rw [none] at ended
    cases ended
  · intro t member
    have listed := List.mem_map_of_mem (f := fun t => t.prog.result?) member
    rw [ended] at listed
    simpa using listed

end HomeConnect.Drives
