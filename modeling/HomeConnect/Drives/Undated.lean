/-
# Drives.Undated -- what a function does whatever the time

The rows of routes and segments say when they were created, and nothing that ingests a file
goes by it.  Two worlds are `Alike` when they differ in the clock and in these dates only;
run in two such worlds, each of the ingesting functions returns the same and leaves two such
worlds (`Undated`).
-/
import HomeConnect.Drives.Alone

namespace HomeConnect.Drives

open HomeConnect.Theory HomeConnect.Storage

set_option autoImplicit false

def undated_segment (s : Segment) : Segment := { s with created_at := 0 }

def undated_route (r : Route) : Route := { r with created_at := 0 }

/-- The same up to the clock and the dates of rows. -/
structure Alike (w w' : World) : Prop where
  accounts : w.db.accounts = w'.db.accounts
  routes : Table.Agree undated_route w.db.routes w'.db.routes
  segments : Table.Agree undated_segment w.db.segments w'.db.segments
  blobs : w.blobs = w'.blobs

namespace Alike

variable {w w' : World}

theorem refl (w : World) : Alike w w := ⟨rfl, rfl, rfl, rfl⟩

theorem of_clock (w : World) (t t' : Int) : Alike { w with now := t } { w with now := t' } :=
  ⟨rfl, rfl, rfl, rfl⟩

theorem route_absent (alike : Alike w w') (name : Text) :
    (w.db.routes.get? name).isNone = (w'.db.routes.get? name).isNone := by
  rw [← Option.not_isSome, ← Option.not_isSome, alike.routes.isSome (fun _ => rfl)]

theorem segment_absent (alike : Alike w w') (name : Text) :
    (w.db.segments.get? name).isNone = (w'.db.segments.get? name).isNone := by
  rw [← Option.not_isSome, ← Option.not_isSome, alike.segments.isSome (fun _ => rfl)]

theorem refuses (alike : Alike w w') (dongle ts : Text) (seg : Int) :
    w.refuses_segment dongle ts seg = w'.refuses_segment dongle ts seg := by
  rw [World.refuses_segment, World.refuses_segment, alike.segment_absent, alike.route_absent]

/-- Sorting by number is blind to dates. -/
theorem route_segments (alike : Alike w w') (name : Text) :
    (w.db.route_segments name).map undated_segment =
      (w'.db.route_segments name).map undated_segment := by
  have through : ∀ db : Storage.Db, (db.route_segments name).map undated_segment =
      ((db.segments.rows.map undated_segment).filter
        fun s => decide (s.canonical_route_name = name)).insertionSort
          fun a b => a.number ≤ b.number := by
    intro db
    rw [Db.route_segments, List.filter_map]
    exact List.map_insertionSort _ _ undated_segment _ fun a _ b _ => Iff.rfl
  rw [through, through, show w.db.segments.rows.map undated_segment = _ from alike.segments]

end Alike

/-- The aggregation is blind to dates. -/
theorem aggregate_undated (segs : List Segment) :
    aggregate (segs.map undated_segment) = aggregate segs := by
  unfold aggregate max_of min_free_of
  simp only [List.find?_map, ← List.map_reverse, List.filter_map, List.map_map, Option.map_map,
    Function.comp_def, undated_segment]
  rfl

/-- The statements that ingesting a file makes. -/
def Ingests : Write → Prop
  | .blob_put .. | .add_server_storage .. | .set_last_gps .. | .insert_route .. | .insert_segment ..
  | .upsert_segment .. | .set_url .. | .set_aggregates .. | .set_meta .. => True
  | _ => False

/-- The write does the same in two worlds that are alike. -/
theorem Alike.exec {env : Env} {s : Write} {w w' : World} (alike : Alike w w')
    (ingests : Ingests s) :
    Option.Rel Alike (s.exec env w) (s.exec env w') := by
  obtain ⟨accounts, routes, segments, blobs⟩ := alike
  cases s with
  | blob_put name bytes => exact .some ⟨accounts, routes, segments, by simp only [blobs]⟩
  | add_server_storage d len => exact .some ⟨by simp only [accounts], routes, segments, blobs⟩
  | set_last_gps d lat lng time => exact .some ⟨by simp only [accounts], routes, segments, blobs⟩
  | insert_route d t =>
      have absent := Alike.route_absent ⟨accounts, routes, segments, blobs⟩ (fullname d t)
      simp only [Write.exec, absent, accounts]
      split
      · exact .none
      · exact .some ⟨rfl, routes.insertIfAbsent (fun _ => rfl) rfl, segments, blobs⟩
  | insert_segment d t n =>
      have refuses := Alike.refuses ⟨accounts, routes, segments, blobs⟩ d t n
      simp only [Write.exec, refuses]
      split
      · exact .none
      · exact .some ⟨accounts, routes, segments.insertIfAbsent (fun _ => rfl) rfl, blobs⟩
  | upsert_segment d t n data =>
      have refuses := Alike.refuses ⟨accounts, routes, segments, blobs⟩ d t n
      simp only [Write.exec, refuses]
      split
      · exact .none
      · refine .some ⟨accounts, routes, segments.upsert (fun _ => rfl) ?_ (fun _ => by rfl) ?_, blobs⟩
        · rfl
        · exact fun _ => rfl
  | set_url d t n col url =>
      have made : ∀ s : Segment, undated_segment (s.set_url col url) =
          (undated_segment s).set_url col url := by
        intro s
        cases col <;> rfl
      refine .some ⟨accounts, routes, ?_, blobs⟩
      exact segments.update (fun s => s.set_url_canonical_name col url) (fun _ => rfl) made
  | set_aggregates name aggregates =>
      exact .some ⟨accounts, routes.update (fun _ => by rfl) (fun _ => rfl) fun _ => by rfl, segments, blobs⟩
  | set_meta name info =>
      exact .some ⟨accounts, routes.update (fun _ => by rfl) (fun _ => rfl) fun _ => by rfl, segments, blobs⟩
  | _ => exact ingests.elim

/-! ## Functions -/

/-- Run in two worlds that are alike, the function returns the same and leaves two such
worlds. -/
def Undated (env : Env) {α : Type} (p : Request Op α) : Prop :=
  ∀ w w', Alike w w' → (alone env p w).1 = (alone env p w').1 ∧ Alike (alone env p w).2 (alone env p w').2

section Rules

variable {env : Env} {α β : Type}

theorem Undated.pure (a : α) : Undated env (pure a : Request Op α) := fun _ _ alike => ⟨rfl, alike⟩

theorem Undated.throw (e : AppError) : Undated env (throw e : Request Op α) :=
  fun _ _ alike => ⟨rfl, alike⟩

theorem Undated.of_result (r : AppResult α) : Undated env (Request.of_result r) :=
  fun _ _ alike => ⟨rfl, alike⟩

theorem Undated.bind {p : Request Op α} {g : α → Request Op β} (first : Undated env p)
    (rest : ∀ a, Undated env (g a)) : Undated env (p >>= g) := by
  intro w w' alike
  obtain ⟨same, alike'⟩ := first w w' alike
  rw [alone_bind, alone_bind, ← same]
  cases (alone env p w).1 with
  | ok a => exact rest a _ _ alike'
  | error e => exact ⟨rfl, alike'⟩

theorem Undated.select {q : World → α} (same : ∀ w w', Alike w w' → q w = q w') :
    Undated env (select q) := by
  intro w w' alike
  rw [alone_select, alone_select, same w w' alike]
  exact ⟨rfl, alike⟩

theorem Undated.ite {c : Prop} [Decidable c] {p q : Request Op α} (yes : Undated env p)
    (no : Undated env q) : Undated env (if c then p else q) := by
  split
  · exact yes
  · exact no

theorem Undated.forM {xs : List β} {g : β → Request Op PUnit} (each : ∀ x ∈ xs, Undated env (g x)) :
    Undated env (xs.forM g) := by
  induction xs with
  | nil => exact Undated.pure _
  | cons x xs ih =>
      exact Undated.bind (each x List.mem_cons_self) fun _ =>
        ih fun y member => each y (List.mem_cons_of_mem _ member)

theorem Undated.write {s : Write} (ingests : Ingests s) {w w' : World} (alike : Alike w w') :
    (Op.exec env (.write s) .ok w).1 = (Op.exec env (.write s) .ok w').1 ∧
      Alike (Op.exec env (.write s) .ok w).2 (Op.exec env (.write s) .ok w').2 := by
  have same : Option.Rel Alike (s.exec env w) (s.exec env w') := alike.exec ingests
  cases done : s.exec env w with
  | none =>
      rw [done] at same
      cases done' : s.exec env w' with
      | none =>
          simp only [Op.exec, done, done']
          exact ⟨trivial, alike⟩
      | some _ =>
          rw [done'] at same
          cases same
  | some a =>
      rw [done] at same
      cases done' : s.exec env w' with
      | none =>
          rw [done'] at same
          cases same
      | some b =>
          rw [done'] at same
          cases same with
          | some alike' =>
              simp only [Op.exec, done, done']
              exact ⟨trivial, alike'⟩

theorem Undated.execute {s : Write} (ingests : Ingests s) : Undated env (execute s) :=
  fun _ _ alike => Undated.write ingests alike

theorem Undated.attempt {s : Write} (ingests : Ingests s) : Undated env (Request.attempt (.write s)) :=
  fun _ _ alike => ⟨rfl, (Undated.write ingests alike).2⟩

theorem Undated.of_run {p : Request Op α} {q : Request Op β} (h : AppResult α → AppResult β)
    (is : ∀ w, alone env q w = (h (alone env p w).1, (alone env p w).2)) (undated : Undated env p) :
    Undated env q := by
  intro w w' alike
  obtain ⟨same, alike'⟩ := undated w w' alike
  rw [is, is, same]
  exact ⟨rfl, alike'⟩

theorem Undated.capture {p : Request Op α} (undated : Undated env p) :
    Undated env (Request.capture p) :=
  .of_run (fun r => .ok r) (alone_capture p) undated

theorem Undated.ignore {p : Request Op α} (undated : Undated env p) :
    Undated env (Request.ignore p) :=
  .of_run (fun _ => .ok ()) (alone_ignore p) undated

theorem Undated.map_err {p : Request Op α} (undated : Undated env p) (e : AppError) :
    Undated env (Request.map_err p e) :=
  .of_run (fun r => r.mapError fun _ => e) (alone_map_err p e) undated

theorem Undated.blob_exists (env : Env) (name : BlobName) : Undated env (blob_exists env name) := by
  refine .of_run (fun r => .ok (r.toOption.getD false)) (alone_unwrap_or_eq _ _) (.select ?_)
  intro w w' alike
  rw [alike.blobs]

end Rules

section Ingest

variable (env : Env) (dongle ts : Text) (seg : Int) (file : Text)

theorem undated_ensure_route : Undated env (ensure_route dongle ts) := .execute trivial

theorem undated_set_segment_file : Undated env (set_segment_file env dongle ts seg file) := by
  rw [set_segment_file]
  split
  · exact .pure ()
  · exact .bind (undated_ensure_route env dongle ts) fun _ => .bind (.execute trivial) fun _ =>
      .execute trivial

theorem undated_upsert_segment (acc : Accum) :
    Undated env (upsert_segment env dongle ts seg file acc) := by
  refine .bind (undated_ensure_route env dongle ts) fun _ => .bind (.execute trivial) fun _ => ?_
  refine .bind (undated_set_segment_file env dongle ts seg file) fun _ => .forM fun cam _ => ?_
  exact .bind (.blob_exists env _) fun _ =>
    .ite (undated_set_segment_file env dongle ts seg cam) (.pure _)

/-- The selected rows differ in their dates, but not in what is made of them. -/
theorem undated_recompute_route : Undated env (recompute_route dongle ts) := by
  intro w w' alike
  have rows := alike.route_segments (fullname dongle ts)
  have empty : (w.db.route_segments (fullname dongle ts)).isEmpty =
      (w'.db.route_segments (fullname dongle ts)).isEmpty := by
    rw [← List.isEmpty_map (f := undated_segment), rows, List.isEmpty_map]
  have sums : aggregate (w.db.route_segments (fullname dongle ts)) =
      aggregate (w'.db.route_segments (fullname dongle ts)) := by
    rw [← aggregate_undated, rows, aggregate_undated]
  rw [recompute_route, alone_bind_ok (alone_select _ w), alone_bind_ok (alone_select _ w'), empty,
    sums]
  split
  · exact ⟨rfl, alike⟩
  · exact Undated.execute (s := .set_aggregates (fullname dongle ts)
      (aggregate (w'.db.route_segments (fullname dongle ts)))) trivial w w' alike

theorem undated_parse_and_store (raw : Bytes) :
    Undated env (parse_and_store env dongle ts seg file raw) := by
  refine .bind (.of_result _) fun acc => .bind (.forM fun _ _ => .attempt trivial) fun _ => ?_
  refine .bind (undated_upsert_segment env dongle ts seg file acc) fun _ => ?_
  refine .bind (undated_recompute_route env dongle ts) fun _ => .bind (.execute trivial) fun _ => ?_
  rw [update_last_gps]
  split
  · exact .attempt trivial
  · exact .pure ()

theorem undated_store (body : Bytes) :
    Undated env (store env dongle (.segment dongle ts seg file) body) := by
  refine .bind (.blob_exists env _) fun _ => .bind (.ite (.throw _) (.pure ())) fun _ => ?_
  refine .bind (Undated.map_err (.execute ?_) _) fun _ => .attempt ?_
  · trivial
  · trivial

theorem undated_register_segment_file (body : Bytes) :
    Undated env (register_segment_file env dongle ts seg file body) :=
  .ite (undated_parse_and_store env dongle ts seg file body)
    (.bind (undated_set_segment_file env dongle ts seg file) fun _ =>
      (undated_recompute_route env dongle ts).ignore)

end Ingest

end HomeConnect.Drives
