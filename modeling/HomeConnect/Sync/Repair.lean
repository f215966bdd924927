/-
# Sync.Repair -- what re-parsing puts right

`reparse_all` goes over the segment rows one by one while the rows change under it: each
round assigns to the row's data and sums its route up again, with whatever the rows of
that route hold by then.  Run to its end with nothing else running, it leaves the
database as if it had been parsed afresh (`reparse_repairs`): the data of every segment
whose stored qlog can be read and parsed are what that qlog yields now, whatever they
were, every other segment keeps its own, no row comes or goes, and each route with a
segment that was parsed has the aggregates its rows add up to, stale as they may have been.

`Redone done` is what holds after some of the rounds, and `redone_round` that one more keeps
it.  A round leaves the other routes' aggregates as they are because it assigns to one row
only, and a row is listed in one route.
-/
import HomeConnect.Drives.Freshness
import HomeConnect.Drives.Poles
import HomeConnect.Drives.Tenants
import HomeConnect.Sync.Plan
import HomeConnect.Sync.Reparse

namespace HomeConnect.Sync

open HomeConnect.Theory HomeConnect.Storage HomeConnect.Drives

set_option autoImplicit false

/-- The first file of the segment that can be read. -/
def stored_qlog (env : Env) (w : World) (dongle ts : Text) (seg : Int) (files : List Text) :
    Option (Text × Bytes) :=
  files.findSome? fun f => (w.blobs.read (env.path (.segment dongle ts seg f))).map fun bytes => (f, bytes)

/-- What parsing the stored qlog of a row's segment yields. -/
def reparsed (env : Env) (w : World) (row : Text × Int) : Option Accum :=
  (Text.split_once '|' row.1).bind fun route =>
    (stored_qlog env w route.1 route.2 row.2 QLOG_FILES).bind fun log => (env.parse log.1 log.2).toOption

/-- A segment as the loop sees it. -/
def row_key (s : Segment) : Text × Int := (s.canonical_route_name, s.number)

/-! ## Rows and their names -/

section Names

variable {db db' : Storage.Db}

theorem eq_of_row_key (named : Named db) {x z : Segment} (row : x ∈ db.segments.rows)
    (row' : z ∈ db.segments.rows) (same : row_key x = row_key z) : x = z := by
  obtain ⟨d, t, _, name, route⟩ := named.segments x row
  obtain ⟨d', t', _, name', route'⟩ := named.segments z row'
  obtain ⟨routes, numbers⟩ := Prod.mk.inj same
  apply Table.eq_of_key row row'
  rw [name, name', canonical_eq, canonical_eq, ← route, ← route', routes, numbers]

/-- In a named database a route's rows differ in their numbers, so there is one way of
listing them in order. -/
theorem route_segments_eq (named : Named db) {name : Text}
    (members : ∀ s, s ∈ db.route_segments name ↔ s ∈ db'.route_segments name) :
    db.route_segments name = db'.route_segments name := by
  have total : Std.Total fun a b : Segment => a.number ≤ b.number :=
    ⟨fun a b => le_total a.number b.number⟩
  have transitive : IsTrans Segment fun a b => a.number ≤ b.number :=
    ⟨fun _ _ _ first second => le_trans first second⟩
  have nodup : ∀ db : Storage.Db, (db.route_segments name).Nodup := by
    intro db
    refine List.Nodup.of_map Segment.canonical_name ?_
    refine (((List.perm_insertionSort _ _).map _).nodup_iff).2 ?_
    exact db.segments.nodup.sublist (List.filter_sublist.map _)
  have sorted : ∀ db : Storage.Db, (db.route_segments name).Pairwise fun a b => a.number ≤ b.number :=
    fun db => List.pairwise_insertionSort (fun a b : Segment => a.number ≤ b.number) _
  refine List.Perm.eq_of_pairwise ?_ (sorted db) (sorted db')
    ((List.perm_ext_iff_of_nodup (nodup db) (nodup db')).2 members)
  intro a b first second le ge
  obtain ⟨row, of⟩ := mem_route_segments.1 first
  obtain ⟨row', of'⟩ := mem_route_segments.1 ((members b).2 second)
  apply eq_of_row_key named row row'
  rw [row_key, row_key, of, of', le_antisymm le ge]

end Names

/-! ## Artifacts and qlogs -/

/-- No artifact, of whatever route, is stored over a qlog. -/
theorem artifact_not_qlog (env : Env) {f g : Text} (artifact : f ∈ ARTIFACTS) (qlog : g ∈ QLOG_FILES)
    (dongle ts dongle' ts' : Text) (m n : Int) :
    env.path (.segment dongle ts m f) ≠ env.path (.segment dongle' ts' n g) := by
  intro same
  have names : sanitize (blob_key dongle ts m f) = sanitize (blob_key dongle' ts' n g) :=
    congrArg BlobPath.name same
  have parts : ∀ dongle ts n f, sanitize (blob_key dongle ts n f) =
      sanitize (dongle ++ "_" ++ ts ++ "--" ++ Text.decimal n ++ "--") ++ sanitize f := by
    intro dongle ts n f
    simp [sanitize, blob_key]
  have ends : ∀ f ∈ ARTIFACTS, ∀ g ∈ QLOG_FILES,
      (sanitize f).getLast? ≠ (sanitize g).getLast? ∧ sanitize f ≠ [] ∧ sanitize g ≠ [] := by decide
  obtain ⟨differ, some_f, some_g⟩ := ends f artifact g qlog
  have lasts := congrArg List.getLast? names
  rw [parts, parts, List.getLast?_append_of_ne_nil _ some_f,
    List.getLast?_append_of_ne_nil _ some_g] at lasts
  exact differ lasts

/-! ## One round -/

section Round

variable {env : Env} {dongle ts : Text} {seg : Int} {w : World}

theorem reparse_segment_alone (files : List Text) :
    alone env (reparse_segment env dongle ts seg files) w =
      (stored_qlog env w dongle ts seg files).elim (.ok false, w) fun log =>
        (.ok (alone env (parse_and_store env dongle ts seg log.1 log.2) w).1.toBool,
          (alone env (parse_and_store env dongle ts seg log.1 log.2) w).2) := by
  induction files with
  | nil => rfl
  | cons file files ih =>
      rw [reparse_segment, stored_qlog, List.findSome?_cons]
      have captured := @alone_capture env _ (blob_get env (.segment dongle ts seg file)) w
      cases read : w.blobs.read (env.path (.segment dongle ts seg file)) with
      | none =>
          have got : alone env (blob_get env (.segment dongle ts seg file)) w =
              (.error (.Other "blob read"), w) := by
            rw [blob_get, alone_bind_ok (alone_select _ w), read]
            rfl
          rw [got] at captured
          rw [alone_bind_ok captured]
          exact ih
      | some bytes =>
          have got : alone env (blob_get env (.segment dongle ts seg file)) w = (.ok bytes, w) := by
            rw [blob_get, alone_bind_ok (alone_select _ w), read]
            rfl
          rw [got] at captured
          rw [alone_bind_ok captured, Option.map_some]
          dsimp only [Option.elim]
          rw [alone_bind_ok (alone_capture _ w)]
          cases alone env (parse_and_store env dongle ts seg file bytes) w with
          | mk r w' => cases r <;> rfl

/-- A log that can be parsed is, its route's device being known. -/
theorem parse_alone {file : Text} {bytes : Bytes} {acc : Accum} (qlog : Text.contains file "qlog" = true)
    (known : (w.db.accounts.devices.get? dongle).isSome) (parsed : env.parse file bytes = .ok acc) :
    (alone env (parse_and_store env dongle ts seg file bytes) w).1 = .ok () := by
  let it : QueueItem := { dongle, addr := [], ts, seg, file }
  have script : Scripted env it (During env it w) (During env it w)
      (parse_and_store env dongle ts seg file bytes) (register_result env it bytes)
      (register_pieces env it w bytes) := script_parse qlog bytes
  have ran : alone env (parse_and_store env dongle ts seg file bytes) w =
      (register_result env it bytes, (processing env it).carried (register_pieces env it w bytes) w) :=
    script.exec (During.init known)
  have result : register_result env it bytes = .ok () := by
    rw [register_result, if_pos qlog, parsed]
    rfl
  rw [ran, result]

theorem parse_alone_error {file : Text} {bytes : Bytes} {e : AppError}
    (bad : env.parse file bytes = .error e) :
    alone env (parse_and_store env dongle ts seg file bytes) w = (.error e, w) := by
  rw [parse_and_store, bad, alone_bind, alone_of_result]

/-- What parsing a segment's log leaves of the rest. -/
structure Beside (env : Env) (dongle ts : Text) (seg : Int) (w w' : World) : Prop where
  named : Named w.db → Named w'.db
  devices : ∀ d, (w.db.accounts.devices.get? d).isSome → (w'.db.accounts.devices.get? d).isSome
  rows : ∀ name, name ≠ canonical dongle ts seg → w'.db.segments.get? name = w.db.segments.get? name
  qlogs : ∀ d t n, ∀ f ∈ QLOG_FILES,
    w'.blobs.read (env.path (.segment d t n f)) = w.blobs.read (env.path (.segment d t n f))

theorem Beside.refl (w : World) : Beside env dongle ts seg w w :=
  ⟨id, fun _ known => known, fun _ _ => rfl, fun _ _ _ _ _ => rfl⟩

theorem Beside.trans {w' w'' : World} (first : Beside env dongle ts seg w w')
    (second : Beside env dongle ts seg w' w'') : Beside env dongle ts seg w w'' where
  named names := second.named (first.named names)
  devices d known := second.devices d (first.devices d known)
  rows name other := (second.rows name other).trans (first.rows name other)
  qlogs d t n f listed := (second.qlogs d t n f listed).trans (first.qlogs d t n f listed)

theorem beside_exec {s : Write} {w' : World} (registers : s.registers dongle ts seg)
    (done : s.exec env w = some w') : Beside env dongle ts seg w w' := by
  have devices : ∀ d, (w.db.accounts.devices.get? d).isSome → (w'.db.accounts.devices.get? d).isSome := by
    intro d known
    cases s with
    | add_server_storage | set_last_gps =>
        cases done
        rw [Table.get?_update, Option.isSome_map]
        exact known
    | _ =>
        first
          | exact registers.elim
          | rw [(Write.framed done).accounts (by simp [Write.part])]; exact known
  refine ⟨fun names => names.exec done, devices, fun name other => ?_, fun d t n f listed => ?_⟩
  · cases s with
    | insert_segment d t n | upsert_segment d t n data =>
        obtain ⟨rfl, rfl, rfl⟩ := registers
        simp only [Write.exec, Option.ite_none_left_eq_some] at done
        obtain ⟨_, done⟩ := done
        cases done
        first
          | exact get?_insert_other _ other
          | exact get?_upsert_other _ other
    | set_url d t n col url =>
        obtain ⟨rfl, rfl, rfl⟩ := registers
        cases done
        have same : ∀ r : Segment, (r.set_url col url).canonical_name = r.canonical_name :=
          fun r => r.set_url_canonical_name col url
        exact @get?_update_other _ _ _ _ w.db.segments _ _ same name fun r is =>
          decide_eq_false (is ▸ other)
    | _ =>
        first
          | exact registers.elim
          | rw [(Write.framed done).segments (by simp [Write.part])]
  · rw [Write.exec_blobs done]
    cases s with
    | blob_put name bytes =>
        obtain ⟨g, artifact, rfl⟩ := registers
        rw [Dir.read_write, if_neg (Ne.symm (artifact_not_qlog env artifact listed _ _ _ _ _ _))]
    | blob_delete => exact registers.elim
    | _ => rfl

theorem beside_parse (file : Text) (bytes : Bytes) (w : World) :
    Beside env dongle ts seg w (alone env (parse_and_store env dongle ts seg file bytes) w).2 :=
  WritesOnly.alone (R := Beside env dongle ts seg) .refl .trans beside_exec
    (fun _ _ => ⟨id, fun _ known => known, fun _ _ => rfl, fun _ _ _ _ _ => rfl⟩)
    (writes_parse_and_store env dongle ts seg file bytes).only w

end Round

/-! ## Some of the rounds -/

/-- Every device of a stored drive is registered. -/
def Owned (db : Storage.Db) : Prop :=
  ∀ r ∈ db.routes.rows, (db.accounts.devices.get? r.device_dongle_id).isSome

/-- The rows in `done` have been parsed again. -/
structure Redone (env : Env) (w : World) (done : List (Text × Int)) (s : World) : Prop where
  named : Named s.db
  devices : ∀ d, (w.db.accounts.devices.get? d).isSome → (s.db.accounts.devices.get? d).isSome
  qlogs : ∀ d t n, ∀ f ∈ QLOG_FILES,
    s.blobs.read (env.path (.segment d t n f)) = w.blobs.read (env.path (.segment d t n f))
  stems : ∀ name, (s.db.segments.get? name).map Segment.stem = (w.db.segments.get? name).map Segment.stem
  data : ∀ x ∈ w.db.segments.rows, ∀ y, s.db.segments.get? x.canonical_name = some y →
    y.data = if row_key x ∈ done then ((reparsed env w (row_key x)).map Accum.data).getD x.data else x.data
  routes : ∀ name, (w.db.routes.get? name).isSome → (s.db.routes.get? name).isSome
  summed : ∀ x ∈ w.db.segments.rows, row_key x ∈ done → (reparsed env w (row_key x)).isSome →
    ∀ r, s.db.routes.get? x.canonical_route_name = some r →
      r.aggregates = aggregate (s.db.route_segments x.canonical_route_name)
  kept : ∀ name, (∀ x ∈ w.db.segments.rows, x.canonical_route_name = name →
      reparsed env w (row_key x) = none) →
    s.db.routes.get? name = w.db.routes.get? name

section Rounds

variable {env : Env} {w s s' : World} {done : List (Text × Int)}

theorem Redone.init (named : Named w.db) : Redone env w [] w where
  named := named
  devices _ known := known
  qlogs _ _ _ _ _ := rfl
  stems _ := rfl
  data x row y found := by
    rw [Table.get?_eq_some.2 ⟨row, rfl⟩] at found
    cases found
    simp
  routes _ there := there
  summed _ _ no := (List.not_mem_nil no).elim
  kept _ _ := rfl

theorem Redone.stored (redone : Redone env w done s) (dongle ts : Text) (seg : Int) :
    stored_qlog env s dongle ts seg QLOG_FILES = stored_qlog env w dongle ts seg QLOG_FILES := by
  have zst := redone.qlogs dongle ts seg "qlog.zst" (by decide)
  have bz2 := redone.qlogs dongle ts seg "qlog.bz2" (by decide)
  simp only [stored_qlog, QLOG_FILES, List.findSome?_cons, List.findSome?_nil, zst, bz2]

/-- What there is to parse stays. -/
theorem Redone.logs (redone : Redone env w done s) (k : Text × Int) :
    reparsed env s k = reparsed env w k := by
  unfold reparsed
  simp only [redone.stored]

/-- A row whose log is not there, or is not one. -/
theorem Redone.skipped (redone : Redone env w done s) {k : Text × Int} (none : reparsed env w k = none) :
    Redone env w (k :: done) s where
  named := redone.named
  devices := redone.devices
  qlogs := redone.qlogs
  stems := redone.stems
  data x row y found := by
    rw [redone.data x row y found]
    by_cases same : row_key x = k
    · rw [same, none]
      simp
    · simp [same]
  routes := redone.routes
  summed x row member parsed := by
    rcases List.mem_cons.1 member with rfl | earlier
    · rw [none] at parsed
      cases parsed
    · exact redone.summed x row earlier parsed
  kept := redone.kept

/-- The row of the segment, at any time. -/
theorem Redone.row (redone : Redone env w done s) {x : Segment} (row : x ∈ w.db.segments.rows) :
    ∃ y, s.db.segments.get? x.canonical_name = some y ∧ Segment.stem y = Segment.stem x := by
  have stem := redone.stems x.canonical_name
  rw [Table.get?_eq_some.2 ⟨row, rfl⟩, Option.map_some] at stem
  obtain ⟨y, found, same⟩ := Option.map_eq_some_iff.1 stem
  exact ⟨y, found, same⟩

/-- The row that is assigned to keeps its names. -/
theorem stem_of_registers {dongle ts : Text} {e : Effect} {x y : Segment}
    (registers : Registers env dongle ts e s s') (name : x.canonical_name = canonical dongle ts x.number)
    (before : s.db.segments.get? x.canonical_name = some y) (same : Segment.stem y = Segment.stem x) :
    ∃ y', s'.db.segments.get? x.canonical_name = some y' ∧ Segment.stem y' = Segment.stem x := by
  have there : HasSegment s.db dongle ts x.number := by
    rw [HasSegment, ← name, before]
    rfl
  obtain ⟨y', after⟩ := Option.isSome_iff_exists.1 ((registers.rows x.number).2 (.inl there))
  have stem := registers.stem x.number
  rw [row_of, row_of, after, ← name, before] at stem
  rw [← name] at after
  exact ⟨y', after, stem.trans same⟩

theorem route_of_stem {x y : Segment} (same : Segment.stem y = Segment.stem x) :
    y.canonical_route_name = x.canonical_route_name :=
  (Prod.mk.inj (Prod.mk.inj same).2).1

/-- A row is listed in one route.  When it alone changes, the other routes list what they did. -/
theorem listed_elsewhere {dongle ts : Text} {seg : Int} {x y y' : Segment} (named : Named s.db)
    (beside : Beside env dongle ts seg s s') (name : x.canonical_name = canonical dongle ts seg)
    (before : s.db.segments.get? x.canonical_name = some y) (same : Segment.stem y = Segment.stem x)
    (after : s'.db.segments.get? x.canonical_name = some y') (same' : Segment.stem y' = Segment.stem x)
    {route : Text} (other : route ≠ x.canonical_route_name) :
    s.db.route_segments route = s'.db.route_segments route := by
  apply route_segments_eq named
  intro t
  rw [mem_route_segments, mem_route_segments]
  refine and_congr_left fun of => ?_
  have reads : ∀ db : Storage.Db,
      t ∈ db.segments.rows ↔ db.segments.get? t.canonical_name = some t := fun db =>
    ⟨fun listed => Table.get?_eq_some.2 ⟨listed, rfl⟩, fun got => (Table.get?_eq_some.1 got).1⟩
  rw [reads, reads]
  by_cases changed : t.canonical_name = x.canonical_name
  · rw [changed, before, after]
    refine iff_of_false (fun is => ?_) fun is => ?_
    · cases is
      exact other (of.symm.trans (route_of_stem same))
    · cases is
      exact other (of.symm.trans (route_of_stem same'))
  · rw [beside.rows _ (name ▸ changed)]

/-- A row whose log is parsed. -/
theorem Redone.parsed (redone : Redone env w done s) (named : Named w.db) {x : Segment}
    (row : x ∈ w.db.segments.rows) {dongle ts : Text} {acc : Accum} {e : Effect}
    (name : x.canonical_name = canonical dongle ts x.number)
    (route : x.canonical_route_name = fullname dongle ts) (is : reparsed env w (row_key x) = some acc)
    (registers : Registers env dongle ts e s s')
    (assigned : ∀ n d, e.data n d ↔ n = x.number ∧ d = acc.data)
    (summed : Summed s'.db dongle ts) (beside : Beside env dongle ts x.number s s') :
    Redone env w (row_key x :: done) s' := by
  obtain ⟨y₀, before, same₀⟩ := redone.row row
  obtain ⟨y₁, after, same₁⟩ := stem_of_registers registers name before same₀
  have stems : ∀ n, (s'.db.segments.get? n).map Segment.stem = (w.db.segments.get? n).map Segment.stem := by
    intro n
    by_cases own : n = x.canonical_name
    · rw [own, after, ← redone.stems, before]
      exact congrArg some (same₁.trans same₀.symm)
    · rw [beside.rows n (name ▸ own), redone.stems]
  refine ⟨beside.named redone.named, fun d known => beside.devices d (redone.devices d known),
    fun d t n f listed => (beside.qlogs d t n f listed).trans (redone.qlogs d t n f listed), stems,
    fun z member y found => ?_, fun n there => ?_, fun z member into parsed r found => ?_, fun n none => ?_⟩
  · by_cases same : z = x
    · subst same
      have data := registers.data z.number
      simp only [row_of, ← name, found, Option.getD_some, assigned] at data
      rw [if_pos List.mem_cons_self, is]
      rcases data with ⟨_, now⟩ | ⟨no, _⟩
      · exact now
      · exact (no acc.data (by simp)).elim
    · have other : z.canonical_name ≠ x.canonical_name :=
        fun same' => same (Table.eq_of_key member row same')
      rw [beside.rows _ (name ▸ other)] at found
      rw [redone.data z member y found]
      have keys : row_key z ≠ row_key x := fun same' => same (eq_of_row_key named member row same')
      simp [keys]
  · by_cases own : n = fullname dongle ts
    · subst own
      exact registers.route.2 (.inl (redone.routes _ there))
    · rw [registers.other_routes n own]
      exact redone.routes n there
  · by_cases own : z.canonical_route_name = x.canonical_route_name
    · rw [own, route] at found ⊢
      have listed : y₁ ∈ s'.db.route_segments (fullname dongle ts) :=
        mem_route_segments.2 ⟨(Table.get?_eq_some.1 after).1, (route_of_stem same₁).trans route⟩
      exact summed (List.ne_nil_of_mem listed) r found
    · have keys : row_key z ≠ row_key x := fun same => own (Prod.mk.inj same).1
      have earlier : row_key z ∈ done := (List.mem_cons.1 into).resolve_left keys
      rw [registers.other_routes _ (route ▸ own)] at found
      rw [redone.summed z member earlier parsed r found,
        listed_elsewhere redone.named beside name before same₀ after same₁ own]
  · have own : n ≠ fullname dongle ts := by
      intro same
      rw [none x row (route.trans same.symm)] at is
      cases is
    rw [registers.other_routes n own]
    exact redone.kept n none

/-- One more round. -/
theorem redone_round (named : Named w.db) (linked : Drives.Linked w.db) (owned : Owned w.db) {x : Segment}
    (row : x ∈ w.db.segments.rows) (redone : Redone env w done s) :
    ∃ s', alone env (reparse_row env (row_key x)) s = (.ok (reparsed env w (row_key x)).isSome, s') ∧
      Redone env w (row_key x :: done) s' := by
  obtain ⟨dongle, ts, clean, name, route⟩ := named.segments x row
  have split : Text.split_once '|' (row_key x).1 = some (dongle, ts) := by
    rw [row_key, route]
    exact fullname_split clean ts
  have known : (s.db.accounts.devices.get? dongle).isSome := by
    apply redone.devices
    obtain ⟨r, listed, same⟩ := linked x row
    obtain ⟨clean', ts', is⟩ := named.routes r listed
    have both := fullname_split clean' ts'
    rw [← is, same, route, fullname_split clean] at both
    cases both
    exact owned r listed
  have round : alone env (reparse_row env (row_key x)) s =
      alone env (reparse_segment env dongle ts x.number QLOG_FILES) s := by
    rw [reparse_row, split]
    rfl
  rw [round, reparse_segment_alone, redone.stored]
  cases found : stored_qlog env w dongle ts x.number QLOG_FILES with
  | none =>
      have none : reparsed env w (row_key x) = none := by
        rw [reparsed, split, Option.bind_some]
        rw [show (row_key x).2 = x.number from rfl, found, Option.bind_none]
      rw [none]
      exact ⟨s, rfl, redone.skipped none⟩
  | some read =>
      obtain ⟨file, bytes⟩ := read
      have qlog : Text.contains file "qlog" = true := by
        obtain ⟨f, listed, is⟩ := List.exists_of_findSome?_eq_some found
        obtain ⟨_, _, same⟩ := Option.map_eq_some_iff.1 is
        cases same
        have plain : ∀ f ∈ QLOG_FILES, Text.contains f "qlog" = true := by decide
        exact plain _ listed
      have is : reparsed env w (row_key x) = (env.parse file bytes).toOption := by
        rw [reparsed, split, Option.bind_some]
        rw [show (row_key x).2 = x.number from rfl, found, Option.bind_some]
      dsimp only [Option.elim]
      cases parsed : env.parse file bytes with
      | error e =>
          rw [parse_alone_error parsed, is, parsed]
          rw [parsed] at is
          exact ⟨s, rfl, redone.skipped is⟩
      | ok acc =>
          rw [parsed] at is
          have beside : Beside env dongle ts x.number s _ := beside_parse file bytes s
          have returned : (alone env (parse_and_store env dongle ts x.number file bytes) s).1 = .ok () :=
            parse_alone qlog known parsed
          cases ran : alone env (parse_and_store env dongle ts x.number file bytes) s with
          | mk r s' =>
              rw [ran] at returned beside
              cases returned
              obtain ⟨registers, summed⟩ := registers_parse_and_store qlog ran
              refine ⟨s', by rw [is]; rfl,
                redone.parsed named row name route is registers (fun n d => ?_) summed beside⟩
              simp only [Effect.registration, qlog, true_and, parsed]
              constructor
              · rintro ⟨rfl, acc', same, rfl⟩
                cases same
                exact ⟨rfl, rfl⟩
              · rintro ⟨rfl, rfl⟩
                exact ⟨rfl, acc, rfl, rfl⟩

/-- The rounds for a list of rows. -/
theorem redone_each (named : Named w.db) (linked : Drives.Linked w.db) (owned : Owned w.db)
    (rows : List (Text × Int)) (listed : ∀ k ∈ rows, ∃ x ∈ w.db.segments.rows, row_key x = k)
    (redone : Redone env w done s) :
    ∃ s', alone env (reparse_each env rows) s =
        (.ok (rows.filter fun k => (reparsed env w k).isSome).length, s') ∧
      Redone env w (rows.reverse ++ done) s' := by
  induction rows generalizing done s with
  | nil => exact ⟨s, rfl, redone⟩
  | cons k rows ih =>
      rw [List.forall_mem_cons] at listed
      obtain ⟨⟨x, row, rfl⟩, rest⟩ := listed
      obtain ⟨s₁, first, once⟩ := redone_round named linked owned row redone
      obtain ⟨s₂, second, all⟩ := ih rest once
      refine ⟨s₂, ?_, ?_⟩
      · rw [reparse_each, alone_bind_ok first, alone_bind_ok second, List.filter_cons]
        cases (reparsed env w (row_key x)).isSome <;> rfl
      · rw [List.reverse_cons, List.append_assoc]
        exact all

end Rounds

/-! ## The whole of it -/

/-- What was parsed again is as if it had been parsed afresh, and the rest is as it was.  As the
logs are, too, doing it again would give the same data. -/
structure Repaired (env : Env) (w w' : World) : Prop where
  logs : ∀ k, reparsed env w' k = reparsed env w k
  stems : ∀ name, (w'.db.segments.get? name).map Segment.stem = (w.db.segments.get? name).map Segment.stem
  data : ∀ x ∈ w.db.segments.rows, ∀ y, w'.db.segments.get? x.canonical_name = some y →
    y.data = ((reparsed env w (row_key x)).map Accum.data).getD x.data
  summed : ∀ x ∈ w.db.segments.rows, (reparsed env w (row_key x)).isSome →
    ∃ r, w'.db.routes.get? x.canonical_route_name = some r ∧
      r.aggregates = aggregate (w'.db.route_segments x.canonical_route_name)
  kept : ∀ name, (∀ x ∈ w.db.segments.rows, x.canonical_route_name = name →
      reparsed env w (row_key x) = none) →
    w'.db.routes.get? name = w.db.routes.get? name

/-- **Re-parsing repairs.**  Run undisturbed, `reparse_all` counts the segments whose stored qlog
can be read and parsed, leaves each of them with what its log yields now and its route with
the sum of its rows, however stale both were, and changes no other segment or route. -/
theorem reparse_repairs (env : Env) (w : World) (named : Named w.db) (linked : Drives.Linked w.db)
    (owned : Owned w.db) :
    ∃ w', alone env (reparse_all env) w =
        (.ok (w.db.segments.rows.filter fun x => (reparsed env w (row_key x)).isSome).length, w') ∧
      Repaired env w w' := by
  have perm : (reparse_order w.db).Perm (w.db.segments.rows.map row_key) := List.perm_insertionSort _ _
  have listed : ∀ k ∈ reparse_order w.db, ∃ x ∈ w.db.segments.rows, row_key x = k :=
    fun k member => List.mem_map.1 (perm.mem_iff.1 member)
  have start : Redone env w [] w := .init named
  obtain ⟨w', ran, redone⟩ := redone_each named linked owned _ listed start
  have all : ∀ x ∈ w.db.segments.rows, row_key x ∈ (reparse_order w.db).reverse ++ [] := by
    intro x row
    rw [List.append_nil, List.mem_reverse, perm.mem_iff]
    exact List.mem_map_of_mem row
  refine ⟨w', ?_, redone.logs, redone.stems, fun x row y found => ?_, fun x row parsed => ?_, redone.kept⟩
  · rw [reparse_all, alone_bind_ok (alone_select _ w), ran]
    have counts := (perm.filter fun k => (reparsed env w k).isSome).length_eq
    rw [counts, List.filter_map, List.length_map]
    rfl
  · rw [redone.data x row y found, if_pos (all x row)]
  · obtain ⟨r, listed, same⟩ := linked x row
    have there : (w.db.routes.get? x.canonical_route_name).isSome := by
      rw [← same, Table.get?_eq_some.2 ⟨listed, rfl⟩]
      rfl
    obtain ⟨r', found⟩ := Option.isSome_iff_exists.1 (redone.routes _ there)
    exact ⟨r', found, redone.summed x row (all x row) parsed r' found⟩

/-! ## Poles -/

private def repair_env : Env :=
  { plain_env with device_autoprune := true, parse := fun _ _ => .ok { max_mem := 80 } }

private def with_log : Segment := { canonical_name := "d|t--0", canonical_route_name := "d|t", number := 0 }

private def without_log : Segment :=
  { canonical_name := "d|t--1", canonical_route_name := "d|t", number := 1 }

private def outdated_route : Route :=
  { fullname := "d|t", device_dongle_id := "d", aggregates := { max_mem := 99 } }

/-- Two segments, one of them with its log, and a route whose sums are not theirs. -/
private def outdated : World :=
  { one_device { dongle_id := "d", last_addr := "a" } with
    db.routes := .single outdated_route
    db.segments := (Table.single with_log).insertIfAbsent without_log
    blobs := Dir.write Table.empty (repair_env.path (.segment "d" "t" 0 "qlog.zst")) [1] }

private theorem outdated_rows : outdated.db.segments.rows = [with_log, without_log] := by
  decide +kernel

private theorem outdated_named : Named outdated.db := by
  refine ⟨fun d member => ?_, fun r member => ?_, fun x member => ?_⟩
  · rw [List.mem_singleton.1 member]
    change '|' ∉ ("d" : Text)
    decide
  · rw [List.mem_singleton.1 member]
    exact ⟨by decide, "t", rfl⟩
  · rw [outdated_rows] at member
    have clean : '|' ∉ ("d" : Text) := by decide
    rcases List.mem_pair.1 member with rfl | rfl
    · exact ⟨"d", "t", clean, by decide, rfl⟩
    · exact ⟨"d", "t", clean, by decide, rfl⟩

/-- One segment is parsed again, the other has no log; the route has the sum of both. -/
theorem reparse_repairs_one_log : ∃ w', alone repair_env (reparse_all repair_env) outdated = (.ok 1, w') ∧
    Repaired repair_env outdated w' ∧
      (w'.db.routes.get? "d|t").map (fun r => r.aggregates.max_mem) = some 80 := by
  have linked : Drives.Linked outdated.db := by
    intro x member
    rw [outdated_rows] at member
    refine ⟨outdated_route, List.mem_singleton_self _, ?_⟩
    rcases List.mem_pair.1 member with rfl | rfl <;> rfl
  have owned : Owned outdated.db := by
    intro r member
    rw [List.mem_singleton.1 member]
    decide
  obtain ⟨w', ran, repaired⟩ := reparse_repairs repair_env outdated outdated_named linked owned
  have sums : ((alone repair_env (reparse_all repair_env) outdated).2.db.routes.get? "d|t").map
      (fun r => r.aggregates.max_mem) = some 80 := by decide +kernel
  have one : (outdated.db.segments.rows.filter
      fun x => (reparsed repair_env outdated (row_key x)).isSome).length = 1 := by decide +kernel
  rw [ran] at sums
  rw [one] at ran
  exact ⟨w', ran, repaired, sums⟩

end HomeConnect.Sync
