/-
# Drives.Registered -- what a registration leaves

Registering a file assigns to cells of the database: the `*_url` columns and the data of a
segment's row, a row that is not there counting as one with its defaults.  An `Effect` is
what is assigned and which rows are made; `Registers e w w'` says that from `w` to `w'` the
database changed by it and nothing else did.  Statements compose (`Registers.trans`), so the
functions that register a file have the effect their statements add up to
(`registers_register_segment_file`).

The aggregate columns are not assigned but summed up from the rows.  Once a registration has
returned they are current (`Summed`).
-/
import HomeConnect.Drives.Undated
import HomeConnect.Storage.Keys
import HomeConnect.Theory.Assign

namespace HomeConnect.Drives

open HomeConnect.Theory HomeConnect.Storage

set_option autoImplicit false

/-- The row of a segment, as it would be made where there is none. -/
def row_of (db : Storage.Db) (dongle ts : Text) (n : Int) : Segment :=
  (db.segments.get? (canonical dongle ts n)).getD (Write.segment_row dongle ts n 0 {})

def route_of (db : Storage.Db) (dongle ts : Text) : Route :=
  (db.routes.get? (fullname dongle ts)).getD
    { fullname := fullname dongle ts, device_dongle_id := dongle }

def HasSegment (db : Storage.Db) (dongle ts : Text) (n : Int) : Prop :=
  (db.segments.get? (canonical dongle ts n)).isSome

def HasRoute (db : Storage.Db) (dongle ts : Text) : Prop :=
  (db.routes.get? (fullname dongle ts)).isSome

/-- A camera of the segment is in the store. -/
def Stored (env : Env) (dongle ts : Text) (w : World) (seg : Int) (cam : Text) : Prop :=
  (w.blobs.read (env.path (.segment dongle ts seg cam))).isSome

/-- What no registration changes of a segment's row. -/
def Segment.stem (s : Segment) : Text × Text × Int :=
  (s.canonical_name, s.canonical_route_name, s.number)

/-- What no registration changes of a route's row. -/
def bare_route (r : Route) : Route := { r with aggregates := {}, info := {}, created_at := 0 }

theorem mem_route_segments {db : Storage.Db} {name : Text} {s : Segment} :
    s ∈ db.route_segments name ↔ s ∈ db.segments.rows ∧ s.canonical_route_name = name := by
  rw [Db.route_segments, List.mem_insertionSort, List.mem_filter, decide_eq_true_eq]

/-! ## Effects -/

/-- What is assigned to the cells of a route's segments, and which rows are made. -/
structure Effect where
  urls : Int × UrlCol → Text → Prop := fun _ _ => False
  data : Int → SegData → Prop := fun _ _ => False
  rows : Int → Prop := fun _ => False
  route : Prop := False
  /-- The aggregate columns are written. -/
  sums : Prop := False
  /-- Cameras that are stored. -/
  cameras : Int → Text → Prop := fun _ _ => False

def Effect.or (e e' : Effect) : Effect where
  urls k v := e.urls k v ∨ e'.urls k v
  data n d := e.data n d ∨ e'.data n d
  rows n := e.rows n ∨ e'.rows n
  route := e.route ∨ e'.route
  sums := e.sums ∨ e'.sums
  cameras n cam := e.cameras n cam ∨ e'.cameras n cam

/-- The database and the stored cameras changed by the effect. -/
structure Registers (env : Env) (dongle ts : Text) (e : Effect) (w w' : World) : Prop where
  others : ∀ name, (∀ n, name ≠ canonical dongle ts n) →
    w'.db.segments.get? name = w.db.segments.get? name
  rows : ∀ n, HasSegment w'.db dongle ts n ↔ HasSegment w.db dongle ts n ∨ e.rows n
  stem : ∀ n, Segment.stem (row_of w'.db dongle ts n) = Segment.stem (row_of w.db dongle ts n)
  urls : Assigns e.urls (fun k => (row_of w.db dongle ts k.1).url k.2)
    fun k => (row_of w'.db dongle ts k.1).url k.2
  data : Assigns e.data (fun n => (row_of w.db dongle ts n).data)
    fun n => (row_of w'.db dongle ts n).data
  other_routes : ∀ name, name ≠ fullname dongle ts → w'.db.routes.get? name = w.db.routes.get? name
  route : HasRoute w'.db dongle ts ↔ HasRoute w.db dongle ts ∨ e.route
  bare : bare_route (route_of w'.db dongle ts) = bare_route (route_of w.db dongle ts)
  sums : ¬ e.sums → (route_of w'.db dongle ts).aggregates = (route_of w.db dongle ts).aggregates
  cameras : ∀ n, ∀ cam ∈ CAMERA_FILES,
    Stored env dongle ts w' n cam ↔ Stored env dongle ts w n cam ∨ e.cameras n cam

namespace Registers

variable {env : Env} {dongle ts : Text} {e e' : Effect} {w w' w'' : World}

theorem trans (first : Registers env dongle ts e w w') (second : Registers env dongle ts e' w' w'') :
    Registers env dongle ts (e.or e') w w'' where
  others name other := (second.others name other).trans (first.others name other)
  rows n := by rw [second.rows, first.rows, or_assoc]; rfl
  stem n := (second.stem n).trans (first.stem n)
  urls := first.urls.trans second.urls
  data := first.data.trans second.data
  other_routes name other := (second.other_routes name other).trans (first.other_routes name other)
  route := by rw [second.route, first.route, or_assoc]; rfl
  bare := second.bare.trans first.bare
  sums neither := (second.sums fun s => neither (.inr s)).trans
    (first.sums fun s => neither (.inl s))
  cameras n cam listed := by
    rw [second.cameras n cam listed, first.cameras n cam listed, or_assoc]
    rfl

/-- The same effect, said otherwise. -/
theorem congr (registers : Registers env dongle ts e w w') (urls : ∀ k v, e.urls k v ↔ e'.urls k v)
    (data : ∀ n d, e.data n d ↔ e'.data n d)
    (rows : ∀ n, HasSegment w.db dongle ts n ∨ e.rows n ↔ HasSegment w.db dongle ts n ∨ e'.rows n)
    (route : HasRoute w.db dongle ts ∨ e.route ↔ HasRoute w.db dongle ts ∨ e'.route)
    (sums : e.sums → e'.sums) (cameras : ∀ n cam, e.cameras n cam ↔ e'.cameras n cam) :
    Registers env dongle ts e' w w' where
  others := registers.others
  rows n := (registers.rows n).trans (rows n)
  stem := registers.stem
  urls := registers.urls.congr urls
  data := registers.data.congr data
  other_routes := registers.other_routes
  route := registers.route.trans route
  bare := registers.bare
  sums neither := registers.sums fun s => neither (sums s)
  cameras n cam listed := (registers.cameras n cam listed).trans (or_congr_right (cameras n cam))

/-- The clock has no part in it. -/
theorem clock (registers : Registers env dongle ts e w w') (t : Int) :
    Registers env dongle ts e w { w' with now := t } :=
  ⟨registers.others, registers.rows, registers.stem, registers.urls, registers.data,
    registers.other_routes, registers.route, registers.bare, registers.sums, registers.cameras⟩

/-- Nothing is assigned where the rows stay as they are. -/
theorem quiet (segments : w'.db.segments = w.db.segments)
    (other_routes : ∀ name, name ≠ fullname dongle ts → w'.db.routes.get? name = w.db.routes.get? name)
    (route : HasRoute w'.db dongle ts ↔ HasRoute w.db dongle ts)
    (bare : bare_route (route_of w'.db dongle ts) = bare_route (route_of w.db dongle ts))
    (sums : ¬ e.sums → (route_of w'.db dongle ts).aggregates = (route_of w.db dongle ts).aggregates)
    (cameras : ∀ n, ∀ cam ∈ CAMERA_FILES,
      Stored env dongle ts w' n cam ↔ Stored env dongle ts w n cam ∨ e.cameras n cam) :
    Registers env dongle ts { sums := e.sums, cameras := e.cameras } w w' where
  others _ _ := by rw [segments]
  rows n := by
    unfold HasSegment
    rw [segments, or_false]
  stem n := by rw [row_of, row_of, segments]
  urls := by
    simp only [row_of, segments]
    exact .refl _
  data := by
    simp only [row_of, segments]
    exact .refl _
  other_routes := other_routes
  route := by rw [route, or_false]
  bare := bare
  sums := sums
  cameras := cameras

/-- Nothing of the database is touched. -/
theorem same {cameras : Int → Text → Prop} (segments : w'.db.segments = w.db.segments)
    (routes : w'.db.routes = w.db.routes)
    (stored : ∀ n, ∀ cam ∈ CAMERA_FILES,
      Stored env dongle ts w' n cam ↔ Stored env dongle ts w n cam ∨ cameras n cam) :
    Registers env dongle ts { cameras } w w' := by
  refine quiet (e := { cameras }) segments (fun _ _ => by rw [routes]) ?_ ?_ (fun _ => ?_) stored
  · rw [HasRoute, HasRoute, routes]
  · rw [route_of, route_of, routes]
  · rw [route_of, route_of, routes]

theorem refl (w : World) : Registers env dongle ts {} w w :=
  same rfl rfl fun _ _ _ => (or_iff_left id).symm

/-- What assigns nothing can come first ... -/
theorem quiet_then (first : Registers env dongle ts {} w w')
    (rest : Registers env dongle ts e w' w'') : Registers env dongle ts e w w'' :=
  (first.trans rest).congr (by simp [Effect.or]) (by simp [Effect.or]) (by simp [Effect.or])
    (by simp [Effect.or]) (by simp [Effect.or]) (by simp [Effect.or])

/-- ... or last. -/
theorem then_quiet {sums : Prop} (first : Registers env dongle ts e w w')
    (rest : Registers env dongle ts { sums } w' w'') :
    Registers env dongle ts { e with sums := e.sums ∨ sums } w w'' :=
  (first.trans rest).congr (by simp [Effect.or]) (by simp [Effect.or]) (by simp [Effect.or])
    (by simp [Effect.or]) (by simp [Effect.or]) (by simp [Effect.or])

/-! ### Statements -/

variable {seg : Int}

/-- A statement that changes or adds one segment's row. -/
theorem row (seg : Int) {s : Segment} {u : UrlCol → Text → Prop} {d : SegData → Prop}
    (segments : ∀ name, w'.db.segments.get? name =
      if name = canonical dongle ts seg then some s else w.db.segments.get? name)
    (routes : w'.db.routes = w.db.routes) (blobs : w'.blobs = w.blobs)
    (stem : Segment.stem s = Segment.stem (row_of w.db dongle ts seg))
    (urls : Assigns u (row_of w.db dongle ts seg).url s.url)
    (data : d s.data ∨ (∀ v, ¬ d v) ∧ s.data = (row_of w.db dongle ts seg).data) :
    Registers env dongle ts
      { urls := fun k v => k.1 = seg ∧ u k.2 v, data := fun n v => n = seg ∧ d v,
        rows := fun n => n = seg } w w' := by
  have own : row_of w'.db dongle ts seg = s := by
    rw [row_of, segments, if_pos rfl]
    rfl
  have rest : ∀ n, n ≠ seg → row_of w'.db dongle ts n = row_of w.db dongle ts n := by
    intro n other
    rw [row_of, segments, if_neg fun same => other (canonical_injective same)]
    rfl
  constructor
  case others =>
    intro name other
    rw [segments, if_neg (other seg)]
  case rows =>
    intro n
    unfold HasSegment
    rw [segments]
    by_cases here : n = seg
    · simp [here]
    · rw [if_neg fun same => here (canonical_injective same)]
      simp [here]
  case stem =>
    intro n
    by_cases here : n = seg
    · rw [here, own, stem]
    · rw [rest n here]
  case urls =>
    rintro ⟨n, col⟩
    by_cases here : n = seg
    · subst here
      simp only [own, true_and]
      exact urls col
    · right
      simp only [here, false_and, not_false_eq_true, implies_true, true_and, rest n here]
  case data =>
    intro n
    by_cases here : n = seg
    · subst here
      simp only [own, true_and]
      exact data
    · right
      simp only [here, false_and, not_false_eq_true, implies_true, true_and, rest n here]
  case other_routes => intro name _; rw [routes]
  case route => rw [HasRoute, HasRoute, routes, or_false]
  case bare => rw [route_of, route_of, routes]
  case sums => intro _; rw [route_of, route_of, routes]
  case cameras => intro n cam _; rw [Stored, Stored, blobs, or_false]

theorem insert_route (done : Write.exec env (.insert_route dongle ts) w = some w') :
    Registers env dongle ts { route := True } w w' := by
  simp only [Write.exec, Option.ite_none_left_eq_some] at done
  obtain ⟨_, done⟩ := done
  cases done
  have there : ∀ name, _ := Table.get?_insertIfAbsent w.db.routes
    { fullname := fullname dongle ts, device_dongle_id := dongle, created_at := w.now }
  have routes : bare_route (((w.db.routes.get? (fullname dongle ts)).getD
        { fullname := fullname dongle ts, device_dongle_id := dongle, created_at := w.now })) =
      bare_route (route_of w.db dongle ts) ∧
      ((w.db.routes.get? (fullname dongle ts)).getD
        { fullname := fullname dongle ts, device_dongle_id := dongle, created_at := w.now }).aggregates =
      (route_of w.db dongle ts).aggregates := by
    unfold route_of
    cases w.db.routes.get? (fullname dongle ts) with
    | none => exact ⟨rfl, rfl⟩
    | some r => exact ⟨rfl, rfl⟩
  constructor
  case others => exact fun _ _ => rfl
  case rows => exact fun n => (or_false _).symm ▸ Iff.rfl
  case stem => exact fun _ => rfl
  case urls => exact .refl _
  case data => exact .refl _
  case other_routes =>
    intro name other
    rw [there, if_neg other]
  case route =>
    unfold HasRoute
    rw [there, if_pos rfl]
    simp
  case bare =>
    rw [route_of, there, if_pos rfl]
    exact routes.1
  case sums =>
    intro _
    rw [route_of, there, if_pos rfl]
    exact routes.2
  case cameras => exact fun _ _ _ => (or_iff_left id).symm

theorem insert_segment (done : Write.exec env (.insert_segment dongle ts seg) w = some w') :
    Registers env dongle ts { rows := fun n => n = seg } w w' := by
  simp only [Write.exec, Option.ite_none_left_eq_some] at done
  obtain ⟨_, done⟩ := done
  cases done
  have kept : ∀ s, s = (w.db.segments.get? (canonical dongle ts seg)).getD
      (Write.segment_row dongle ts seg w.now {}) →
      Segment.stem s = Segment.stem (row_of w.db dongle ts seg) ∧
      s.url = (row_of w.db dongle ts seg).url ∧ s.data = (row_of w.db dongle ts seg).data := by
    rintro s rfl
    unfold row_of
    cases w.db.segments.get? (canonical dongle ts seg) with
    | none => exact ⟨rfl, rfl, rfl⟩
    | some s => exact ⟨rfl, rfl, rfl⟩
  obtain ⟨stem, urls, data⟩ := kept _ rfl
  refine congr (row seg (u := fun _ _ => False) (d := fun _ => False) (fun name => ?_) rfl rfl stem
    (urls ▸ .refl _) (.inr ⟨fun _ no => no, data⟩)) (by simp) (by simp) (fun _ => Iff.rfl) Iff.rfl id
    fun _ _ => Iff.rfl
  rw [Table.get?_insertIfAbsent]
  show (if name = canonical dongle ts seg then _ else _) = _
  split
  · rename_i here
    rw [here]
  · rfl

theorem upsert_segment {values : SegData}
    (done : Write.exec env (.upsert_segment dongle ts seg values) w = some w') :
    Registers env dongle ts
      { data := fun n d => n = seg ∧ d = values, rows := fun n => n = seg } w w' := by
  simp only [Write.exec, Option.ite_none_left_eq_some] at done
  obtain ⟨_, done⟩ := done
  cases done
  have kept : ∀ s, s = ((w.db.segments.get? (canonical dongle ts seg)).map
        fun s => { s with data := values }).getD (Write.segment_row dongle ts seg w.now values) →
      Segment.stem s = Segment.stem (row_of w.db dongle ts seg) ∧
      s.url = (row_of w.db dongle ts seg).url ∧ s.data = values := by
    rintro s rfl
    unfold row_of
    cases w.db.segments.get? (canonical dongle ts seg) with
    | none => exact ⟨rfl, rfl, rfl⟩
    | some s => exact ⟨rfl, rfl, rfl⟩
  obtain ⟨stem, urls, data⟩ := kept _ rfl
  refine congr (row seg (u := fun _ _ => False) (d := fun d => d = values) (fun name => ?_) rfl rfl stem
    (urls ▸ .refl _) (.inl data)) (by simp) (fun _ _ => Iff.rfl) (fun _ => Iff.rfl) Iff.rfl id
    fun _ _ => Iff.rfl
  rw [Table.get?_upsert]
  show (if name = canonical dongle ts seg then _ else _) = _
  split
  · rename_i here
    rw [here]
  · rfl

/-- A column is set on a row that is there. -/
theorem set_url {col : UrlCol} {url : Text} (there : HasSegment w.db dongle ts seg)
    (done : Write.exec env (.set_url dongle ts seg col url) w = some w') :
    Registers env dongle ts { urls := fun k v => k = (seg, col) ∧ v = url } w w' := by
  obtain ⟨s, found⟩ := Option.isSome_iff_exists.1 there
  have named := Table.key_of_get? found
  have own : row_of w.db dongle ts seg = s := by rw [row_of, found]; rfl
  cases done
  refine congr (row seg (s := s.set_url col url) (u := fun c v => c = col ∧ v = url) (d := fun _ => False)
    (fun name => ?_) rfl rfl ?_ ?_ ?_) ?_ (by simp) ?_ Iff.rfl id
    fun _ _ => Iff.rfl
  · rw [Table.get?_update]
    split
    · rename_i here
      rw [here, found, Option.map_some, if_pos (decide_eq_true named)]
    · rename_i other
      cases found' : w.db.segments.get? name with
      | none => rfl
      | some s' =>
          have elsewhere : s'.canonical_name ≠ canonical dongle ts seg :=
            fun same => other ((Table.key_of_get? found').symm.trans same)
          rw [Option.map_some, if_neg (by simpa using elsewhere)]
  · rw [own]
    simp [Segment.stem]
  · intro c
    rw [own, Segment.url_set_url]
    by_cases here : c = col
    · exact .inl ⟨here, if_pos here⟩
    · exact .inr ⟨fun _ both => here both.1, if_neg here⟩
  · exact .inr ⟨fun _ no => no, by rw [own, Segment.set_url_data]⟩
  · rintro ⟨n, c⟩ v
    show n = seg ∧ c = col ∧ v = url ↔ (n, c) = (seg, col) ∧ v = url
    rw [Prod.mk.injEq, and_assoc]
  · intro n
    constructor
    · rintro (old | rfl)
      · exact .inl old
      · exact .inl there
    · rintro (old | no)
      · exact .inl old
      · exact no.elim

/-- An update of the route's row, of columns that are not assigned. -/
theorem update_route {f : Route → Route} {sums : Prop} (same : ∀ r, (f r).fullname = r.fullname)
    (blind : ∀ r, bare_route (f r) = bare_route r)
    (summed : ¬ sums → ∀ r, (f r).aggregates = r.aggregates) (segments : w'.db.segments = w.db.segments)
    (routes : w'.db.routes =
      w.db.routes.update (fun r => decide (r.fullname = fullname dongle ts)) f same)
    (blobs : w'.blobs = w.blobs) : Registers env dongle ts { sums } w w' := by
  have there : w'.db.routes.get? (fullname dongle ts) =
      (w.db.routes.get? (fullname dongle ts)).map f := by
    rw [routes, Table.get?_update]
    cases found : w.db.routes.get? (fullname dongle ts) with
    | none => rfl
    | some r =>
        rw [Option.map_some, Option.map_some, if_pos (decide_eq_true (Table.key_of_get? found))]
  refine quiet (e := { sums }) segments (fun name other => ?_) ?_ ?_ (fun no => ?_) fun _ _ _ => by
    rw [Stored, Stored, blobs, or_false]
  · rw [routes, Table.get?_update]
    cases found : w.db.routes.get? name with
    | none => rfl
    | some r =>
        have elsewhere : r.fullname ≠ fullname dongle ts :=
          fun here => other ((Table.key_of_get? found).symm.trans here)
        rw [Option.map_some, if_neg (by simpa using elsewhere)]
  · unfold HasRoute
    rw [there, Option.isSome_map]
  · rw [route_of, route_of, there]
    cases w.db.routes.get? (fullname dongle ts) with
    | none => rfl
    | some r => exact blind r
  · rw [route_of, route_of, there]
    cases w.db.routes.get? (fullname dongle ts) with
    | none => rfl
    | some r => exact summed no r

theorem set_aggregates {aggregates : Aggregates}
    (done : Write.exec env (.set_aggregates (fullname dongle ts) aggregates) w = some w') :
    Registers env dongle ts { sums := True } w w' := by
  cases done
  exact update_route (fun _ => by rfl) (fun _ => by rfl) (fun no => (no trivial).elim) rfl rfl rfl

theorem set_meta {info : RouteMeta}
    (done : Write.exec env (.set_meta (fullname dongle ts) info) w = some w') :
    Registers env dongle ts {} w w' := by
  cases done
  exact update_route (fun _ => by rfl) (fun _ => by rfl) (fun _ _ => by rfl) rfl rfl rfl

/-- A blob that no camera is stored at. -/
theorem blob_put {name : BlobName} {bytes : Bytes}
    (other : ∀ n, ∀ cam ∈ CAMERA_FILES, env.path (.segment dongle ts n cam) ≠ env.path name)
    (done : Write.exec env (.blob_put name bytes) w = some w') : Registers env dongle ts {} w w' := by
  cases done
  refine same rfl rfl fun n cam listed => ?_
  rw [Stored, Stored, Dir.read_write, if_neg (other n cam listed), or_false]

/-- A route with rows keeps some. -/
theorem nonempty (registers : Registers env dongle ts e w w')
    (some_row : w.db.route_segments (fullname dongle ts) ≠ []) :
    w'.db.route_segments (fullname dongle ts) ≠ [] := by
  obtain ⟨s, listed⟩ := List.exists_mem_of_ne_nil _ some_row
  obtain ⟨member, of⟩ := mem_route_segments.1 listed
  have found : w.db.segments.get? s.canonical_name = some s := Table.get?_eq_some.2 ⟨member, rfl⟩
  suffices after : ∃ s' ∈ w'.db.segments.rows, s'.canonical_route_name = fullname dongle ts by
    obtain ⟨s', member', of'⟩ := after
    exact List.ne_nil_of_mem (mem_route_segments.2 ⟨member', of'⟩)
  by_cases own : ∃ n, s.canonical_name = canonical dongle ts n
  · obtain ⟨n, is⟩ := own
    rw [is] at found
    have there : HasSegment w'.db dongle ts n := (registers.rows n).2 (.inl (by rw [HasSegment, found]; rfl))
    obtain ⟨s', found'⟩ := Option.isSome_iff_exists.1 there
    have stem := registers.stem n
    rw [row_of, row_of, found, found'] at stem
    exact ⟨s', (Table.get?_eq_some.1 found').1, (Prod.ext_iff.1 (Prod.ext_iff.1 stem).2).1.trans of⟩
  · have kept := registers.others s.canonical_name fun n is => own ⟨n, is⟩
    exact ⟨s, (Table.get?_eq_some.1 (kept.trans found)).1, of⟩

end Registers

/-! ## Functions -/

/-- The column a file is registered in, and its URL there. -/
def file_url (env : Env) (dongle ts : Text) (seg : Int) (file : Text) (col : UrlCol) (url : Text) :
    Prop :=
  ∃ ty, file_kind file = some (ty, col) ∧ url = connectdata_url env.public_url ty dongle ts seg file

/-- What `set_segment_file` does. -/
def Effect.file (env : Env) (dongle ts : Text) (seg : Int) (file : Text) : Effect where
  urls k v := k.1 = seg ∧ file_url env dongle ts seg file k.2 v
  rows n := n = seg ∧ (file_kind file).isSome
  route := (file_kind file).isSome

theorem kind_of_qlog {file : Text} (qlog : Text.contains file "qlog" = true) :
    (file_kind file).isSome := by
  unfold file_kind
  repeat' split
  all_goals rfl

/-- What registering the stored cameras beside a qlog does. -/
def Effect.siblings (env : Env) (dongle ts : Text) (seg : Int) (cams : List Text) (w : World) : Effect where
  urls k v := k.1 = seg ∧
    ∃ cam ∈ cams, Stored env dongle ts w seg cam ∧ file_url env dongle ts seg cam k.2 v
  rows n := n = seg ∧ ∃ cam ∈ cams, Stored env dongle ts w seg cam
  route := ∃ cam ∈ cams, Stored env dongle ts w seg cam

/-- What registering a file does. -/
def Effect.registration (env : Env) (dongle ts : Text) (seg : Int) (file : Text) (body : Bytes)
    (w : World) : Effect where
  urls k v := k.1 = seg ∧ (file_url env dongle ts seg file k.2 v ∨
    Text.contains file "qlog" = true ∧
      ∃ cam ∈ CAMERA_FILES, Stored env dongle ts w seg cam ∧ file_url env dongle ts seg cam k.2 v)
  data n d := n = seg ∧ Text.contains file "qlog" = true ∧
    ∃ acc, env.parse file body = .ok acc ∧ d = acc.data
  rows n := n = seg ∧ (file_kind file).isSome
  route := (file_kind file).isSome

/-- The aggregate columns are what the rows add up to. -/
def Summed (db : Storage.Db) (dongle ts : Text) : Prop :=
  db.route_segments (fullname dongle ts) ≠ [] →
    ∀ r, db.routes.get? (fullname dongle ts) = some r →
      r.aggregates = aggregate (db.route_segments (fullname dongle ts))

theorem Summed.set_meta {env : Env} {dongle ts : Text} {info : RouteMeta} {w w' : World}
    (summed : Summed w.db dongle ts)
    (done : Write.exec env (.set_meta (fullname dongle ts) info) w = some w') :
    Summed w'.db dongle ts := by
  cases done
  intro some_row r found
  rw [Table.get?_update] at found
  obtain ⟨r₀, old, rfl⟩ := Option.map_eq_some_iff.1 found
  rw [if_pos (decide_eq_true (Table.key_of_get? old))]
  exact summed some_row r₀ old

section Functions

variable {env : Env} {dongle ts : Text} {seg : Int} {file : Text} {w w' : World}

theorem registers_set_segment_file
    (ran : alone env (set_segment_file env dongle ts seg file) w = (.ok (), w')) :
    Registers env dongle ts (.file env dongle ts seg file) w w' := by
  cases kind : file_kind file with
  | none =>
      rw [set_segment_file, kind] at ran
      cases ran
      refine (Registers.refl w).congr ?_ (by simp [Effect.file]) ?_ ?_ id fun _ _ => Iff.rfl
      · simp [Effect.file, file_url, kind]
      · simp [Effect.file, kind]
      · simp [Effect.file, kind]
  | some p =>
      obtain ⟨ty, col⟩ := p
      rw [set_segment_file, kind] at ran
      obtain ⟨_, w₁, first, ran⟩ := ok_of_bind ran
      obtain ⟨_, w₂, second, third⟩ := ok_of_bind ran
      have route := Registers.insert_route (exec_of_ok first)
      have segment := Registers.insert_segment (exec_of_ok second)
      have there : HasSegment w₂.db dongle ts seg := (segment.rows seg).2 (.inr rfl)
      have url := Registers.set_url there (exec_of_ok third)
      refine ((route.trans segment).trans url).congr ?_ ?_ ?_ ?_ ?_ ?_
      · rintro ⟨n, c⟩ v
        constructor
        · rintro ((no | no) | ⟨same, is⟩)
          · exact no.elim
          · exact no.elim
          · cases same
            exact ⟨rfl, ty, kind, is⟩
        · rintro ⟨rfl, ty', kind', is⟩
          rw [kind] at kind'
          cases kind'
          exact .inr ⟨rfl, is⟩
      · simp [Effect.or, Effect.file]
      · simp [Effect.or, Effect.file, kind]
      · simp [Effect.or, Effect.file, kind]
      · simp [Effect.or]
      · simp [Effect.or, Effect.file]

/-- The cameras beside a qlog are looked for one after the other; none comes or goes
meanwhile. -/
theorem registers_siblings {cams : List Text} (listed : ∀ cam ∈ cams, cam ∈ CAMERA_FILES)
    (ran : alone env (cams.forM (set_sibling env dongle ts seg)) w = (.ok ⟨⟩, w')) :
    Registers env dongle ts (.siblings env dongle ts seg cams w) w w' := by
  induction cams generalizing w with
  | nil =>
      cases ran
      refine (Registers.refl _).congr ?_ (fun _ _ => Iff.rfl) ?_ ?_ id fun _ _ => Iff.rfl
      · simp [Effect.siblings]
      · simp [Effect.siblings]
      · simp [Effect.siblings]
  | cons cam cams ih =>
      change alone env (set_sibling env dongle ts seg cam >>= fun _ =>
        cams.forM (set_sibling env dongle ts seg)) w = _ at ran
      obtain ⟨_, w₁, first, rest⟩ := ok_of_bind ran
      rw [set_sibling, alone_bind_ok (alone_blob_exists _ w)] at first
      have kind : (file_kind cam).isSome := by
        have kinds : ∀ cam ∈ CAMERA_FILES, (file_kind cam).isSome := by decide
        exact kinds cam (listed cam List.mem_cons_self)
      by_cases stored : Stored env dongle ts w seg cam
      · rw [if_pos (by exact stored)] at first
        have own := registers_set_segment_file first
        have others := ih (fun c member => listed c (List.mem_cons_of_mem _ member)) rest
        have stays : ∀ c ∈ cams, Stored env dongle ts w₁ seg c ↔ Stored env dongle ts w seg c := by
          intro c member
          exact (own.cameras seg c (listed c (List.mem_cons_of_mem _ member))).trans (or_iff_left id)
        refine (own.trans others).congr ?_ (by simp [Effect.or, Effect.file, Effect.siblings]) ?_ ?_ ?_
          (by simp [Effect.or, Effect.file, Effect.siblings])
        · rintro ⟨n, c⟩ v
          simp only [Effect.or, Effect.file, Effect.siblings, List.exists_mem_cons_iff, stored, true_and]
          rw [← and_or_left]
          refine and_congr_right fun _ => or_congr_right (exists_congr fun c => ?_)
          exact and_congr_right fun member => by rw [stays c member]
        · intro n
          simp only [Effect.or, Effect.file, Effect.siblings, List.exists_mem_cons_iff, stored, kind,
            true_or, and_true]
          exact or_congr_right (or_iff_left_of_imp And.left)
        · simp [Effect.or, Effect.file, Effect.siblings, stored, kind]
        · simp [Effect.or, Effect.file, Effect.siblings]
      · rw [if_neg (by exact stored)] at first
        cases first
        have others := ih (fun c member => listed c (List.mem_cons_of_mem _ member)) rest
        refine others.congr ?_ (by simp [Effect.siblings]) ?_ ?_ id fun _ _ => Iff.rfl
        · simp [Effect.siblings, stored]
        · simp [Effect.siblings, stored]
        · simp [Effect.siblings, stored]

/-- What parsing a qlog does to its row and its siblings' columns. -/
theorem registers_upsert_segment {acc : Accum} {w w' : World} (qlog : Text.contains file "qlog" = true)
    (ran : alone env (upsert_segment env dongle ts seg file acc) w = (.ok (), w')) :
    Registers env dongle ts
      { Effect.registration env dongle ts seg file [] w with
        data := fun n d => n = seg ∧ d = acc.data } w w' := by
  rw [upsert_segment] at ran
  obtain ⟨_, w₁, first, ran⟩ := ok_of_bind ran
  obtain ⟨_, w₂, second, ran⟩ := ok_of_bind ran
  obtain ⟨_, w₃, third, rest⟩ := ok_of_bind ran
  have route := Registers.insert_route (exec_of_ok first)
  have segment := Registers.upsert_segment (exec_of_ok second)
  have own := registers_set_segment_file third
  have others := registers_siblings (fun _ member => member) rest
  have kind := kind_of_qlog qlog
  have stays : ∀ c ∈ CAMERA_FILES, Stored env dongle ts w₃ seg c ↔ Stored env dongle ts w seg c := by
    intro c member
    rw [own.cameras seg c member, segment.cameras seg c member, route.cameras seg c member]
    exact (or_iff_left id).trans ((or_iff_left id).trans (or_iff_left id))
  refine (((route.trans segment).trans own).trans others).congr ?_ ?_ ?_ ?_ ?_ ?_
  · rintro ⟨n, c⟩ v
    simp only [Effect.or, Effect.file, Effect.siblings, Effect.registration, qlog, true_and, false_or]
    rw [← and_or_left]
    refine and_congr_right fun _ => or_congr_right (exists_congr fun c => ?_)
    exact and_congr_right fun member => by rw [stays c member]
  · simp [Effect.or, Effect.file, Effect.siblings]
  · intro n
    simp only [Effect.or, Effect.file, Effect.siblings, Effect.registration, kind, and_true, false_or]
    rw [or_self]
    exact or_congr_right (or_iff_left_of_imp And.left)
  · simp [Effect.or, Effect.file, Effect.siblings, Effect.registration, kind]
  · simp [Effect.or, Effect.file, Effect.siblings, Effect.registration]
  · simp [Effect.or, Effect.file, Effect.siblings, Effect.registration]

/-- The sum is written over the rows there are. -/
theorem registers_recompute_route (env : Env) (dongle ts : Text) (w : World) :
    ∃ w', alone env (recompute_route dongle ts) w = (.ok (), w') ∧
      Registers env dongle ts { sums := w.db.route_segments (fullname dongle ts) ≠ [] } w w' ∧
      Summed w'.db dongle ts := by
  rw [recompute_route, alone_bind_ok (alone_select _ w)]
  by_cases empty : w.db.route_segments (fullname dongle ts) = []
  · rw [empty]
    refine ⟨w, rfl, (Registers.refl w).congr (by simp) (by simp) (by simp) (by simp) (by simp) (by simp), ?_⟩
    exact fun some_row => (some_row empty).elim
  · have isnt : ¬ (w.db.route_segments (fullname dongle ts)).isEmpty = true := by
      rwa [List.isEmpty_iff]
    have done : Write.exec env (.set_aggregates (fullname dongle ts)
        (aggregate (w.db.route_segments (fullname dongle ts)))) w = some _ := rfl
    rw [if_neg isnt, alone_execute done]
    refine ⟨_, rfl, (Registers.set_aggregates done).congr (by simp) (by simp) (by simp) (by simp)
      (fun _ => empty) (by simp), ?_⟩
    intro _ r found
    rw [Table.get?_update] at found
    obtain ⟨r₀, old, rfl⟩ := Option.map_eq_some_iff.1 found
    rw [if_pos (decide_eq_true (Table.key_of_get? old))]
    rfl

/-- The artifacts of a qlog are stored beside the cameras. -/
theorem registers_artifacts {acc : Accum} {artifacts : List (Text × Bytes)}
    (listed : ∀ a ∈ artifacts, a ∈ acc.artifacts env)
    (ran : alone env (artifacts.forM (put_artifact dongle ts seg)) w = (.ok ⟨⟩, w')) :
    Registers env dongle ts {} w w' := by
  induction artifacts generalizing w with
  | nil =>
      cases ran
      exact .refl _
  | cons artifact artifacts ih =>
      change alone env (put_artifact dongle ts seg artifact >>= fun _ =>
        artifacts.forM (put_artifact dongle ts seg)) w = _ at ran
      have put : Write.exec env (.blob_put (.segment dongle ts seg artifact.1) artifact.2) w = some _ :=
        rfl
      rw [put_artifact, alone_bind_ok (alone_attempt put)] at ran
      have rest := ih (fun a member => listed a (List.mem_cons_of_mem _ member)) ran
      have plain : ∀ cam ∈ CAMERA_FILES, '_' ∉ sanitize cam ∧ cam ∉ ARTIFACTS := by decide
      refine (Registers.blob_put (fun n cam camera same => ?_) put).quiet_then rest
      have own := (segment_of_path (plain _ camera).1 same.symm).2
      exact (plain cam camera).2 (own ▸ artifact_listed env (listed artifact List.mem_cons_self))

theorem alone_of_result {r : AppResult Accum} (w : World) : alone env (Request.of_result r) w = (r, w) :=
  rfl

theorem registers_parse_and_store {body : Bytes} (qlog : Text.contains file "qlog" = true)
    (ran : alone env (parse_and_store env dongle ts seg file body) w = (.ok (), w')) :
    Registers env dongle ts
        { Effect.registration env dongle ts seg file body w with
          sums := w'.db.route_segments (fullname dongle ts) ≠ [] } w w' ∧
      Summed w'.db dongle ts := by
  rw [parse_and_store] at ran
  obtain ⟨acc, w₀, parsed, ran⟩ := ok_of_bind ran
  rw [alone_of_result, Prod.mk.injEq] at parsed
  obtain ⟨parsed, rfl⟩ := parsed
  obtain ⟨_, w₁, first, ran⟩ := ok_of_bind ran
  obtain ⟨_, w₂, second, ran⟩ := ok_of_bind ran
  obtain ⟨w₃, third, sum, summed⟩ := registers_recompute_route env dongle ts w₂
  rw [alone_bind_ok third] at ran
  obtain ⟨_, w₄, fourth, last⟩ := ok_of_bind ran
  have artifacts : Registers env dongle ts {} w w₁ := registers_artifacts (fun _ member => member) first
  have rows := registers_upsert_segment qlog second
  have info := Registers.set_meta (exec_of_ok fourth)
  have kept := summed.set_meta (exec_of_ok fourth)
  have gps : Registers env dongle ts {} w₄ w' ∧ w'.db.segments = w₄.db.segments ∧
      w'.db.routes = w₄.db.routes := by
    rw [update_last_gps] at last
    split at last
    · rename_i lat lng time _
      have done : Write.exec env (.set_last_gps dongle lat lng time) w₄ = some _ := rfl
      rw [alone_attempt done] at last
      cases last
      exact ⟨.same rfl rfl fun _ _ _ => (or_iff_left id).symm, rfl, rfl⟩
    · cases last
      exact ⟨.refl _, rfl, rfl⟩
  constructor
  · have stays : ∀ c ∈ CAMERA_FILES, Stored env dongle ts w₁ seg c ↔ Stored env dongle ts w seg c := by
      intro c member
      exact (artifacts.cameras seg c member).trans (or_iff_left id)
    refine ((((artifacts.quiet_then rows).then_quiet sum).then_quiet info).then_quiet gps.1).congr
      ?_ ?_ (fun _ => Iff.rfl) Iff.rfl ?_ fun _ _ => Iff.rfl
    · rintro ⟨n, c⟩ v
      refine and_congr_right fun _ => or_congr_right (and_congr_right fun _ => exists_congr fun c => ?_)
      exact and_congr_right fun member => by rw [stays c member]
    · intro n d
      refine and_congr_right fun _ => ⟨fun is => ⟨qlog, acc, parsed, is⟩, ?_⟩
      rintro ⟨_, acc', parsed', is⟩
      rw [parsed] at parsed'
      cases parsed'
      exact is
    · rintro (((no | some_row) | no) | no)
      · exact no.elim
      · exact gps.1.nonempty (info.nonempty (sum.nonempty some_row))
      · exact no.elim
      · exact no.elim
  · unfold Summed Db.route_segments at kept ⊢
    rw [gps.2.1, gps.2.2]
    exact kept

theorem registers_register_segment_file {body : Bytes}
    (ran : alone env (register_segment_file env dongle ts seg file body) w = (.ok (), w')) :
    Registers env dongle ts
        { Effect.registration env dongle ts seg file body w with
          sums := w'.db.route_segments (fullname dongle ts) ≠ [] } w w' ∧
      Summed w'.db dongle ts := by
  rw [register_segment_file] at ran
  by_cases qlog : Text.contains file "qlog" = true
  · rw [if_pos qlog] at ran
    exact registers_parse_and_store qlog ran
  · rw [if_neg qlog] at ran
    obtain ⟨_, w₁, first, second⟩ := ok_of_bind ran
    obtain ⟨w₂, third, sum, summed⟩ := registers_recompute_route env dongle ts w₁
    rw [alone_ignore, third] at second
    cases second
    refine ⟨((registers_set_segment_file first).then_quiet sum).congr ?_ ?_ (fun _ => Iff.rfl) Iff.rfl ?_
      fun _ _ => Iff.rfl, summed⟩
    · exact fun k v => and_congr_right fun _ => (or_iff_left fun both => qlog both.1).symm
    · exact fun n d => (iff_of_false id fun is => qlog is.2.1)
    · rintro (no | some_row)
      · exact no.elim
      · exact sum.nonempty some_row

end Functions

end HomeConnect.Drives
