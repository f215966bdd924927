/-
# Drives.Arrival -- in which order a drive's files arrive

The files of a route come one after another, a camera perhaps before the qlog that finds it
in the store, each at its own time.  What all of them assign to the segments' rows is the
union of what each would assign by itself, and of the stored cameras a qlog finds
(`arrivals`); with one file of each kind in a segment no column is assigned two values.  So
any two orders leave the same rows, and the route sums up the same
(`order_of_arrival`).

Registering a file once more makes statements that are in effect already
(`Drives.Settled`).
-/
import HomeConnect.Drives.Named
import HomeConnect.Drives.Poles
import HomeConnect.Drives.Settled

namespace HomeConnect.Drives

open HomeConnect.Theory HomeConnect.Storage

set_option autoImplicit false

/-- Ingest files one after another, each at its own time; `none` when one fails. -/
def ingest_all (env : Env) (dongle ts : Text) : List (Int × SegmentFile) → World → Option World
  | [], w => some w
  | (t, f) :: rest, w =>
      match alone env (ingest_segment_file env dongle ts f.seg f.file f.body) { w with now := t } with
      | (.ok (), w') => ingest_all env dongle ts rest w'
      | (.error _, _) => none

def KINDS : List Text := ["qcamera", "fcamera", "dcamera", "ecamera", "qlog", "rlog"]

/-- The two names are of one kind. -/
def SameKind (f g : Text) : Prop :=
  ∃ kind ∈ KINDS, Text.contains f kind = true ∧ Text.contains g kind = true

instance (f g : Text) : Decidable (SameKind f g) :=
  inferInstanceAs (Decidable (∃ kind ∈ KINDS, _))

/-- A segment has at most one file of each kind, the cameras in the store counted. -/
structure OneOfEach (env : Env) (dongle ts : Text) (w : World) (files : Set SegmentFile) : Prop where
  arriving : ∀ f ∈ files, ∀ g ∈ files, f.seg = g.seg → SameKind f.file g.file → f = g
  stored : ∀ f ∈ files, ∀ cam ∈ CAMERA_FILES, Stored env dongle ts w f.seg cam →
    SameKind f.file cam → f.file = cam

/-- What the files assign, arriving where the store is `w`'s. -/
def arrivals (env : Env) (dongle ts : Text) (w : World) (files : Set SegmentFile) : Effect where
  urls k v := ∃ f ∈ files, (Effect.registration env dongle ts f.seg f.file f.body w).urls k v
  data n d := ∃ f ∈ files, (Effect.registration env dongle ts f.seg f.file f.body w).data n d
  rows n := ∃ f ∈ files, (Effect.registration env dongle ts f.seg f.file f.body w).rows n
  route := ∃ f ∈ files, (file_kind f.file).isSome
  cameras n cam := ∃ f ∈ files, f.seg = n ∧ f.file = cam

/-! ## One file -/

section Ingest

variable {env : Env} {dongle ts : Text} {seg : Int} {file : Text} {body : Bytes} {w w' : World}

theorem registers_store
    (ran : alone env (store env dongle (.segment dongle ts seg file) body) w = (.ok (), w')) :
    Registers env dongle ts { cameras := fun n cam => n = seg ∧ cam = file } w w' := by
  have done := store_ok ran
  refine .same done.segments done.routes fun n cam listed => ?_
  have plain : ∀ cam ∈ CAMERA_FILES, '_' ∉ sanitize cam := by decide
  rw [Stored, Stored, done.blobs, Dir.read_write]
  split
  · rename_i here
    obtain ⟨rfl, rfl⟩ := segment_of_path (plain cam listed) here.symm
    simp
  · rename_i elsewhere
    refine (or_iff_left ?_).symm
    rintro ⟨rfl, rfl⟩
    exact elsewhere rfl

theorem registers_model (w : World) :
    Registers env dongle ts {} w (alone env (parse_model_and_store env dongle ts seg file body) w).2 := by
  cases model : env.extract_model file body with
  | none =>
      rw [parse_model_and_store, model]
      exact .refl w
  | some json =>
      have plain : ∀ cam ∈ CAMERA_FILES, '_' ∉ sanitize cam ∧ cam ≠ "model.json" := by decide
      rw [parse_model_alone model]
      have put : Write.exec env (.blob_put (model_name dongle ts seg) json) w = some _ := rfl
      refine Registers.blob_put (fun n cam listed same => ?_) put
      exact (plain cam listed).2 (segment_of_path (plain cam listed).1 same.symm).2.symm

/-- A file is registered against the cameras stored before it: no camera is a qlog. -/
theorem registers_ingest
    (ran : alone env (ingest_segment_file env dongle ts seg file body) w = (.ok (), w')) :
    Registers env dongle ts
        { Effect.registration env dongle ts seg file body w with
          sums := w'.db.route_segments (fullname dongle ts) ≠ []
          cameras := fun n cam => n = seg ∧ cam = file } w w' ∧
      Summed w'.db dongle ts := by
  obtain ⟨stored, registered, store, register, is⟩ := ingest_ok ran
  have first := registers_store store
  obtain ⟨second, summed⟩ := registers_register_segment_file register
  have last : Registers env dongle ts {} registered w' ∧ w'.db = registered.db := by
    rw [is]
    split
    · refine ⟨registers_model registered, ?_⟩
      cases model : env.extract_model file body with
      | none => rw [parse_model_and_store, model]; rfl
      | some json => rw [parse_model_alone model]
    · exact ⟨.refl _, rfl⟩
  rw [← last.2] at second summed
  refine ⟨((first.trans second).then_quiet last.1).congr ?_ ?_ ?_ ?_ ?_ ?_, summed⟩
  · rintro ⟨n, c⟩ v
    refine (or_iff_right id).trans (and_congr_right fun _ => or_congr_right ?_)
    refine and_congr_right fun qlog => exists_congr fun cam => and_congr_right fun listed => ?_
    have camera : ∀ cam ∈ CAMERA_FILES, Text.contains cam "qlog" = false := by decide
    rw [first.cameras seg cam listed, or_iff_left]
    rintro ⟨_, rfl⟩
    rw [camera cam listed] at qlog
    cases qlog
  · exact fun n d => or_iff_right id
  · exact fun n => or_congr_right (or_iff_right id)
  · exact or_congr_right (or_iff_right id)
  · rintro ((no | some_row) | no)
    · exact no.elim
    · exact some_row
    · exact no.elim
  · exact fun n cam => or_iff_left id

end Ingest

/-! ## All of them -/

section Run

variable {env : Env} {dongle ts : Text} {base : World}

theorem exists_insert {done : Set SegmentFile} {f : SegmentFile} (P : SegmentFile → Prop) :
    (∃ g ∈ done, P g) ∨ P f ↔ ∃ g ∈ insert f done, P g := by
  rw [Set.exists_mem_insert, or_comm]

/-- What another file adds. -/
theorem arrivals_insert {w w' : World} {done : Set SegmentFile} {f : SegmentFile} {s s' : Prop}
    (before : Registers env dongle ts { arrivals env dongle ts base done with sums := s } base w)
    (ingested : Registers env dongle ts
      { Effect.registration env dongle ts f.seg f.file f.body w with
        sums := s'
        cameras := fun n cam => n = f.seg ∧ cam = f.file } w w') (later : s → s') :
    Registers env dongle ts { arrivals env dongle ts base (insert f done) with sums := s' } base w' := by
  refine (before.trans ingested).congr ?_ ?_ ?_ ?_ ?_ ?_
  · rintro ⟨n, c⟩ v
    constructor
    · rintro (⟨g, member, assigns⟩ | ⟨here, own | ⟨qlog, cam, listed, stored, url⟩⟩)
      · exact ⟨g, .inr member, assigns⟩
      · exact ⟨f, .inl rfl, here, .inl own⟩
      · -- a camera in the store was there at first, or has come and is registered itself
        rcases (before.cameras f.seg cam listed).1 stored with first | ⟨g, member, seg, rfl⟩
        · exact ⟨f, .inl rfl, here, .inr ⟨qlog, cam, listed, first, url⟩⟩
        · exact ⟨g, .inr member, here.trans seg.symm, .inl (seg ▸ url)⟩
    · rintro ⟨g, rfl | member, assigns⟩
      · right
        obtain ⟨here, own | ⟨qlog, cam, listed, first, url⟩⟩ := assigns
        · exact ⟨here, .inl own⟩
        · exact ⟨here, .inr ⟨qlog, cam, listed, (before.cameras _ cam listed).2 (.inl first), url⟩⟩
      · exact .inl ⟨g, member, assigns⟩
  · exact fun n d => exists_insert _
  · exact fun n => or_congr_right (exists_insert _)
  · exact or_congr_right (exists_insert _)
  · rintro (earlier | now)
    · exact later earlier
    · exact now
  · intro n cam
    refine (or_congr_right ?_).trans (exists_insert fun g => g.seg = n ∧ g.file = cam)
    exact and_congr eq_comm eq_comm

theorem arrived_insert {rest : List (Int × SegmentFile)} {done : Set SegmentFile} {t : Int}
    {f : SegmentFile} :
    insert f done ∪ {g | g ∈ rest.map Prod.snd} =
      done ∪ {g | g ∈ ((t, f) :: rest).map Prod.snd} := by
  ext g
  simp only [Set.mem_union, Set.mem_insert_iff, Set.mem_ofPred_eq, List.map_cons, List.mem_cons]
  tauto

/-- What a run of arrivals leaves. -/
theorem registers_ingest_all {l : List (Int × SegmentFile)} {done : Set SegmentFile} {w w' : World}
    (before : Registers env dongle ts
      { arrivals env dongle ts base done with
        sums := w.db.route_segments (fullname dongle ts) ≠ [] } base w)
    (ran : ingest_all env dongle ts l w = some w') :
    Registers env dongle ts
      { arrivals env dongle ts base (done ∪ {f | f ∈ l.map Prod.snd}) with
        sums := w'.db.route_segments (fullname dongle ts) ≠ [] } base w' := by
  induction l generalizing done w with
  | nil =>
      cases ran
      have none : done ∪ {f | f ∈ ([] : List (Int × SegmentFile)).map Prod.snd} = done := by simp
      rw [none]
      exact before
  | cons arrival rest ih =>
      obtain ⟨t, f⟩ := arrival
      rw [ingest_all] at ran
      split at ran
      · rename_i w₁ ingested
        have step := (registers_ingest ingested).1
        have after := ih (arrivals_insert (before.clock t) step step.nonempty) ran
        rw [← arrived_insert]
        exact after
      · cases ran

/-- The last file sums up the route. -/
theorem summed_ingest_all {l : List (Int × SegmentFile)} {w w' : World} (some_file : l ≠ [])
    (ran : ingest_all env dongle ts l w = some w') : Summed w'.db dongle ts := by
  induction l generalizing w with
  | nil => exact (some_file rfl).elim
  | cons arrival rest ih =>
      obtain ⟨t, f⟩ := arrival
      rw [ingest_all] at ran
      split at ran
      · rename_i w₁ ingested
        cases rest with
        | nil =>
            cases ran
            exact (registers_ingest ingested).2
        | cons next rest => exact ih (List.cons_ne_nil _ _) ran
      · cases ran

end Run

/-! ## One value for each cell -/

/-- A registered file has a kind that says its column. -/
def kind_of (col : UrlCol) : Text :=
  match col with
  | .qcam => "qcamera"
  | .fcam => "fcamera"
  | .dcam => "dcamera"
  | .ecam => "ecamera"
  | .qlog => "qlog"
  | .rlog => "rlog"

theorem kind_of_column {file ty : Text} {col : UrlCol} (kind : file_kind file = some (ty, col)) :
    kind_of col ∈ KINDS ∧ Text.contains file (kind_of col) = true := by
  constructor
  · cases col <;> decide
  · unfold file_kind at kind
    repeat' split at kind
    all_goals
      cases kind
      try assumption

/-- A name that holds a token has a column. -/
theorem kind_of_token {file k : Text} (listed : k ∈ KINDS) (holds : Text.contains file k = true) :
    (file_kind file).isSome := by
  unfold file_kind
  repeat' split
  all_goals try rfl
  simp only [KINDS, List.mem_cons, List.not_mem_nil, or_false] at listed
  rcases listed with rfl | rfl | rfl | rfl | rfl | rfl
  all_goals contradiction

theorem sameKind_of_urls {env : Env} {dongle ts : Text} {seg seg' : Int} {file file' url url' : Text}
    {col : UrlCol} (is : file_url env dongle ts seg file col url)
    (is' : file_url env dongle ts seg' file' col url') : SameKind file file' := by
  obtain ⟨ty, kind, _⟩ := is
  obtain ⟨ty', kind', _⟩ := is'
  exact ⟨kind_of col, (kind_of_column kind).1, (kind_of_column kind).2, (kind_of_column kind').2⟩

theorem file_url_unique {env : Env} {dongle ts : Text} {seg : Int} {file url url' : Text}
    {col : UrlCol} (is : file_url env dongle ts seg file col url)
    (is' : file_url env dongle ts seg file col url') : url = url' := by
  obtain ⟨ty, kind, rfl⟩ := is
  obtain ⟨ty', kind', rfl⟩ := is'
  rw [kind] at kind'
  cases kind'
  rfl

/-- Cameras of the standard names are of one kind only when they are one. -/
theorem camera_of_sameKind {cam cam' : Text} (listed : cam ∈ CAMERA_FILES) (listed' : cam' ∈ CAMERA_FILES)
    (same : SameKind cam cam') : cam = cam' := by
  have distinct : ∀ cam ∈ CAMERA_FILES, ∀ cam' ∈ CAMERA_FILES, ∀ kind ∈ KINDS,
      Text.contains cam kind = true → Text.contains cam' kind = true → cam = cam' := by decide
  obtain ⟨kind, member, of, of'⟩ := same
  exact distinct cam listed cam' listed' kind member of of'

section Determined

variable {env : Env} {dongle ts : Text} {base : World} {files : Set SegmentFile}

/-- A column is assigned by one file. -/
theorem urls_consistent (one : OneOfEach env dongle ts base files) :
    Consistent (arrivals env dongle ts base files).urls := by
  -- each assigned URL is that of a file which is the same as any other of its kind
  have source : ∀ {k v}, (arrivals env dongle ts base files).urls k v →
      ∃ file, file_url env dongle ts k.1 file k.2 v ∧
        ((∃ f ∈ files, f.seg = k.1 ∧ f.file = file) ∨
          file ∈ CAMERA_FILES ∧ Stored env dongle ts base k.1 file) := by
    rintro k v ⟨f, member, here, own | ⟨_, cam, listed, stored, url⟩⟩
    · exact ⟨f.file, here ▸ own, .inl ⟨f, member, here.symm, rfl⟩⟩
    · exact ⟨cam, here ▸ url, .inr ⟨listed, here ▸ stored⟩⟩
  intro k v v' assigned assigned'
  obtain ⟨file, url, of⟩ := source assigned
  obtain ⟨file', url', of'⟩ := source assigned'
  suffices same : file = file' by
    subst same
    exact file_url_unique url url'
  have alike := sameKind_of_urls url url'
  rcases of with ⟨f, member, seg, rfl⟩ | ⟨listed, stored⟩
  · rcases of' with ⟨g, member', seg', rfl⟩ | ⟨listed', stored'⟩
    · rw [one.arriving f member g member' (seg.trans seg'.symm) alike]
    · exact one.stored f member file' listed' (seg ▸ stored') alike
  · obtain ⟨kind, listed_kind, of_file, of_file'⟩ := alike
    rcases of' with ⟨g, member', seg', rfl⟩ | ⟨listed', stored'⟩
    · exact (one.stored g member' file listed (seg' ▸ stored) ⟨kind, listed_kind, of_file', of_file⟩).symm
    · exact camera_of_sameKind listed listed' ⟨kind, listed_kind, of_file, of_file'⟩

theorem data_consistent (one : OneOfEach env dongle ts base files) :
    Consistent (arrivals env dongle ts base files).data := by
  rintro n d d' ⟨f, member, here, qlog, acc, parsed, rfl⟩ ⟨g, member', here', qlog', acc', parsed', rfl⟩
  have same : f = g :=
    one.arriving f member g member' (here.symm.trans here') ⟨"qlog", by decide, qlog, qlog'⟩
  subst same
  rw [parsed] at parsed'
  cases parsed'
  rfl

end Determined

/-! ## The same rows -/

/-- A route's row without its dates, platform and git columns. -/
def unlabelled_route (r : Route) : Route := { r with info := {}, created_at := 0 }

/-- The same rows, up to dates and a route's platform and git columns. -/
structure SameRows (w w' : World) : Prop where
  segments : ∀ name, (w.db.segments.get? name).map undated_segment =
    (w'.db.segments.get? name).map undated_segment
  routes : ∀ name, (w.db.routes.get? name).map unlabelled_route =
    (w'.db.routes.get? name).map unlabelled_route

theorem undated_of_cells {s s' : Segment} (stem : Segment.stem s = Segment.stem s')
    (urls : s.url = s'.url) (data : s.data = s'.data) : undated_segment s = undated_segment s' := by
  obtain ⟨name, rest⟩ := Prod.ext_iff.1 stem
  obtain ⟨route, number⟩ := Prod.ext_iff.1 rest
  have columns : ∀ col, s.url col = s'.url col := fun col => by rw [urls]
  have qcam := columns .qcam
  have fcam := columns .fcam
  have dcam := columns .dcam
  have ecam := columns .ecam
  have qlog := columns .qlog
  have rlog := columns .rlog
  cases s
  cases s'
  simp only [Segment.stem, Segment.url] at name route number data qcam fcam dcam ecam qlog rlog
  simp only [undated_segment, name, route, number, data, qcam, fcam, dcam, ecam, qlog, rlog]

/-- A route's rows, told from what is read by their names. -/
theorem mem_undated_segments {db : Storage.Db} {name : Text} {s : Segment} :
    s ∈ (db.route_segments name).map undated_segment ↔
      (db.segments.get? s.canonical_name).map undated_segment = some s ∧
        s.canonical_route_name = name := by
  rw [List.mem_map]
  constructor
  · rintro ⟨r, listed, rfl⟩
    obtain ⟨member, of⟩ := mem_route_segments.1 listed
    have found : db.segments.get? r.canonical_name = some r := Table.get?_eq_some.2 ⟨member, rfl⟩
    exact ⟨by rw [show (undated_segment r).canonical_name = r.canonical_name from rfl, found]; rfl, of⟩
  · rintro ⟨found, of⟩
    obtain ⟨r, read, rfl⟩ := Option.map_eq_some_iff.1 found
    exact ⟨r, mem_route_segments.2 ⟨(Table.get?_eq_some.1 read).1, of⟩, rfl⟩

theorem nodup_undated_segments (db : Storage.Db) (name : Text) :
    ((db.route_segments name).map undated_segment).Nodup := by
  refine List.Nodup.of_map Segment.canonical_name ?_
  rw [List.map_map, show Segment.canonical_name ∘ undated_segment = Segment.canonical_name from rfl]
  refine (((List.perm_insertionSort _ _).map _).nodup_iff).2 ?_
  exact db.segments.nodup.sublist (List.filter_sublist.map _)

theorem sorted_undated_segments (db : Storage.Db) (name : Text) :
    ((db.route_segments name).map undated_segment).Pairwise fun a b => a.number ≤ b.number := by
  rw [List.pairwise_map]
  have total : Std.Total fun a b : Segment => a.number ≤ b.number :=
    ⟨fun a b => le_total a.number b.number⟩
  have transitive : IsTrans Segment fun a b => a.number ≤ b.number :=
    ⟨fun _ _ _ first second => le_trans first second⟩
  exact List.pairwise_insertionSort (fun a b : Segment => a.number ≤ b.number) _

/-- In a named database a route's segments differ in their numbers, so there is one way of
listing them in order. -/
theorem route_segments_of_rows {db db' : Storage.Db} (named : Named db) (named' : Named db')
    (same : ∀ name, (db.segments.get? name).map undated_segment =
      (db'.segments.get? name).map undated_segment) (name : Text) :
    (db.route_segments name).map undated_segment = (db'.route_segments name).map undated_segment := by
  have members : ∀ s, s ∈ (db.route_segments name).map undated_segment ↔
      s ∈ (db'.route_segments name).map undated_segment := by
    intro s
    rw [mem_undated_segments, mem_undated_segments, same]
  have called : ∀ {db : Storage.Db} {s : Segment}, Named db →
      s ∈ (db.route_segments name).map undated_segment →
      s.canonical_name = name ++ ("--" ++ Text.decimal s.number) := by
    intro db s named member
    obtain ⟨r, listed, rfl⟩ := List.mem_map.1 member
    obtain ⟨there, of⟩ := mem_route_segments.1 listed
    obtain ⟨dongle, ts, _, is, route⟩ := named.segments r there
    rw [show (undated_segment r).canonical_name = r.canonical_name from rfl, is, canonical_eq, ← route, of]
    rfl
  refine List.Perm.eq_of_pairwise ?_ (sorted_undated_segments db name) (sorted_undated_segments db' name)
    ((List.perm_ext_iff_of_nodup (nodup_undated_segments db name) (nodup_undated_segments db' name)).2
      members)
  intro a b first second le ge
  have names : a.canonical_name = b.canonical_name := by
    rw [called named first, called named' second, le_antisymm le ge]
  have read := (mem_undated_segments.1 ((members a).1 first)).1
  rw [names, (mem_undated_segments.1 second).1] at read
  exact (Option.some.inj read).symm

section Same

variable {env : Env} {dongle ts : Text} {base w w' : World} {files : Set SegmentFile}

/-- What was assigned determines the segments. -/
theorem same_segments {s s' : Prop} (one : OneOfEach env dongle ts base files)
    (left : Registers env dongle ts { arrivals env dongle ts base files with sums := s } base w)
    (right : Registers env dongle ts { arrivals env dongle ts base files with sums := s' } base w')
    (name : Text) :
    (w.db.segments.get? name).map undated_segment = (w'.db.segments.get? name).map undated_segment := by
  by_cases own : ∃ n, name = canonical dongle ts n
  · obtain ⟨n, rfl⟩ := own
    have there : HasSegment w.db dongle ts n ↔ HasSegment w'.db dongle ts n :=
      (left.rows n).trans (right.rows n).symm
    cases found : w.db.segments.get? (canonical dongle ts n) with
    | none =>
        cases found' : w'.db.segments.get? (canonical dongle ts n) with
        | none => rfl
        | some s' =>
            have made := there.2 (by rw [HasSegment, found']; rfl)
            rw [HasSegment, found] at made
            cases made
    | some s =>
        have made := there.1 (by rw [HasSegment, found]; rfl)
        obtain ⟨s', found'⟩ := Option.isSome_iff_exists.1 made
        have row : row_of w.db dongle ts n = s := by rw [row_of, found]; rfl
        have row' : row_of w'.db dongle ts n = s' := by rw [row_of, found']; rfl
        have stem := (left.stem n).trans (right.stem n).symm
        have urls := left.urls.unique right.urls (urls_consistent one)
        have data := congrFun (left.data.unique right.data (data_consistent one)) n
        have columns : s.url = s'.url := by
          funext col
          have cell := congrFun urls (n, col)
          simp only [row, row'] at cell
          exact cell
        simp only [row, row'] at stem data
        rw [found', Option.map_some, Option.map_some, undated_of_cells stem columns data]
  · have other : ∀ n, name ≠ canonical dongle ts n := fun n is => own ⟨n, is⟩
    rw [left.others name other, right.others name other]

theorem unlabelled_of_bare {r r' : Route} (bare : bare_route r = bare_route r')
    (aggregates : r.aggregates = r'.aggregates) : unlabelled_route r = unlabelled_route r' := by
  cases r
  cases r'
  simp only [bare_route, Route.mk.injEq] at bare
  obtain ⟨name, device, _, _, isPublic, types, _⟩ := bare
  simp only at aggregates
  simp only [unlabelled_route, name, device, aggregates, isPublic, types]

/-- The sums over the same rows are the same, and without rows they are what they were. -/
theorem same_rows (one : OneOfEach env dongle ts base files) (named : Named w.db)
    (named' : Named w'.db)
    (left : Registers env dongle ts
      { arrivals env dongle ts base files with
        sums := w.db.route_segments (fullname dongle ts) ≠ [] } base w)
    (right : Registers env dongle ts
      { arrivals env dongle ts base files with
        sums := w'.db.route_segments (fullname dongle ts) ≠ [] } base w')
    (summed : Summed w.db dongle ts) (summed' : Summed w'.db dongle ts) : SameRows w w' := by
  have segments := same_segments one left right
  refine ⟨segments, fun name => ?_⟩
  by_cases own : name = fullname dongle ts
  · subst own
    have rows := route_segments_of_rows named named' segments (fullname dongle ts)
    have there : HasRoute w.db dongle ts ↔ HasRoute w'.db dongle ts := left.route.trans right.route.symm
    cases found : w.db.routes.get? (fullname dongle ts) with
    | none =>
        cases found' : w'.db.routes.get? (fullname dongle ts) with
        | none => rfl
        | some r' =>
            have made := there.2 (by rw [HasRoute, found']; rfl)
            rw [HasRoute, found] at made
            cases made
    | some r =>
        have made := there.1 (by rw [HasRoute, found]; rfl)
        obtain ⟨r', found'⟩ := Option.isSome_iff_exists.1 made
        have route : route_of w.db dongle ts = r := by rw [route_of, found]; rfl
        have route' : route_of w'.db dongle ts = r' := by rw [route_of, found']; rfl
        have bare := left.bare.trans right.bare.symm
        rw [route, route'] at bare
        rw [found', Option.map_some, Option.map_some, unlabelled_of_bare bare]
        by_cases empty : w.db.route_segments (fullname dongle ts) = []
        · have empty' : w'.db.route_segments (fullname dongle ts) = [] := by
            rw [empty, List.map_nil] at rows
            exact List.map_eq_nil_iff.1 rows.symm
          have kept := (left.sums fun no => no empty).trans (right.sums fun no => no empty').symm
          rwa [route, route'] at kept
        · have empty' : w'.db.route_segments (fullname dongle ts) ≠ [] := by
            intro empty'
            rw [empty', List.map_nil] at rows
            exact empty (List.map_eq_nil_iff.1 rows)
          rw [summed empty r found, summed' empty' r' found', ← aggregate_undated, rows, aggregate_undated]
  · rw [left.other_routes name own, right.other_routes name own]

theorem named_ingest_all {l : List (Int × SegmentFile)} {w w' : World} (named : Named w.db)
    (ran : ingest_all env dongle ts l w = some w') : Named w'.db := by
  induction l generalizing w with
  | nil =>
      cases ran
      exact named
  | cons arrival rest ih =>
      obtain ⟨t, f⟩ := arrival
      rw [ingest_all] at ran
      split at ran
      · rename_i w₁ ingested
        have kept : Named (alone env (ingest_segment_file env dongle ts f.seg f.file f.body)
            { w with now := t }).2.db := by
          refine WritesOnly.alone (R := fun w w' => Named w.db → Named w'.db) (fun _ named => named)
            (fun first second named => second (first named)) (fun _ done named => named.exec done)
            (fun _ _ named => named)
            (writes_ingest_segment_file env dongle ts f.seg f.file f.body).only _ named
        rw [ingested] at kept
        exact ih kept ran
      · cases ran

/-- Every file of a run was ingested at some point of it. -/
theorem ingested_of_mem {l : List (Int × SegmentFile)} {f : SegmentFile} {w w' : World}
    (member : f ∈ l.map Prod.snd) (ran : ingest_all env dongle ts l w = some w') :
    ∃ w₁ w₂, alone env (ingest_segment_file env dongle ts f.seg f.file f.body) w₁ = (.ok (), w₂) := by
  induction l generalizing w with
  | nil => cases member
  | cons arrival rest ih =>
      obtain ⟨t, g⟩ := arrival
      rw [ingest_all] at ran
      split at ran
      · rename_i w₁ ingested
        rcases List.mem_cons.1 member with rfl | later
        · exact ⟨_, _, ingested⟩
        · exact ih later ran
      · cases ran

/-- With one file of each kind the artifacts of all of them stay. -/
theorem artifacts_ingest_all {l : List (Int × SegmentFile)} {done : Set SegmentFile} {w w' : World}
    (one : ∀ f ∈ done ∪ {f | f ∈ l.map Prod.snd}, ∀ g ∈ done ∪ {f | f ∈ l.map Prod.snd},
      f.seg = g.seg → SameKind f.file g.file → f = g)
    (before : ∀ g ∈ done, HasArtifacts env dongle ts w g)
    (ran : ingest_all env dongle ts l w = some w') :
    ∀ g ∈ done ∪ {f | f ∈ l.map Prod.snd}, HasArtifacts env dongle ts w' g := by
  induction l generalizing done w with
  | nil =>
      cases ran
      rintro g (member | no)
      · exact before g member
      · cases no
  | cons arrival rest ih =>
      obtain ⟨t, f⟩ := arrival
      rw [ingest_all] at ran
      split at ran
      · rename_i w₁ ingested
        rw [← arrived_insert] at one ⊢
        refine ih one ?_ ran
        rintro g (rfl | member)
        · exact artifacts_ingest ingested
        · intro qlog
          by_cases apart : f.seg ≠ g.seg ∨ ¬ Text.contains f.file "qlog" = true
          · exact artifacts_kept ingested apart (before g member) qlog
          · rw [not_or, not_not, not_not] at apart
            have same : f = g := one f (.inl (.inl rfl)) g (.inl (.inr member)) apart.1
              ⟨"qlog", by decide, apart.2, qlog⟩
            exact artifacts_ingest (same ▸ ingested) qlog
      · cases ran

/-- What a file that has come would assign is in effect. -/
theorem settled_of_arrived {s : Prop} {f : SegmentFile} (one : OneOfEach env dongle ts base files)
    (arrived : Registers env dongle ts { arrivals env dongle ts base files with sums := s } base w)
    (member : f ∈ files) : Settled env dongle ts w f.seg f.file where
  route known := arrived.route.2 (.inr ⟨f, member, known⟩)
  segment known := (arrived.rows f.seg).2 (.inr ⟨f, member, rfl, known⟩)
  url col _ is := arrived.urls.value (urls_consistent one) (k := (f.seg, col))
    ⟨f, member, rfl, .inl is⟩

/-- So is what its qlog would assign for a stored camera: the camera was stored at first, or
has come itself. -/
theorem settled_sibling {s : Prop} {f : SegmentFile} (one : OneOfEach env dongle ts base files)
    (arrived : Registers env dongle ts { arrivals env dongle ts base files with sums := s } base w)
    (member : f ∈ files) (qlog : Text.contains f.file "qlog" = true) {cam : Text}
    (listed : cam ∈ CAMERA_FILES) (stored : Stored env dongle ts w f.seg cam) :
    Settled env dongle ts w f.seg cam := by
  have own := settled_of_arrived one arrived member
  refine ⟨fun _ => own.route (kind_of_qlog qlog), fun _ => own.segment (kind_of_qlog qlog), ?_⟩
  intro col url is
  rcases (arrived.cameras f.seg cam listed).1 stored with first | ⟨g, member', seg, rfl⟩
  · exact arrived.urls.value (urls_consistent one) (k := (f.seg, col))
      ⟨f, member, rfl, .inr ⟨qlog, cam, listed, first, is⟩⟩
  · rw [← seg] at is ⊢
    exact (settled_of_arrived one arrived member').url col url is

theorem data_of_arrived {s : Prop} {f : SegmentFile} {acc : Accum} (one : OneOfEach env dongle ts base files)
    (arrived : Registers env dongle ts { arrivals env dongle ts base files with sums := s } base w)
    (member : f ∈ files) (qlog : Text.contains f.file "qlog" = true)
    (parsed : env.parse f.file f.body = .ok acc) : (row_of w.db dongle ts f.seg).data = acc.data :=
  arrived.data.value (data_consistent one) ⟨f, member, rfl, qlog, acc, parsed, rfl⟩

theorem arrived_none (s : Prop) :
    Registers env dongle ts { arrivals env dongle ts base ∅ with sums := s } base base := by
  refine (Registers.refl base).congr ?_ ?_ ?_ ?_ False.elim ?_
  · simp [arrivals]
  · simp [arrivals]
  · simp [arrivals]
  · simp [arrivals]
  · simp [arrivals]

end Same

/-! ## Any order -/

/-- **The order of arrival does not matter.**  Two orders of ingesting the same files, one of
each kind in a segment, leave the same rows; and registering any of them again changes
nothing. -/
theorem order_of_arrival (env : Env) (dongle ts : Text) (base w w' : World)
    (l l' : List (Int × SegmentFile)) (named : Named base.db)
    (one : OneOfEach env dongle ts base {f | f ∈ l.map Prod.snd})
    (same : (l.map Prod.snd).Perm (l'.map Prod.snd))
    (ran : ingest_all env dongle ts l base = some w)
    (ran' : ingest_all env dongle ts l' base = some w') :
    SameRows w w' ∧ ∀ f ∈ l.map Prod.snd, ∀ t, ∃ again,
      alone env (register_segment_file env dongle ts f.seg f.file f.body) { w with now := t } =
        (.ok (), again) ∧ Unchanged w again := by
  have left := registers_ingest_all (arrived_none _) ran
  have right := registers_ingest_all (arrived_none _) ran'
  have files : {f | f ∈ l'.map Prod.snd} = {f | f ∈ l.map Prod.snd} := by
    ext f
    exact same.mem_iff.symm
  rw [Set.empty_union] at left right
  rw [files] at right
  constructor
  · by_cases none : l = []
    · subst none
      have none' : l' = [] := List.map_eq_nil_iff.1 (List.nil_perm.1 same)
      subst none'
      cases ran
      cases ran'
      exact ⟨fun _ => rfl, fun _ => rfl⟩
    · have some' : l' ≠ [] := by
        rintro rfl
        exact none (List.map_eq_nil_iff.1 (List.perm_nil.1 same))
      exact same_rows one (named_ingest_all named ran) (named_ingest_all named ran') left right
        (summed_ingest_all none ran) (summed_ingest_all some' ran')
  · intro f member t
    have some_file : l ≠ [] := by
      rintro rfl
      cases member
    obtain ⟨w₁, w₂, ingested⟩ := ingested_of_mem member ran
    have alone_of_kind : ∀ f ∈ ∅ ∪ {f | f ∈ l.map Prod.snd}, ∀ g ∈ ∅ ∪ {f | f ∈ l.map Prod.snd},
        f.seg = g.seg → SameKind f.file g.file → f = g := by
      rw [Set.empty_union]
      exact one.arriving
    have artifacts := artifacts_ingest_all alone_of_kind (fun _ no => no.elim) ran f (.inr member)
    refine unchanged_register_segment_file (fun qlog => ?_) (settled_of_arrived one left member)
      (fun qlog cam listed stored => settled_sibling one left member qlog listed stored)
      (summed_ingest_all some_file ran) artifacts
    obtain ⟨acc, parsed⟩ := parsed_of_ingest ingested qlog
    exact ⟨acc, parsed, data_of_arrived one left member qlog parsed⟩

/-! ## Poles -/

private def arriving : Accounts.Device := { dongle_id := "d" }

private def order_env : Env :=
  { plain_env with
    parse := fun _ _ => .ok { coords := [⟨0, 1, 2, 3, 4⟩], total_meters := 5 }
    coords_json := fun _ => [1] }

private def no_files : World := one_device arriving

private def its_camera : SegmentFile := ⟨0, "qcamera.ts", [1]⟩
private def its_qlog : SegmentFile := ⟨0, "qlog.zst", [2]⟩

/-- A camera before its qlog and after it. -/
theorem camera_and_qlog_in_any_order : ∃ w w',
    ingest_all order_env "d" "t" [(1, its_camera), (2, its_qlog)] no_files = some w ∧
    ingest_all order_env "d" "t" [(3, its_qlog), (4, its_camera)] no_files = some w' ∧
    SameRows w w' := by
  obtain ⟨w, ran⟩ := Option.isSome_iff_exists.1 (show
    (ingest_all order_env "d" "t" [(1, its_camera), (2, its_qlog)] no_files).isSome = true by
      decide)
  obtain ⟨w', ran'⟩ := Option.isSome_iff_exists.1 (show
    (ingest_all order_env "d" "t" [(3, its_qlog), (4, its_camera)] no_files).isSome = true by
      decide)
  have clean : ∀ d ∈ [arriving], '|' ∉ d.dongle_id := by decide
  have named : Named no_files.db :=
    ⟨clean, fun _ no => (List.not_mem_nil no).elim, fun _ no => (List.not_mem_nil no).elim⟩
  have arriving : ∀ f ∈ [its_camera, its_qlog], ∀ g ∈ [its_camera, its_qlog],
      f.seg = g.seg → SameKind f.file g.file → f = g := by decide
  have one : OneOfEach order_env "d" "t" no_files {f | f ∈ [its_camera, its_qlog]} :=
    ⟨arriving, fun _ _ _ _ stored => nomatch stored⟩
  exact ⟨w, w', ran, ran', (order_of_arrival order_env "d" "t" no_files w w' [(1, its_camera), (2, its_qlog)]
    [(3, its_qlog), (4, its_camera)] named one (List.Perm.swap _ _ _) ran ran').1⟩

end HomeConnect.Drives
