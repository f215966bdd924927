/-
# Media.Coverage -- which drives the sweeps take up, and what a movie is put together from

The sweeps build a camera's movie, and transcribe a drive, when every segment row of the
route has the camera, so as to leave out drives with missing segments.  A row that is not
there is not counted, though: rows appear one by one as files arrive, and a drive of
which segment 1 has been registered and segment 0 has not is taken up
(`drive_without_its_start`).  `taken_up_whole_iff` says exactly which sets of rows are
taken up only when they are a whole drive, from segment 0 on without a gap.

A movie's video and audio are picked from the segments separately, each by its own column
and by whether its own blobs have any content.  They are the same segments exactly when no
segment has one without the other (`same_segments_iff`).
-/
import HomeConnect.Drives.Alone
import HomeConnect.Drives.Named
import HomeConnect.Drives.Poles
import HomeConnect.Media.Footprint

namespace HomeConnect.Media

open HomeConnect.Theory HomeConnect.Storage HomeConnect.Drives

set_option autoImplicit false

/-! ## Coverage -/

/-- There are segment rows of the route, and all have the camera. -/
def Covered (segs : List Segment) (name : Text) (col : UrlCol) : Prop :=
  (∃ s ∈ segs, s.canonical_route_name = name) ∧
    ∀ s ∈ segs, s.canonical_route_name = name → s.url col ≠ []

theorem covered_iff (segs : List Segment) (name : Text) (col : UrlCol) :
    (camera_segments segs name col ≠ 0 ∧ camera_segments segs name col = total_segments segs name) ↔
      Covered segs name col := by
  have split : (segs.filter fun s => s.canonical_route_name = name && decide (s.url col ≠ [])) =
      (segs.filter fun s => decide (s.canonical_route_name = name)).filter
        fun s => decide (s.url col ≠ []) := by
    rw [List.filter_filter]
    exact List.filter_congr fun s _ => Bool.and_comm _ _
  unfold camera_segments total_segments Covered
  rw [split, Int.natCast_inj, Int.natCast_ne_zero, List.length_filter_eq_length_iff]
  constructor
  · rintro ⟨some_left, all⟩
    have some_row : (segs.filter fun s => decide (s.canonical_route_name = name)) ≠ [] := by
      intro none
      rw [none] at some_left
      exact some_left rfl
    obtain ⟨s, member⟩ := List.exists_mem_of_ne_nil _ some_row
    rw [List.mem_filter, decide_eq_true_eq] at member
    refine ⟨⟨s, member⟩, fun s member of_route => ?_⟩
    have has := all s (List.mem_filter.2 ⟨member, decide_eq_true of_route⟩)
    exact of_decide_eq_true has
  · rintro ⟨⟨s, member, of_route⟩, all⟩
    have each : ∀ s ∈ segs.filter (fun s => decide (s.canonical_route_name = name)),
        decide (s.url col ≠ []) = true := by
      intro s member
      rw [List.mem_filter, decide_eq_true_eq] at member
      exact decide_eq_true (all s member.1 member.2)
    refine ⟨?_, each⟩
    rw [List.filter_eq_self.2 each]
    have listed : s ∈ segs.filter fun s => decide (s.canonical_route_name = name) :=
      List.mem_filter.2 ⟨member, decide_eq_true of_route⟩
    have := List.length_pos_of_mem listed
    omega

/-- A movie that is disabled, or that was built or failed at this many segments and whose
blob, if it was built, is there. -/
def MovieAttempted (env : Env) (built : List Movie) (segs : List Segment) (w : World) (m : MovieTodo) :
    Prop :=
  ∃ row, built.find? (fun row => decide (row.id = (m.fullname, m.cam))) = some row ∧
    (row.disabled = 1 ∨ row.seg_count = total_segments segs m.fullname ∧
      (row.bytes = 0 ∨ (w.blobs.read (env.path (.movie m.dongle m.ts m.cam))).isSome = true))

def SubsAttempted (env : Env) (built : List Subs) (segs : List Segment) (w : World)
    (name dongle ts : Text) : Prop :=
  ∃ row, built.find? (fun row => decide (row.fullname = name)) = some row ∧
    (row.disabled = 1 ∨ row.seg_count = total_segments segs name ∧
      (row.bytes = 0 ∨ (w.blobs.read (env.path (.subs dongle ts))).isSome = true))

variable (env : Env)

/-- The sweep's first pass takes up a movie when its camera covers the route and it was
not attempted at this coverage. -/
theorem alone_needs_movie (built : List Movie) (segs : List Segment) (m : MovieTodo) (w : World) :
    ∃ needed, alone env (needs_movie env built segs m) w = (.ok needed, w) ∧
      (needed = true ↔ Covered segs m.fullname m.col ∧ ¬ MovieAttempted env built segs w m) := by
  unfold needs_movie MovieAttempted
  rw [← covered_iff]
  dsimp only
  by_cases skip : camera_segments segs m.fullname m.col = 0 ∨
      camera_segments segs m.fullname m.col ≠ total_segments segs m.fullname
  · rw [if_pos skip]
    refine ⟨false, rfl, ?_⟩
    rcases skip with none | some_missing
    · simp [none]
    · simp [some_missing]
  rw [if_neg skip]
  rw [not_or, not_not] at skip
  rw [and_iff_right skip]
  cases found : built.find? fun row => decide (row.id = (m.fullname, m.cam)) with
  | none => exact ⟨true, rfl, by simp⟩
  | some row =>
      dsimp only
      by_cases disabled : row.disabled = 1
      · rw [if_pos disabled]
        exact ⟨false, rfl, by simp [disabled]⟩
      rw [if_neg disabled]
      by_cases current : row.seg_count = total_segments segs m.fullname
      · rw [if_pos current]
        by_cases failed : row.bytes = 0
        · rw [if_pos failed]
          exact ⟨false, rfl, by simp [current, failed]⟩
        · rw [if_neg failed, alone_bind_ok (alone_blob_exists _ w)]
          exact ⟨_, rfl, by simp [disabled, current, failed]⟩
      · rw [if_neg current]
        exact ⟨true, rfl, by simp [disabled, current]⟩

/-- The same for a transcript, whose camera is the one that carries the audio. -/
theorem alone_needs_subs (built : List Subs) (segs : List Segment) (name dongle ts : Text) (w : World) :
    ∃ needed, alone env (needs_subs env built segs name dongle ts) w = (.ok needed, w) ∧
      (needed = true ↔ Covered segs name .qcam ∧ ¬ SubsAttempted env built segs w name dongle ts) := by
  unfold needs_subs SubsAttempted
  rw [← covered_iff]
  dsimp only
  by_cases skip : total_segments segs name = 0 ∨
      camera_segments segs name .qcam ≠ total_segments segs name
  · rw [if_pos skip]
    refine ⟨false, rfl, ?_⟩
    rcases skip with none | some_missing
    · rw [none]
      simp
    · simp [some_missing]
  rw [if_neg skip]
  rw [not_or, not_not] at skip
  have some_row : camera_segments segs name .qcam ≠ 0 := by rw [skip.2]; exact skip.1
  rw [and_iff_right ⟨some_row, skip.2⟩]
  cases found : built.find? fun row => decide (row.fullname = name) with
  | none => exact ⟨true, rfl, by simp⟩
  | some row =>
      dsimp only
      by_cases disabled : row.disabled = 1
      · rw [if_pos disabled]
        exact ⟨false, rfl, by simp [disabled]⟩
      rw [if_neg disabled]
      by_cases current : row.seg_count = total_segments segs name
      · rw [if_pos current]
        by_cases failed : row.bytes = 0
        · rw [if_pos failed]
          exact ⟨false, rfl, by simp [current, failed]⟩
        · rw [if_neg failed, alone_bind_ok (alone_blob_exists _ w)]
          exact ⟨_, rfl, by simp [disabled, current, failed]⟩
      · rw [if_neg current]
        exact ⟨true, rfl, by simp [disabled, current]⟩

/-! ## The lists of the sweeps -/

/-- The routes a sweep reads: name and device. -/
def routes_of (w : World) : List (Text × Text) :=
  w.db.routes.rows.map fun r => (r.fullname, r.device_dongle_id)

/-- The part of the movie sweep before it builds. -/
def movie_first_pass : Request Op (List MovieTodo) := do
  let routes ← select routes_of
  let built ← Request.unwrap_or (select fun w => w.db.movies.rows) []
  let segs ← Request.unwrap_or (select fun w => w.db.segments.rows) []
  gather_movies env built segs (movie_candidates routes)

theorem alone_gather (built : List Movie) (segs : List Segment) (candidates : List MovieTodo) (w : World) :
    ∃ todo, alone env (gather_movies env built segs candidates) w = (.ok todo, w) ∧
      ∀ m, m ∈ todo ↔ m ∈ candidates ∧ Covered segs m.fullname m.col ∧
        ¬ MovieAttempted env built segs w m := by
  induction candidates with
  | nil => exact ⟨[], rfl, fun m => by simp⟩
  | cons c rest ih =>
      obtain ⟨more, ran, is_more⟩ := ih
      obtain ⟨needed, asked, is_needed⟩ := alone_needs_movie env built segs c w
      refine ⟨if needed then c :: more else more, ?_, fun m => ?_⟩
      · rw [gather_movies, alone_bind_ok asked, alone_bind_ok ran]
        rfl
      · by_cases needs : needed = true
        · rw [if_pos needs, List.mem_cons, is_more, List.mem_cons]
          constructor
          · rintro (rfl | ⟨listed, due⟩)
            · exact ⟨.inl rfl, is_needed.1 needs⟩
            · exact ⟨.inr listed, due⟩
          · rintro ⟨rfl | listed, due⟩
            · exact .inl rfl
            · exact .inr ⟨listed, due⟩
        · rw [if_neg needs, is_more, List.mem_cons]
          constructor
          · rintro ⟨listed, due⟩
            exact ⟨.inr listed, due⟩
          · rintro ⟨rfl | listed, due⟩
            · exact absurd (is_needed.2 due) needs
            · exact ⟨listed, due⟩

/-- The movies a sweep takes up, when nothing else runs. -/
def movie_todo (w : World) : List MovieTodo :=
  ((alone env (movie_first_pass env) w).1.toOption).getD []

/-- The first pass changes nothing; what it gathers is the due part of the candidates. -/
theorem first_pass_ran (w : World) :
    ∃ todo, alone env (movie_first_pass env) w = (.ok todo, w) ∧
      ∀ m, m ∈ todo ↔ m ∈ movie_candidates (routes_of w) ∧
        Covered w.db.segments.rows m.fullname m.col ∧
        ¬ MovieAttempted env w.db.movies.rows w.db.segments.rows w m := by
  rw [movie_first_pass, alone_bind_ok (alone_select _ w), alone_bind_ok
    (alone_unwrap_or [] (alone_select _ w)), alone_bind_ok (alone_unwrap_or [] (alone_select _ w))]
  exact alone_gather env w.db.movies.rows w.db.segments.rows (movie_candidates (routes_of w)) w

theorem mem_movie_todo {w : World} {m : MovieTodo} :
    m ∈ movie_todo env w ↔ m ∈ movie_candidates (routes_of w) ∧
      Covered w.db.segments.rows m.fullname m.col ∧
      ¬ MovieAttempted env w.db.movies.rows w.db.segments.rows w m := by
  obtain ⟨todo, ran, is⟩ := first_pass_ran env w
  unfold movie_todo
  rw [ran]
  exact is m

/-- A drive the subtitle sweep comes by, and takes up. -/
def Transcribes (w : World) (name dongle ts : Text) : Prop :=
  (name, dongle) ∈ routes_of w ∧ (Text.split_once '|' name).map Prod.snd = some ts ∧
    (alone env (needs_subs env w.db.subs.rows w.db.segments.rows name dongle ts) w).1 = .ok true

theorem transcribes_iff {w : World} {name dongle ts : Text} :
    Transcribes env w name dongle ts ↔
      (name, dongle) ∈ routes_of w ∧ (Text.split_once '|' name).map Prod.snd = some ts ∧
        Covered w.db.segments.rows name .qcam ∧
        ¬ SubsAttempted env w.db.subs.rows w.db.segments.rows w name dongle ts := by
  obtain ⟨needed, asked, is⟩ :=
    alone_needs_subs env w.db.subs.rows w.db.segments.rows name dongle ts w
  unfold Transcribes
  rw [asked, ← is]
  refine and_congr_right fun _ => and_congr_right fun _ => ?_
  exact ⟨fun same => Except.ok.inj same, fun same => by rw [same]⟩

/-! ## Whole drives -/

/-- The route's segments are 0, 1, ..., m. -/
def Consecutive (w : World) (name : Text) : Prop :=
  ∃ m : Nat, (w.db.route_segments name).map Segment.number = (List.range (m + 1)).map Int.ofNat

/-- ... and each has the camera. -/
def Whole (w : World) (name : Text) (col : UrlCol) : Prop :=
  Consecutive w name ∧ ∀ s ∈ w.db.route_segments name, s.url col ≠ []

theorem mem_route_segments {db : Storage.Db} {name : Text} {s : Segment} :
    s ∈ db.route_segments name ↔ s ∈ db.segments.rows ∧ s.canonical_route_name = name := by
  simp [Db.route_segments, List.mem_insertionSort]

theorem whole_iff {w : World} {name : Text} {col : UrlCol} (covered : Covered w.db.segments.rows name col) :
    Whole w name col ↔ Consecutive w name := by
  refine ⟨And.left, fun consecutive => ⟨consecutive, fun s member => ?_⟩⟩
  obtain ⟨row, of_route⟩ := mem_route_segments.1 member
  exact covered.2 s row of_route

/-! ## What a build is made of -/

/-- Is there a blob with content? -/
def holds (w : World) (name : BlobName) : Bool :=
  (w.blobs.read (env.path name)).any fun b => decide (b ≠ [])

/-- The segments whose video is put into the movie. -/
def video_numbers (dongle ts cam : Text) (w : World) : List Int :=
  match source_file cam, cam_col cam with
  | some src, some col =>
      (numbers_with col (fullname dongle ts) w).filter fun n => holds env w (.segment dongle ts n src)
  | _, _ => []

/-- The segments whose audio is put into the movie. -/
def audio_numbers (dongle ts : Text) (w : World) : List Int :=
  (numbers_with .qcam (fullname dongle ts) w).filter fun n => holds env w (.segment dongle ts n "qcamera.ts")

/-- Where in a movie put together from these segments each one's footage starts, when each
is a full 60 s long. -/
def footage_starts (numbers : List Int) : List (Int × Int) :=
  numbers.zipIdx.map fun p => (p.1, SEGMENT_SECS * p.2)

theorem footage_of_consecutive (m : Nat) :
    ∀ p ∈ footage_starts ((List.range m).map Int.ofNat), p.2 = SEGMENT_SECS * p.1 := by
  intro p member
  obtain ⟨⟨n, k⟩, listed, rfl⟩ := List.mem_map.1 member
  have at_k := List.mem_zipIdx_iff_getElem?.1 listed
  rw [List.getElem?_map] at at_k
  obtain ⟨j, at_j, rfl⟩ := Option.map_eq_some_iff.1 at_k
  obtain ⟨_, same⟩ := List.getElem?_eq_some_iff.1 at_j
  rw [List.getElem_range] at same
  have number : k = j := same
  show SEGMENT_SECS * (k : Int) = SEGMENT_SECS * (j : Int)
  rw [number]

/-- A movie that may be built is of a route, and of a camera with a column. -/
theorem candidate_cases {w : World} (named : Named w.db) {m : MovieTodo}
    (listed : m ∈ movie_candidates (routes_of w)) :
    m.fullname = fullname m.dongle m.ts ∧ cam_col m.cam = some m.col := by
  obtain ⟨⟨name, dongle⟩, route, here⟩ := List.mem_flatMap.1 listed
  obtain ⟨r, member, is⟩ := List.mem_map.1 route
  cases is
  obtain ⟨clean, ts, is⟩ := named.routes r member
  dsimp only at here
  rw [is, fullname_split clean ts] at here
  obtain ⟨cam, _, made⟩ := List.mem_filterMap.1 here
  obtain ⟨col, column, rfl⟩ := Option.map_eq_some_iff.1 made
  exact ⟨rfl, column⟩

variable {env}

/-- Of a route that its camera covers, the video is that of the rows whose blobs have content. -/
theorem video_of_covered {w : World} {dongle ts cam src : Text} {col : UrlCol}
    (source : source_file cam = some src) (column : cam_col cam = some col)
    (covered : Covered w.db.segments.rows (fullname dongle ts) col) :
    video_numbers env dongle ts cam w =
      ((w.db.route_segments (fullname dongle ts)).map Segment.number).filter
        fun n => holds env w (.segment dongle ts n src) := by
  unfold video_numbers numbers_with
  rw [source, column]
  dsimp only
  have all : (w.db.route_segments (fullname dongle ts)).filter (fun s => decide (s.url col ≠ [])) =
      w.db.route_segments (fullname dongle ts) := by
    rw [List.filter_eq_self]
    intro s member
    obtain ⟨row, of_route⟩ := mem_route_segments.1 member
    exact decide_eq_true (covered.2 s row of_route)
  rw [all]

/-- In a movie of a whole drive whose blobs all have content, each segment's footage starts
at its own minute. -/
theorem footage_of_whole {w : World} {dongle ts cam src : Text} {col : UrlCol}
    (source : source_file cam = some src) (column : cam_col cam = some col)
    (covered : Covered w.db.segments.rows (fullname dongle ts) col)
    (consecutive : Consecutive w (fullname dongle ts))
    (full : ∀ s ∈ w.db.route_segments (fullname dongle ts),
      holds env w (.segment dongle ts s.number src) = true) :
    ∀ p ∈ footage_starts (video_numbers env dongle ts cam w), p.2 = SEGMENT_SECS * p.1 := by
  have all : ((w.db.route_segments (fullname dongle ts)).map Segment.number).filter
      (fun n => holds env w (.segment dongle ts n src)) =
      (w.db.route_segments (fullname dongle ts)).map Segment.number := by
    rw [List.filter_eq_self]
    intro n member
    obtain ⟨s, listed, rfl⟩ := List.mem_map.1 member
    exact full s listed
  obtain ⟨m, numbers⟩ := consecutive
  rw [video_of_covered source column covered, all, numbers]
  exact footage_of_consecutive (m + 1)

/-- **Taken up whole.**  The sweeps take up only whole drives, and put each minute of
footage in its place, exactly when every drive whose rows all have the camera, and that
was not attempted at this coverage, has its segments numbered 0, 1, ... without a gap. -/
theorem taken_up_whole_iff (env : Env) (w : World) (named : Named w.db) :
    ((∀ m ∈ movie_todo env w, Whole w m.fullname m.col ∧
        ∀ src, source_file m.cam = some src →
          (∀ s ∈ w.db.route_segments m.fullname,
            holds env w (.segment m.dongle m.ts s.number src) = true) →
          ∀ p ∈ footage_starts (video_numbers env m.dongle m.ts m.cam w), p.2 = SEGMENT_SECS * p.1) ∧
      ∀ name dongle ts, Transcribes env w name dongle ts → Whole w name .qcam) ↔
    ((∀ m ∈ movie_candidates (routes_of w), Covered w.db.segments.rows m.fullname m.col →
        ¬ MovieAttempted env w.db.movies.rows w.db.segments.rows w m → Consecutive w m.fullname) ∧
      ∀ name dongle ts, (name, dongle) ∈ routes_of w →
        (Text.split_once '|' name).map Prod.snd = some ts → Covered w.db.segments.rows name .qcam →
        ¬ SubsAttempted env w.db.subs.rows w.db.segments.rows w name dongle ts → Consecutive w name) := by
  constructor
  · rintro ⟨movies, subs⟩
    refine ⟨fun m listed covered fresh => ?_, fun name dongle ts listed split covered fresh => ?_⟩
    · exact (movies m ((mem_movie_todo env).2 ⟨listed, covered, fresh⟩)).1.1
    · exact (subs name dongle ts ((transcribes_iff env).2 ⟨listed, split, covered, fresh⟩)).1
  · rintro ⟨movies, subs⟩
    constructor
    · intro m taken
      obtain ⟨listed, covered, fresh⟩ := (mem_movie_todo env).1 taken
      obtain ⟨is, column⟩ := candidate_cases named listed
      have consecutive := movies m listed covered fresh
      refine ⟨(whole_iff covered).2 consecutive, fun src source full => ?_⟩
      rw [is] at covered consecutive full
      exact footage_of_whole source column covered consecutive full
    · intro name dongle ts taken
      obtain ⟨listed, split, covered, fresh⟩ := (transcribes_iff env).1 taken
      exact (whole_iff covered).2 (subs name dongle ts listed split covered fresh)

/-- A drive's row of a segment with its qcamera. -/
private def qcam_row (n : Int) (qcam fcam : Text) : Segment :=
  { canonical_name := canonical "d" "t" n
    canonical_route_name := "d|t"
    number := n
    qcam_url := qcam
    fcam_url := fcam }

/-- One drive with these rows and blobs. -/
private def drive_of (segments : Table Segment Segment.canonical_name) (blobs : Dir BlobPath) : World :=
  { one_drive segments with blobs }

private theorem drive_named (segments : Table Segment Segment.canonical_name) (blobs : Dir BlobPath)
    (rows : ∀ s ∈ segments.rows, s.canonical_name = canonical "d" "t" s.number ∧
      s.canonical_route_name = fullname "d" "t") : Named (drive_of segments blobs).db :=
  named_one_drive _ rows

/-- Only segment 1 is registered. -/
private def late_start : World := drive_of (.single (qcam_row 1 "u" "")) Table.empty

/-- Only segment 0 is registered. -/
private def first_minute : World := drive_of (.single (qcam_row 0 "u" "")) Table.empty

/-- Segment 1 is registered and segment 0 is not: the drive is taken up all the same. -/
theorem drive_without_its_start : ¬ ∀ (env : Env) (w : World), Named w.db →
    ((∀ m ∈ movie_todo env w, Whole w m.fullname m.col ∧
        ∀ src, source_file m.cam = some src →
          (∀ s ∈ w.db.route_segments m.fullname,
            holds env w (.segment m.dongle m.ts s.number src) = true) →
          ∀ p ∈ footage_starts (video_numbers env m.dongle m.ts m.cam w), p.2 = SEGMENT_SECS * p.1) ∧
      ∀ name dongle ts, Transcribes env w name dongle ts → Whole w name .qcam) := by
  intro claim
  have named : Named late_start.db := drive_named _ _ (by decide)
  have taken : ({ fullname := "d|t", dongle := "d", ts := "t", cam := "qcamera", col := .qcam } : MovieTodo) ∈
      movie_todo plain_env late_start := by
    decide
  obtain ⟨⟨⟨m, consecutive⟩, _⟩, _⟩ := (claim plain_env _ named).1 _ taken
  have numbers : (late_start.db.route_segments "d|t").map Segment.number = [1] := by decide
  rw [numbers, List.range_succ_eq_map] at consecutive
  cases consecutive

/-- A drive of one segment, number 0: its qcamera is taken up. -/
theorem taken_up_whole_one_segment :
    (movie_todo plain_env first_minute).length = 1 ∧
      ∀ m ∈ movie_todo plain_env first_minute, Whole first_minute m.fullname m.col := by
  have named : Named first_minute.db := drive_named _ _ (by decide)
  have only : ∀ m ∈ movie_candidates (routes_of first_minute), m.fullname = "d|t" := by
    decide
  have consecutive : Consecutive first_minute "d|t" := ⟨0, by decide⟩
  have whole := (taken_up_whole_iff plain_env _ named).2
    ⟨fun m listed _ _ => by rw [only m listed]; exact consecutive,
      fun name dongle ts listed _ _ _ => by
        cases List.mem_singleton.1 listed
        exact consecutive⟩
  exact ⟨by decide, fun m taken => (whole.1 m taken).1⟩

/-! ## The run of a build -/

def encode_inputs {β : Type} : Op β → Option (List BlobName)
  | .encode inputs => some inputs
  | _ => none

/-- The inputs of the first encoder run of a function that runs alone. -/
def first_encode {α : Type} (env : Env) : Prog Op α → World → Option (List BlobName)
  | .ret _, _ => none
  | .op f k, w =>
      match encode_inputs f with
      | some inputs => some inputs
      | none => first_encode env (k (f.exec env .ok w).1) (f.exec env .ok w).2

/-- A function that runs no encoder. -/
def Silent {α : Type} (p : Request Op α) : Prop := p.run.Uses fun f => encode_inputs f = none

theorem first_encode_silent {α β : Type} {p : Request Op α} {g : α → Request Op β} {w w' : World} {a : α}
    (silent : Silent p) (ran : alone env p w = (.ok a, w')) :
    first_encode env (p >>= g).run w = first_encode env (g a).run w' := by
  rw [Request.run_bind]
  unfold alone at ran
  unfold Silent at silent
  generalize p.run = q at silent ran
  induction q generalizing w with
  | ret r =>
      cases ran
      rfl
  | op f k ih =>
      rw [Prog.op_bind, first_encode, silent.1]
      exact ih _ (silent.2 _) ran

theorem silent_select {α : Type} (q : World → α) : Silent (select q) := Request.Uses.perform rfl

theorem silent_usable (dongle ts file : Text) (segs : List Int) : Silent (usable env dongle ts file segs) := by
  induction segs with
  | nil => trivial
  | cons n rest ih =>
      refine Request.Uses.bind (Request.Uses.unwrap_or (silent_select _) _) fun _ => ?_
      exact Request.Uses.bind ih fun _ => trivial

theorem alone_usable (dongle ts file : Text) (segs : List Int) (w : World) :
    alone env (usable env dongle ts file segs) w =
      (.ok ((segs.filter fun n => holds env w (.segment dongle ts n file)).map
        fun n => .segment dongle ts n file), w) := by
  induction segs with
  | nil => rfl
  | cons n rest ih =>
      have looked : alone env (nonempty env (.segment dongle ts n file)) w =
          (.ok (holds env w (.segment dongle ts n file)), w) :=
        alone_unwrap_or false (alone_select _ w)
      rw [usable, alone_bind_ok looked, alone_bind_ok ih]
      cases found : holds env w (.segment dongle ts n file) with
      | true => simp [found]
      | false => simp [found]

/-- A build's encoder is given the video of the one list and the audio of the other; without
any video it is not run. -/
theorem first_encode_build {w : World} {dongle ts cam src : Text} {col : UrlCol}
    (source : source_file cam = some src) (column : cam_col cam = some col) :
    first_encode env (build_movie env dongle ts cam).run w =
      if video_numbers env dongle ts cam w = [] then none
      else some ((video_numbers env dongle ts cam w).map (.segment dongle ts · src) ++
        (audio_numbers env dongle ts w).map (.segment dongle ts · "qcamera.ts")) := by
  have video : video_numbers env dongle ts cam w = (numbers_with col (fullname dongle ts) w).filter
      fun n => holds env w (.segment dongle ts n src) := by
    unfold video_numbers
    rw [source, column]
  have with_cam : segments_with_cam (fullname dongle ts) cam = select (numbers_with col (fullname dongle ts)) := by
    rw [segments_with_cam, column]
  have with_qcam : segments_with_cam (fullname dongle ts) "qcamera" =
      select (numbers_with .qcam (fullname dongle ts)) := rfl
  rw [build_movie, source]
  dsimp only
  rw [with_cam, first_encode_silent (silent_select _) (alone_select _ w), Request.err_if]
  by_cases none : numbers_with col (fullname dongle ts) w = []
  · rw [if_pos none, Request.throw_bind, video, none]
    rfl
  rw [if_neg none, first_encode_silent (p := pure ()) trivial (alone_pure () w),
    first_encode_silent (silent_usable _ _ _ _) (alone_usable _ _ _ _ w), ← video]
  by_cases unusable : video_numbers env dongle ts cam w = []
  · rw [unusable, if_pos rfl]
    rfl
  · rw [if_neg unusable, if_neg fun empty => unusable (List.map_eq_nil_iff.1 empty), encode_and_publish,
      with_qcam, first_encode_silent (Request.Uses.unwrap_or (silent_select _) _)
        (alone_unwrap_or [] (alone_select _ w)),
      first_encode_silent (silent_usable _ _ _ _) (alone_usable _ _ _ _ w)]
    rfl

/-! ## Audio and video -/

/-- Two rows of a route with one number are one row. -/
theorem row_of_number {db : Storage.Db} (named : Named db) {name : Text} {s t : Segment}
    (hs : s ∈ db.route_segments name) (ht : t ∈ db.route_segments name) (same : s.number = t.number) :
    s = t := by
  obtain ⟨s_row, s_route⟩ := mem_route_segments.1 hs
  obtain ⟨t_row, t_route⟩ := mem_route_segments.1 ht
  obtain ⟨d, ts, _, s_name, s_of⟩ := named.segments s s_row
  obtain ⟨d', ts', _, t_name, t_of⟩ := named.segments t t_row
  have one_route : fullname d ts = fullname d' ts' := by rw [← s_of, ← t_of, s_route, t_route]
  have one_name : s.canonical_name = t.canonical_name := by
    rw [s_name, t_name, canonical_eq, canonical_eq, one_route, same]
  exact Table.eq_of_key s_row t_row one_name

theorem mem_numbers {w : World} {name : Text} {P : Int → Bool} {n : Int} :
    n ∈ ((w.db.route_segments name).map Segment.number).filter P ↔
      ∃ s ∈ w.db.route_segments name, s.number = n ∧ P n = true := by
  rw [List.mem_filter, List.mem_map]
  constructor
  · rintro ⟨⟨s, listed, number⟩, holds⟩
    exact ⟨s, listed, number, holds⟩
  · rintro ⟨s, listed, number, holds⟩
    exact ⟨⟨s, listed, number⟩, holds⟩

/-- **The same segments.**  A build's encoder is given the blobs of `video_numbers` and of
`audio_numbers`.  For a camera that covers the route these are the same segments, if there
are any of both, exactly when every segment whose video has content has audio with content
and the other way round. -/
theorem same_segments_iff (env : Env) (w : World) (dongle ts cam src : Text) (col : UrlCol)
    (source : source_file cam = some src) (column : cam_col cam = some col) (named : Named w.db)
    (covered : Covered w.db.segments.rows (fullname dongle ts) col) :
    first_encode env (build_movie env dongle ts cam).run w =
        (if video_numbers env dongle ts cam w = [] then none
        else some ((video_numbers env dongle ts cam w).map (.segment dongle ts · src) ++
          (audio_numbers env dongle ts w).map (.segment dongle ts · "qcamera.ts"))) ∧
      ((video_numbers env dongle ts cam w ≠ [] → audio_numbers env dongle ts w ≠ [] →
          audio_numbers env dongle ts w = video_numbers env dongle ts cam w) ↔
        (∀ s ∈ w.db.route_segments (fullname dongle ts),
            holds env w (.segment dongle ts s.number src) = false) ∨
          (∀ s ∈ w.db.route_segments (fullname dongle ts), s.qcam_url ≠ [] →
            holds env w (.segment dongle ts s.number "qcamera.ts") = false) ∨
          ∀ s ∈ w.db.route_segments (fullname dongle ts),
            (holds env w (.segment dongle ts s.number src) = true ↔
              s.qcam_url ≠ [] ∧ holds env w (.segment dongle ts s.number "qcamera.ts") = true)) := by
  refine ⟨first_encode_build source column, ?_⟩
  have video := @video_of_covered env _ _ _ _ _ _ source column covered
  have in_video : ∀ s ∈ w.db.route_segments (fullname dongle ts),
      (s.number ∈ video_numbers env dongle ts cam w ↔
        holds env w (.segment dongle ts s.number src) = true) := by
    intro s listed
    rw [video, mem_numbers]
    exact ⟨fun ⟨_, _, _, holds⟩ => holds, fun holds => ⟨s, listed, rfl, holds⟩⟩
  have in_audio : ∀ s ∈ w.db.route_segments (fullname dongle ts),
      (s.number ∈ audio_numbers env dongle ts w ↔
        s.qcam_url ≠ [] ∧ holds env w (.segment dongle ts s.number "qcamera.ts") = true) := by
    intro s listed
    unfold audio_numbers numbers_with
    rw [List.mem_filter, List.mem_map]
    refine and_congr_left fun _ => ⟨?_, fun has => ?_⟩
    · rintro ⟨t, member, number⟩
      rw [List.mem_filter] at member
      rw [row_of_number named listed member.1 number.symm]
      exact of_decide_eq_true member.2
    · exact ⟨s, List.mem_filter.2 ⟨listed, decide_eq_true has⟩, rfl⟩
  have of_audio : ∀ n ∈ audio_numbers env dongle ts w,
      ∃ s ∈ w.db.route_segments (fullname dongle ts), s.number = n := by
    intro n member
    unfold audio_numbers numbers_with at member
    obtain ⟨s, listed, number⟩ := List.mem_map.1 (List.mem_filter.1 member).1
    exact ⟨s, (List.mem_filter.1 listed).1, number⟩
  have of_video : ∀ n ∈ video_numbers env dongle ts cam w,
      ∃ s ∈ w.db.route_segments (fullname dongle ts), s.number = n := by
    intro n member
    rw [video, mem_numbers] at member
    obtain ⟨s, listed, number, _⟩ := member
    exact ⟨s, listed, number⟩
  constructor
  · intro same
    by_cases no_video : video_numbers env dongle ts cam w = []
    · left
      intro s listed
      rw [Bool.eq_false_iff]
      intro full
      have member := (in_video s listed).2 full
      rw [no_video] at member
      exact List.not_mem_nil member
    by_cases no_audio : audio_numbers env dongle ts w = []
    · right; left
      intro s listed has
      rw [Bool.eq_false_iff]
      intro full
      have member := (in_audio s listed).2 ⟨has, full⟩
      rw [no_audio] at member
      exact List.not_mem_nil member
    · right; right
      intro s listed
      rw [← in_video s listed, ← in_audio s listed, same no_video no_audio]
  · intro when some_video some_audio
    rcases when with no_video | no_audio | each
    · obtain ⟨n, member⟩ := List.exists_mem_of_ne_nil _ some_video
      obtain ⟨s, listed, rfl⟩ := of_video n member
      have full := (in_video s listed).1 member
      rw [no_video s listed] at full
      cases full
    · obtain ⟨n, member⟩ := List.exists_mem_of_ne_nil _ some_audio
      obtain ⟨s, listed, rfl⟩ := of_audio n member
      obtain ⟨has, full⟩ := (in_audio s listed).1 member
      rw [no_audio s listed has] at full
      cases full
    · -- both are the rows, in order, that a condition picks
      have picked : audio_numbers env dongle ts w =
          ((w.db.route_segments (fullname dongle ts)).filter fun s =>
            decide (s.qcam_url ≠ []) && holds env w (.segment dongle ts s.number "qcamera.ts")).map
              Segment.number := by
        unfold audio_numbers numbers_with
        rw [List.filter_map, List.filter_filter]
        congr 1
        exact List.filter_congr fun s _ => Bool.and_comm _ _
      rw [picked, video, List.filter_map]
      congr 1
      refine List.filter_congr fun s listed => ?_
      have here := each s listed
      rw [Bool.eq_iff_iff, Bool.and_eq_true, decide_eq_true_eq]
      exact here.symm

private def with_blobs (names : List BlobName) : Dir BlobPath :=
  names.foldl (fun d name => d.write (plain_env.path name) [1]) Table.empty

/-- Two segments with an fcamera, and the second one's audio. -/
private def half_heard : World :=
  drive_of ⟨[qcam_row 0 "" "u", qcam_row 1 "u" "u"], by decide⟩
    (with_blobs [.segment "d" "t" 0 "fcamera.hevc", .segment "d" "t" 1 "fcamera.hevc",
      .segment "d" "t" 1 "qcamera.ts"])

/-- Two segments with an fcamera, and the audio of both. -/
private def all_heard : World :=
  drive_of ⟨[qcam_row 0 "u" "u", qcam_row 1 "u" "u"], by decide⟩
    (with_blobs [.segment "d" "t" 0 "fcamera.hevc", .segment "d" "t" 1 "fcamera.hevc",
      .segment "d" "t" 0 "qcamera.ts", .segment "d" "t" 1 "qcamera.ts"])

/-- Both segments have an fcamera, and only segment 1 has audio: it is heard over the
first minute. -/
theorem audio_a_minute_early : ¬ ∀ (env : Env) (w : World) (dongle ts cam src : Text) (col : UrlCol),
    source_file cam = some src → cam_col cam = some col → Named w.db →
    Covered w.db.segments.rows (fullname dongle ts) col →
    (video_numbers env dongle ts cam w ≠ [] → audio_numbers env dongle ts w ≠ [] →
      audio_numbers env dongle ts w = video_numbers env dongle ts cam w) := by
  intro claim
  have same := claim plain_env half_heard "d" "t" "fcamera" "fcamera.hevc" .fcam rfl rfl
    (drive_named _ _ (by decide)) ⟨by decide, by decide⟩
  have video : video_numbers plain_env "d" "t" "fcamera" half_heard = [0, 1] := by decide
  have audio : audio_numbers plain_env "d" "t" half_heard = [1] := by decide
  rw [video, audio] at same
  exact absurd (same (by decide) (by decide)) (by decide)

/-- The same drive with the audio of both segments. -/
theorem same_segments_two :
    audio_numbers plain_env "d" "t" all_heard =
      video_numbers plain_env "d" "t" "fcamera" all_heard := by
  have each := (same_segments_iff plain_env all_heard "d" "t" "fcamera" "fcamera.hevc" .fcam rfl rfl (drive_named _ _ (by decide))
    ⟨by decide, by decide⟩).2.2 (.inr (.inr (by decide)))
  exact each (by decide) (by decide)

end HomeConnect.Media
