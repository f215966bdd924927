/-
# Media.Playlist -- the HLS timeline of a camera

`camera_m3u8` lists a camera's segments in order, each with a duration, so a segment stands
in the playlist where the durations before it end.  The transcoder stamps each segment's
timestamps with 60 s times its number.  The two agree exactly when the first listed segment
is stamped with zero and every other one where the one before it ends
(`timeline_matches_iff`): with a gap in the numbers, or a first segment that is missing,
they do not.
-/
import HomeConnect.Media.Access
import HomeConnect.Theory.Windows

namespace HomeConnect.Media

open HomeConnect.Theory HomeConnect.Storage HomeConnect.Drives

set_option autoImplicit false

/-! ## transcode -/

/-- The `-output_ts_offset` of a segment's transcode and of its audio, in seconds. -/
def ts_offset (seg : Int) : Int := (max seg 0 * SEGMENT_SECS).bmod (2 ^ 64)

/-! ## v1 -/

/-- The selected columns of a segment.  Nothing writes `qcam_duration`. -/
structure SegLite where
  number : Int
  qcam_url : Text := []
  fcam_url : Text := []
  dcam_url : Text := []
  ecam_url : Text := []
  qcam_duration : Rat := 0
deriving DecidableEq, Repr

def SegLite.of_row (s : Segment) : SegLite where
  number := s.number
  qcam_url := s.qcam_url
  fcam_url := s.fcam_url
  dcam_url := s.dcam_url
  ecam_url := s.ecam_url

/-- `ORDER BY number ASC`. -/
def in_order (rows : List SegLite) : List SegLite :=
  rows.insertionSort fun a b => a.number ≤ b.number

/-- What the playlist is for. -/
structure Show where
  public_url : Text
  dongle : Text
  ts : Text
  stem : Text
deriving DecidableEq, Repr

/-- A url, when the segment has the file. -/
def when_present (column url : Text) : Option Text := if column = [] then none else some url

def Show.transcode_url (p : Show) (n : Int) (file : Text) : Text :=
  p.public_url ++ "/v1/transcode/" ++ p.dongle ++ "/" ++ p.ts ++ "/" ++ Text.decimal n ++ "/" ++ file

def Show.audio_url (p : Show) (n : Int) : Text :=
  p.public_url ++ "/v1/audio/" ++ p.dongle ++ "/" ++ p.ts ++ "/" ++ Text.decimal n ++ "/audio.ts"

/-- Does the camera exist for the segment, and what URL plays it? -/
def media (p : Show) (s : SegLite) : Option Text :=
  if p.stem = "qcamera" then when_present s.qcam_url s.qcam_url
  else if p.stem = "fcamera" then when_present s.fcam_url (p.transcode_url s.number "fcamera.ts")
  else if p.stem = "dcamera" then when_present s.dcam_url (p.transcode_url s.number "dcamera.ts")
  else if p.stem = "ecamera" then when_present s.ecam_url (p.transcode_url s.number "ecamera.ts")
  else if p.stem = "audio" then when_present s.qcam_url (p.audio_url s.number)
  else none

def playable (p : Show) (segs : List SegLite) : List (SegLite × Text) :=
  segs.filterMap fun s => (media p s).map fun url => (s, url)

/-- The thousandths printed as a segment's duration. -/
def SegLite.millis (s : SegLite) : Int :=
  Text.thousandths (if s.qcam_duration > 0 then s.qcam_duration else 60)

/-- One segment of the playlist. -/
structure Entry where
  /-- `EXT-X-DISCONTINUITY` before it. -/
  discontinuity : Bool
  millis : Int
  number : Int
  url : Text
deriving DecidableEq, Repr

/-- The loop over the playable segments; `expected` is the number that follows on. -/
def entries (expected : Int) : List (SegLite × Text) → List Entry
  | [] => []
  | (s, url) :: rest => ⟨decide (s.number ≠ expected), s.millis, s.number, url⟩ :: entries (s.number + 1) rest

def playlist (p : Show) (segs : List SegLite) : List Entry :=
  entries (((playable p segs).head?.map fun first => first.1.number).getD 0) (playable p segs)

def Entry.render (sig : Text) (e : Entry) : Text :=
  let gap : Text := if e.discontinuity then "#EXT-X-DISCONTINUITY\n" else []
  let sep : Text := if '?' ∈ e.url then "&" else "?"
  let signature : Text := if sig = [] then [] else sep ++ "sig=" ++ sig
  gap ++ "#EXTINF:" ++ Text.decimal (e.millis / 1000) ++ "." ++ Text.three_digits (e.millis % 1000) ++ "," ++
    Text.decimal e.number ++ "\n" ++ e.url ++ signature ++ "\n"

def PLAYLIST_HEADER : Text :=
  "#EXTM3U\n#EXT-X-VERSION:3\n#EXT-X-TARGETDURATION:61\n#EXT-X-MEDIA-SEQUENCE:0\n#EXT-X-PLAYLIST-TYPE:VOD\n"

/-- GET /v1/route/:fullname/:cam; `issue` signs a token for a user's identity. -/
def camera_m3u8 (env : Env) (issue : Text → AppResult Text) (name cam : Text) (auth : Option Auth) :
    Request Op Text := do
  match Text.strip_suffix ".m3u8" cam with
  | none => throw (.BadRequest "expected <camera>.m3u8")
  | some stem => do
      let (dongle, ts) ← Request.of_result (split_fullname name)
      allow_route_view name dongle auth
      let segs ← select fun w => (w.db.route_segments name).map SegLite.of_row
      let sig ← match auth.bind Auth.user with
        | some u => Request.of_result (issue u.identity)
        | none => pure []
      let listed := playlist ⟨env.public_url, dongle, ts, stem⟩ segs
      pure (PLAYLIST_HEADER ++ listed.flatMap (Entry.render sig) ++ "#EXT-X-ENDLIST\n")

/-! ## The two timelines -/

/-- The segments the playlist lists. -/
def listed (p : Show) (rows : List SegLite) : List SegLite :=
  (in_order rows).filter fun s => (media p s).isSome

structure TimelineMatches (p : Show) (rows : List SegLite) : Prop where
  /-- The durations before an entry add up to its stamped offset. -/
  offsets : ∀ before e after, playlist p (in_order rows) = before ++ e :: after →
    (before.map Entry.millis).sum = 1000 * ts_offset e.number
  increasing : (playlist p (in_order rows)).Pairwise fun e e' => e.number < e'.number
  discontinuities : ∀ before e after, playlist p (in_order rows) = before ++ e :: after →
    (e.discontinuity = true ↔ ∃ last, before.getLast? = some last ∧ e.number ≠ last.number + 1)

/-- The first listed segment is stamped with zero, and each of the others where the one
before it ends. -/
structure Regular (p : Show) (rows : List SegLite) : Prop where
  first : ∀ s ∈ (listed p rows).head?, ts_offset s.number = 0
  next : (listed p rows).IsChain fun s s' =>
    1000 * ts_offset s'.number = 1000 * ts_offset s.number + s.millis

section Entries

variable {p : Show}

theorem map_entries {γ : Type} (g : Int → Int → γ) (expected : Int) (l : List (SegLite × Text)) :
    (entries expected l).map (fun e => g e.number e.millis) =
      l.map fun s => g s.1.number s.1.millis := by
  induction l generalizing expected with
  | nil => rfl
  | cons s rest ih =>
      rw [entries, List.map_cons, List.map_cons, ih]

theorem map_playable {γ : Type} (g : SegLite → γ) (rows : List SegLite) :
    (playable p (in_order rows)).map (fun s => g s.1) = (listed p rows).map g := by
  unfold playable listed
  generalize in_order rows = segs
  induction segs with
  | nil => rfl
  | cons s rest ih =>
      rw [List.filterMap_cons]
      cases plays : media p s with
      | none => simp [plays, ih]
      | some url => simp [plays, ih]

/-- Numbers and durations of the entries are those of the listed segments. -/
theorem map_playlist {γ : Type} (g : Int → Int → γ) (rows : List SegLite) :
    (playlist p (in_order rows)).map (fun e => g e.number e.millis) =
      (listed p rows).map fun s => g s.number s.millis := by
  rw [playlist, map_entries]
  exact map_playable (fun s => g s.number s.millis) rows

/-- An entry is marked when its number is not the one expected: its predecessor's plus
one, or for the first entry the one given. -/
theorem discontinuity_of_split {expected : Int} {l : List (SegLite × Text)} {before after : List Entry}
    {e : Entry} (split : entries expected l = before ++ e :: after) :
    e.discontinuity = true ↔
      e.number ≠ (before.getLast?.map fun last => last.number + 1).getD expected := by
  induction l generalizing expected before with
  | nil =>
      rw [entries] at split
      simp at split
  | cons s rest ih =>
      obtain ⟨s, url⟩ := s
      rw [entries] at split
      cases before with
      | nil =>
          cases split
          simp
      | cons first before =>
          rw [List.cons_append, List.cons.injEq] at split
          obtain ⟨is, split⟩ := split
          rw [ih split, ← is]
          cases before with
          | nil => simp
          | cons second before => simp [List.getLast?_cons]

theorem first_of_split {rows : List SegLite} {e : Entry} {after : List Entry}
    (split : playlist p (in_order rows) = e :: after) :
    (((playable p (in_order rows)).head?.map fun first => first.1.number).getD 0) = e.number := by
  unfold playlist at split
  cases l : playable p (in_order rows) with
  | nil =>
      rw [l] at split
      cases split
  | cons s rest =>
      rw [l] at split
      cases split
      rfl

end Entries

/-- Different numbers in order increase. -/
theorem increasing_of_nodup {p : Show} {rows : List SegLite} (distinct : (rows.map SegLite.number).Nodup) :
    (listed p rows).Pairwise fun s s' => s.number < s'.number := by
  have sorted := List.pairwise_insertionSort (fun a b : SegLite => a.number ≤ b.number) rows
  have apart : (in_order rows).Pairwise fun s s' => s.number ≠ s'.number := by
    apply List.pairwise_map.1
    exact ((List.perm_insertionSort _ rows).map SegLite.number).nodup_iff.2 distinct
  have strict : (in_order rows).Pairwise fun s s' => s.number < s'.number := by
    apply (sorted.and apart).imp
    intro s s' both
    obtain ⟨le, ne⟩ := both
    omega
  exact strict.sublist List.filter_sublist

/-- **The playlist's timeline is the stamped one** exactly when the first listed segment is
stamped with zero and each of the others where the one before it ends.  The order of the
entries and the discontinuities are right in any case. -/
theorem timeline_matches_iff (p : Show) (rows : List SegLite)
    (distinct : (rows.map SegLite.number).Nodup) :
    TimelineMatches p rows ↔ Regular p rows := by
  have offsets : (∀ before e after, playlist p (in_order rows) = before ++ e :: after →
      (before.map Entry.millis).sum = 1000 * ts_offset e.number) ↔ Regular p rows := by
    have laid : (∀ before e after, playlist p (in_order rows) = before ++ e :: after →
        (before.map Entry.millis).sum = 1000 * ts_offset e.number) ↔
        EndToEnd (fun e : Entry => 1000 * ts_offset e.number) Entry.millis 0
          (playlist p (in_order rows)) := by
      unfold EndToEnd
      simp only [add_zero]
    have heads := congrArg List.head? (map_playlist (p := p) (fun n _ => ts_offset n) rows)
    rw [List.head?_map, List.head?_map] at heads
    have chains := congrArg (List.IsChain fun a b : Int × Int =>
      1000 * ts_offset b.1 = 1000 * ts_offset a.1 + a.2) (map_playlist (p := p) Prod.mk rows)
    rw [eq_iff_iff, List.isChain_map, List.isChain_map] at chains
    rw [laid, endToEnd_iff, chains]
    constructor
    · rintro ⟨first, next⟩
      refine ⟨?_, next⟩
      intro s is
      rw [Option.mem_def] at is
      rw [is, Option.map_some] at heads
      obtain ⟨e, head, same⟩ := Option.map_eq_some_iff.1 heads
      have zero := first e head
      omega
    · rintro ⟨first, next⟩
      refine ⟨?_, next⟩
      intro e is
      rw [Option.mem_def] at is
      rw [is, Option.map_some] at heads
      obtain ⟨s, head, same⟩ := Option.map_eq_some_iff.1 heads.symm
      have zero := first s head
      omega
  constructor
  · intro matches'
    exact offsets.1 matches'.offsets
  · intro regular
    refine ⟨offsets.2 regular, ?_, ?_⟩
    · have numbers := map_playlist (p := p) (fun n _ => n) rows
      have increasing := List.pairwise_map.2 (increasing_of_nodup (p := p) distinct)
      rw [← numbers] at increasing
      exact List.pairwise_map.1 increasing
    · intro before e after split
      rw [discontinuity_of_split split]
      cases last : before.getLast? with
      | none =>
          have empty : before = [] := List.getLast?_eq_none_iff.1 last
          subst empty
          have first := first_of_split split
          simp [first]
      | some l => simp

/-! ## Poles -/

private def front : Show := ⟨"u", "d", "t", "fcamera"⟩

private def front_segment (n : Int) : SegLite := { number := n, fcam_url := "u" }

/-- Without segment 1, segment 2 is listed after 60 s and stamped with 120. -/
theorem gap_not_counted : ¬ ∀ (p : Show) (rows : List SegLite),
    (rows.map SegLite.number).Nodup → TimelineMatches p rows := by
  intro claim
  have timeline := claim front [front_segment 0, front_segment 2] (by decide)
  have split : playlist front (in_order [front_segment 0, front_segment 2]) =
      [⟨false, 60000, 0, front.transcode_url 0 "fcamera.ts"⟩] ++
        ⟨true, 60000, 2, front.transcode_url 2 "fcamera.ts"⟩ :: [] := by decide +kernel
  have sum := timeline.offsets _ _ _ split
  revert sum
  decide

/-- Two segments in a row. -/
theorem timeline_matches_iff_two : TimelineMatches front [front_segment 1, front_segment 0] := by
  have list : listed front [front_segment 1, front_segment 0] = [front_segment 0, front_segment 1] := by
    decide
  apply (timeline_matches_iff front [front_segment 1, front_segment 0] (by decide)).2
  refine ⟨?_, ?_⟩
  · rw [list]
    decide
  · rw [list]
    decide +kernel

end HomeConnect.Media
