/-
# Media.Transcribe -- what a recorded transcript covers

`Media.Subs` has a transcript's build as the other parts of the server see it; this is the
same build (`Media.Transcript`) with the audio, the outcome of every external step and the cues.  The audio is
cut into windows, each is transcribed, and the cues are put on one timeline.

A window that could not be cut out ends the loop as the end of the audio does, and a failed
probe counts as audio of no length, so a build can record a part of the transcript as the
whole, and the sweep trusts every row with `bytes > 0`.  `whole_or_failed_iff` says exactly
when it does not.
-/
import HomeConnect.Media.Denoise

namespace HomeConnect.Media.Transcribe

open HomeConnect.Theory HomeConnect.Media
open HomeConnect.Media.Denoise (Track wav_len short_window)

set_option autoImplicit false

/-! ## Cues -/

/-- One subtitle cue on the drive's timeline. -/
structure Cue where
  start : Rat
  stop : Rat
  text : Text
deriving DecidableEq, Repr

/-- Digits with at most one point among them. -/
def parse_mantissa (s : Text) : Option Rat :=
  let whole := s.takeWhile Char.isDigit
  match s.dropWhile Char.isDigit with
  | [] => (Text.parse_digits whole).map fun n => (n : Rat)
  | '.' :: frac =>
      (Text.parse_digits (whole ++ frac)).map fun n => (n : Rat) / 10 ^ frac.length
  | _ => none

def parse_signed {α : Type} [Neg α] (parse : Text → Option α) : Text → Option α
  | '-' :: s => (parse s).map fun x => -x
  | '+' :: s => parse s
  | s => parse s

/-- `str::parse::<f64>`: a decimal number, with an exponent or without.  `inf` and `nan` are
no rational numbers and are not read. -/
def parse_f64 (s : Text) : Option Rat :=
  let isExp (c : Char) : Bool := c = 'e' || c = 'E'
  let mantissa := parse_signed parse_mantissa (s.takeWhile fun c => !isExp c)
  match s.dropWhile fun c => !isExp c with
  | [] => mantissa
  | _ :: exp =>
      match mantissa, parse_signed (fun ds => (Text.parse_digits ds).map fun n => (n : Int)) exp with
      | some m, some e => some (m * (10 : Rat) ^ e)
      | _, _ => none

/-- `HH:MM:SS.mmm` / `MM:SS.mmm` (comma or dot decimal), in seconds. -/
def parse_ts (s : Text) : Option Rat :=
  let dotted := (Text.trim s).map fun c => if c = ',' then '.' else c
  -- Any cue settings trailing the end timestamp go.
  let first := dotted.takeWhile fun c => !Text.is_whitespace c
  if first = [] then none
  else
    let parts := Text.split ':' first
    if parts.length > 3 then none
    else parts.foldlM (fun secs p => (parse_f64 p).map fun n => secs * 60 + n) 0

/-- `split_once("-->")`. -/
def split_arrow : Text → Option (Text × Text)
  | '-' :: '-' :: '>' :: rest => some ([], rest)
  | c :: rest => (split_arrow rest).map fun p => (c :: p.1, p.2)
  | [] => none

/-- The times of a timing line. -/
def timing (line : Text) : Option (Rat × Rat) :=
  (split_arrow line).bind fun p =>
    (parse_ts p.1).bind fun start => (parse_ts p.2).map fun stop => (start, stop)

def cue_of (times : Rat × Rat) (body : List Text) : List Cue :=
  if Text.join "\n" body = [] then [] else [⟨times.1, times.2, Text.join "\n" body⟩]

/-- Go through the lines; `inside` holds the times and the text so far of the cue that is
being read. -/
def parse_lines : Option ((Rat × Rat) × List Text) → List Text → List Cue
  | none, [] => []
  | some (times, body), [] => cue_of times body
  | none, line :: rest => parse_lines ((timing line).map fun times => (times, [])) rest
  | some (times, body), line :: rest =>
      if Text.trim line = [] then cue_of times body ++ parse_lines none rest
      else parse_lines (some (times, body ++ [Text.trim line])) rest

/-- Parse whisper.cpp's WebVTT output into cues; anything else is skipped. -/
def parse_vtt (body : Text) : List Cue := parse_lines none (Text.lines body)

/-- Move a chunk's cues onto the whole-drive timeline. -/
def shift (cues : List Cue) (offset : Rat) : List Cue :=
  cues.map fun c => ⟨c.start + offset, c.stop + offset, c.text⟩

/-- The hours are cast to an `i64`, which saturates. -/
def fmt_ts (t : Rat) : Text :=
  let t := max t 0
  let hours := (t / 3600).floor
  let minutes := ((t - hours * 3600) / 60).floor
  let millis := Text.thousandths (t - (t / 60).floor * 60)
  let colon : Text := ":"
  let point : Text := "."
  Text.two_digits (min hours (2 ^ 63 - 1)) ++ colon ++ Text.two_digits minutes ++ colon ++
    Text.two_digits (millis / 1000) ++ point ++ Text.three_digits (millis % 1000)

/-- Render cues back out as one WebVTT document. -/
def render_vtt (cues : List Cue) : Text :=
  let header : Text := "WEBVTT\n\n"
  let arrow : Text := " --> "
  let line : Text := "\n"
  header ++ cues.flatMap fun c =>
    fmt_ts c.start ++ arrow ++ fmt_ts c.stop ++ line ++ c.text ++ line ++ line

/-! ## The build -/

/-- Samples a second of the WAV that whisper wants. -/
def RATE : Nat := 16000

def CHUNK_LEN : Nat := 300 * RATE

/-- How each external step of a build turns out. -/
structure Steps where
  seg_count : Int
  /-- The qcamera blobs there are. -/
  paths : List Text
  created : Bool := true
  /-- Did `denoise::build_wav` give a track? -/
  denoised : Bool := false
  resample : Option Track := none
  extract : Option Track
  probe : Option Rat
  url : Text
  client : Bool := true
  /-- Are subtitles enabled before the `k`-th window? -/
  enabled : Nat → Bool
  /-- Does ffmpeg succeed in cutting out the `k`-th window? -/
  ffmpeg : Nat → Bool
  /-- The server's reply to the `k`-th window. -/
  transcribe : Nat → Track → Option Text
  put : Bool := true

/-- A row that `record` writes. -/
structure Recorded where
  seg_count : Int
  cues : Nat
  bytes : Nat
deriving DecidableEq, Repr

/-- A transcribed window. -/
structure Chunk where
  offset : Nat
  vtt : Text
deriving DecidableEq, Repr

def Chunk.cues (c : Chunk) : List Cue := shift (parse_vtt c.vtt) c.offset

/-- What a build comes to: its result, the rows it records, the windows it had transcribed,
and the document it stored. -/
structure Built where
  result : AppResult Nat
  rows : List Recorded := []
  chunks : List Chunk := []
  stored : Option Text := none

/-- The audio of the build: the enhanced track resampled, or else the raw one. -/
def Steps.wav (s : Steps) : Option Track := if s.denoised then s.resample else s.extract

def slice_wav (s : Steps) (wav : Track) (k : Nat) : Option Track :=
  if s.ffmpeg k = true ∧ wav_len (window CHUNK_LEN wav k) > 1024 then some (window CHUNK_LEN wav k)
  else none

/-- Why the loop gave up. -/
inductive Broken
  | disabled
  | whisper
deriving DecidableEq, Repr

/-- One round of the loop, at `offset = k * CHUNK_SECS`. -/
def transcribe_window (s : Steps) (wav : Track) (k : Nat) : Round Broken Chunk :=
  if s.enabled k = false then .failed .disabled
  else
    match slice_wav s wav k with
    | none => .past
    | some chunk =>
        match s.transcribe k chunk with
        | some vtt => .got ⟨k * 300, vtt⟩
        | none => .failed .whisper

def rounds (s : Steps) : Nat := chunk_count (s.probe.getD 0)

/-- Record a failed attempt and fail. -/
def failed_attempt (s : Steps) (e : AppError) : Built :=
  { result := .error e, rows := [⟨s.seg_count, 0, 0⟩] }

/-- Store the transcript and record it. -/
def publish (s : Steps) (chunks : List Chunk) : Built :=
  let cues := chunks.flatMap Chunk.cues
  let vtt := render_vtt cues
  if s.put = false then { result := .error (.Other "blob write") }
  else
    { result := .ok cues.length
      rows := [⟨s.seg_count, cues.length, Text.byte_len vtt⟩]
      chunks
      stored := some vtt }

def transcribe_audio (s : Steps) (wav : Track) : Built :=
  if s.url = [] then { result := .error (.BadRequest "no whisper url configured") }
  else if s.client = false then { result := .error (.Other "client") }
  else
    match collect (transcribe_window s wav) (rounds s) 0 with
    | .error .disabled => { result := .error (.Other "subtitle build aborted (disabled)") }
    | .error .whisper => failed_attempt s (.Other "whisper")
    | .ok chunks => publish s chunks

/-- Build (or rebuild) one drive's subtitles. -/
def build (name : Text) (s : Steps) : Built :=
  if s.paths = [] then failed_attempt s (.NotFound ("no audio for " ++ name))
  else if s.created = false then { result := .error (.Other "tempdir") }
  else
    match s.wav with
    | none => failed_attempt s (.Other ("audio extract failed for " ++ name))
    | some wav => transcribe_audio s wav

/-! ## A recorded transcript -/

/-- Every window of the audio from its start was transcribed once, and after them there is
no more than one with next to nothing in it; their cues, shifted and in order, are stored. -/
structure Complete (s : Steps) (wav : Track) (b : Built) : Prop where
  windows : (List.range b.chunks.length).map (fun k =>
      (s.transcribe k (window CHUNK_LEN wav k)).map (Chunk.mk (k * 300))) = b.chunks.map some
  covers : wav_len (wav.drop (b.chunks.length * CHUNK_LEN)) ≤ 1024
  stored : b.stored = some (render_vtt (b.chunks.flatMap fun c => shift (parse_vtt c.vtt) c.offset))

/-- The build returned `Ok` and recorded a row with bytes. -/
def Succeeded (b : Built) : Prop := (∃ n, b.result = .ok n) ∧ ∃ row ∈ b.rows, row.bytes > 0

structure WholeOrFailed (name : Text) (s : Steps) : Prop where
  whole : Succeeded (build name s) → ∃ wav, s.wav = some wav ∧ Complete s wav (build name s)
  failed : ¬ Succeeded (build name s) →
    (∃ e, (build name s).result = .error e) ∧ ∀ row ∈ (build name s).rows, ¬ row.bytes > 0

/-- Nothing makes the build fail, and it transcribes `m` windows. -/
structure Ends (s : Steps) (wav : Track) (m : Nat) : Prop where
  asked : s.paths ≠ [] ∧ s.created = true
  audio : s.wav = some wav
  server : s.url ≠ [] ∧ s.client = true
  stops : Stops (transcribe_window s wav) (rounds s) 0 m
  put : s.put = true

/-- What is left after `m` windows is next to nothing, if it was not asked for or could not
be cut out. -/
structure Honest (s : Steps) (wav : Track) (m : Nat) : Prop where
  cut : m < rounds s → s.ffmpeg m = false → wav_len (wav.drop (m * CHUNK_LEN)) ≤ 1024
  long_enough : m = rounds s → wav_len (wav.drop (m * CHUNK_LEN)) ≤ 1024

section Loop

variable {s : Steps} {wav : Track}

theorem reply_of_got {k : Nat} {chunk : Chunk} (got : transcribe_window s wav k = .got chunk) :
    (s.transcribe k (window CHUNK_LEN wav k)).map (Chunk.mk (k * 300)) = some chunk := by
  unfold transcribe_window at got
  by_cases enabled : s.enabled k = false
  · rw [if_pos enabled] at got
    cases got
  · rw [if_neg enabled] at got
    unfold slice_wav at got
    by_cases cut : s.ffmpeg k = true ∧ wav_len (window CHUNK_LEN wav k) > 1024
    · rw [if_pos cut] at got
      cases reply : s.transcribe k (window CHUNK_LEN wav k) with
      | none =>
          simp only [reply] at got
          cases got
      | some vtt =>
          simp only [reply] at got
          cases got
          rfl
    · rw [if_neg cut] at got
      cases got

theorem cut_of_past {k : Nat} (past : transcribe_window s wav k = .past) :
    s.ffmpeg k = false ∨ wav_len (window CHUNK_LEN wav k) ≤ 1024 := by
  by_cases cut : s.ffmpeg k = true ∧ wav_len (window CHUNK_LEN wav k) > 1024
  · unfold transcribe_window slice_wav at past
    by_cases enabled : s.enabled k = false
    · rw [if_pos enabled] at past
      cases past
    · rw [if_neg enabled, if_pos cut] at past
      cases reply : s.transcribe k (window CHUNK_LEN wav k) with
      | none =>
          simp only [reply] at past
          cases past
      | some vtt =>
          simp only [reply] at past
          cases past
  · by_cases success : s.ffmpeg k = true
    · exact .inr (Nat.le_of_not_lt fun long => cut ⟨success, long⟩)
    · exact .inl (Bool.eq_false_iff.2 success)

/-- A document is never empty. -/
theorem byte_len_render (cues : List Cue) : Text.byte_len (render_vtt cues) > 0 := by
  unfold render_vtt Text.byte_len
  dsimp only
  rw [List.map_append, List.sum_append]
  have header : ((("WEBVTT\n\n" : Text).map Char.utf8Size).sum) = 8 := by decide
  omega

/-- A build fails without a row that has bytes, or comes to its end and publishes. -/
theorem build_cases (name : Text) (s : Steps) :
    (¬ (∃ wav m, Ends s wav m) ∧ (∃ e, (build name s).result = .error e) ∧
      ∀ row ∈ (build name s).rows, ¬ row.bytes > 0) ∨
    ∃ wav m, Ends s wav m ∧ build name s = publish s (values (transcribe_window s wav) 0 m) := by
  by_cases asked : s.paths ≠ [] ∧ s.created = true
  · cases audio : s.wav with
    | none =>
        left
        refine ⟨?_, ?_⟩
        · rintro ⟨wav, m, ends⟩
          rw [ends.audio] at audio
          cases audio
        · simp [build, asked, audio, failed_attempt]
    | some wav =>
        by_cases server : s.url ≠ [] ∧ s.client = true
        · have is : build name s = match collect (transcribe_window s wav) (rounds s) 0 with
              | .error .disabled => { result := .error (.Other "subtitle build aborted (disabled)") }
              | .error .whisper => failed_attempt s (.Other "whisper")
              | .ok chunks => publish s chunks := by
            simp [build, asked, audio, transcribe_audio, server]
          cases collected : collect (transcribe_window s wav) (rounds s) 0 with
          | error broken =>
              left
              refine ⟨?_, ?_⟩
              · rintro ⟨wav', m, ends⟩
                have same := ends.audio
                rw [audio] at same
                cases same
                rw [collect_ok_iff.2 ⟨m, ends.stops, rfl⟩] at collected
                cases collected
              · rw [is, collected]
                cases broken with
                | disabled => simp
                | whisper => simp [failed_attempt]
          | ok chunks =>
              obtain ⟨m, stops, rfl⟩ := collect_ok_iff.1 collected
              rw [collected] at is
              by_cases put : s.put = true
              · right
                exact ⟨wav, m, ⟨asked, audio, server, stops, put⟩, is⟩
              · left
                refine ⟨?_, ?_⟩
                · rintro ⟨_, _, ends⟩
                  exact put ends.put
                · rw [is]
                  simp [publish, put]
        · left
          refine ⟨?_, ?_⟩
          · rintro ⟨_, _, ends⟩
            exact server ends.server
          · by_cases url : s.url = []
            · simp [build, asked, audio, transcribe_audio, url]
            · have client : s.client = false := by
                apply Bool.eq_false_iff.2
                intro client
                exact server ⟨url, client⟩
              simp [build, asked, audio, transcribe_audio, url, client]
  · left
    refine ⟨?_, ?_⟩
    · rintro ⟨_, _, ends⟩
      exact asked ends.asked
    · by_cases given : s.paths = []
      · simp [build, given, failed_attempt]
      · have created : s.created = false := by
          apply Bool.eq_false_iff.2
          intro created
          exact asked ⟨given, created⟩
        simp [build, given, created]

theorem Ends.unique {wav' : Track} {m m' : Nat} (ends : Ends s wav m) (ends' : Ends s wav' m') :
    wav' = wav ∧ m' = m := by
  have same := ends.audio
  rw [ends'.audio] at same
  cases same
  exact ⟨rfl, ends'.stops.unique ends.stops⟩

theorem succeeded_of_ends (name : Text) {m : Nat} (ends : Ends s wav m) :
    build name s = publish s (values (transcribe_window s wav) 0 m) ∧ Succeeded (build name s) := by
  rcases build_cases name s with ⟨never, _⟩ | ⟨wav', m', ends', is⟩
  · exact absurd ⟨wav, m, ends⟩ never
  · obtain ⟨rfl, rfl⟩ := ends.unique ends'
    refine ⟨is, ?_⟩
    rw [is, publish, if_neg (by rw [ends.put]; decide)]
    exact ⟨⟨_, rfl⟩, _, List.mem_cons_self, byte_len_render _⟩

theorem published_chunks (ends : ∃ m, Ends s wav m) (chunks : List Chunk) :
    (publish s chunks).chunks = chunks ∧
      (publish s chunks).stored = some (render_vtt (chunks.flatMap Chunk.cues)) := by
  obtain ⟨m, ends⟩ := ends
  rw [publish, if_neg (by rw [ends.put]; decide)]
  exact ⟨rfl, rfl⟩

end Loop

/-- **A recorded transcript is complete**, and a failed build records none, exactly when
every build that comes to its end has only next to nothing left where the rounds ran out or
ffmpeg failed. -/
theorem whole_or_failed_iff (name : Text) (s : Steps) :
    WholeOrFailed name s ↔ ∀ wav m, Ends s wav m → Honest s wav m := by
  constructor
  · intro good wav m ends
    obtain ⟨is, succeeded⟩ := succeeded_of_ends name ends
    obtain ⟨wav', audio, complete⟩ := good.whole succeeded
    rw [ends.audio] at audio
    cases audio
    have covers := complete.covers
    rw [is, (published_chunks ⟨m, ends⟩ _).1, length_values ends.stops] at covers
    exact ⟨fun _ _ => covers, fun _ => covers⟩
  · intro honest
    rcases build_cases name s with ⟨_, ⟨e, failed⟩, none⟩ | ⟨wav, m, ends, is⟩
    · refine ⟨?_, fun _ => ⟨⟨e, failed⟩, none⟩⟩
      rintro ⟨⟨n, ok⟩, _⟩
      rw [ok] at failed
      cases failed
    · refine ⟨?_, fun not => absurd (succeeded_of_ends name ends).2 not⟩
      intro _
      obtain ⟨chunks, stored⟩ :=
        published_chunks ⟨m, ends⟩ (values (transcribe_window s wav) 0 m)
      refine ⟨wav, ends.audio, ?_, ?_, ?_⟩
      · rw [is, chunks, length_values ends.stops, List.range_eq_range']
        apply map_values
        · intro k chunk got
          exact reply_of_got got
        · exact ends.stops.before
      · rw [is, chunks, length_values ends.stops]
        obtain ⟨cut, long_enough⟩ := honest wav m ends
        rcases Nat.lt_or_ge m (rounds s) with more | last
        · rcases ends.stops.here with last | past
          · omega
          · rw [Nat.zero_add] at past
            rcases cut_of_past past with failed | short
            · exact cut more failed
            · exact short_window (by decide) short
        · have := ends.stops.within
          exact long_enough (by omega)
      · rw [is, chunks, stored]
        rfl

/-! ## Poles -/

/-- Five minutes and more of audio whose length cannot be probed. -/
private def unprobed (wav : Track) : Steps where
  seg_count := 10
  paths := ["seg"]
  extract := some wav
  probe := none
  url := "http://whisper"
  enabled := fun _ => true
  ffmpeg := fun _ => true
  transcribe := fun _ _ => some "WEBVTT\n"

/-- A failed probe makes the first window the whole transcript, recorded with bytes. -/
theorem failed_probe_recorded : ¬ ∀ (name : Text) (s : Steps), WholeOrFailed name s := by
  intro claim
  obtain ⟨wav, length⟩ : ∃ wav : Track, wav.length = 2 * CHUNK_LEN :=
    ⟨List.replicate (2 * CHUNK_LEN) 0, List.length_replicate⟩
  have one : rounds (unprobed wav) = 1 := by
    change chunk_count 0 = 1
    decide +kernel
  have long : wav_len (window CHUNK_LEN wav 0) > 1024 := by
    unfold wav_len
    rw [length_window, length]
    unfold CHUNK_LEN RATE
    omega
  have first : transcribe_window (unprobed wav) wav 0 = .got ⟨0, "WEBVTT\n"⟩ := by
    unfold transcribe_window slice_wav
    rw [if_neg (by intro off; cases off), if_pos ⟨rfl, long⟩]
    rfl
  have before : ∀ k < 1, ∃ chunk, transcribe_window (unprobed wav) wav (0 + k) = .got chunk := by
    intro k below
    rw [show 0 + k = 0 by omega]
    exact ⟨_, first⟩
  have ends : Ends (unprobed wav) wav 1 :=
    { asked := ⟨by change [("seg" : Text)] ≠ []; decide, rfl⟩
      audio := rfl
      server := ⟨by change ("http://whisper" : Text) ≠ []; decide, rfl⟩
      stops := ⟨by omega, before, .inl one.symm⟩
      put := rfl }
  obtain ⟨is, succeeded⟩ := succeeded_of_ends "d|t" ends
  obtain ⟨wav', audio, complete⟩ := (claim "d|t" (unprobed wav)).whole succeeded
  cases audio
  have covers := complete.covers
  rw [is, (published_chunks ⟨1, ends⟩ _).1, length_values ends.stops] at covers
  unfold wav_len at covers
  rw [List.length_drop, length] at covers
  unfold CHUNK_LEN RATE at covers
  omega

end HomeConnect.Media.Transcribe
