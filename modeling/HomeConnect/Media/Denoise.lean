/-
# Media.Denoise -- speech enhancement for a drive's audio

`build_wav` extracts a drive's audio, probes how long it is, and enhances it window by
window; the enhanced windows are joined into one track.  Every external step may fail.

The module promises that anything that fails gives `None`.  Two failures do not: a failed
probe counts as a track of no length, and a window that could not be cut out counts as the
end of the track.  `all_or_nothing_iff` says exactly when the build is all or nothing.
-/
import HomeConnect.Media.Subs
import HomeConnect.Theory.Windows

namespace HomeConnect.Media.Denoise

open HomeConnect.Theory HomeConnect.Media

set_option autoImplicit false

/-- Samples of a 16-bit mono WAV. -/
abbrev Track := List Int

/-- DeepFilterNet's native rate, in samples a second. -/
def RATE : Nat := 48000

/-- Seconds of audio in one enhancement request. -/
def CHUNK_SECS : Nat := 300

/-- Samples in one request. -/
def CHUNK_LEN : Nat := CHUNK_SECS * RATE

/-- The size of a WAV file: a header and two bytes a sample. -/
def wav_len (t : Track) : Nat := 44 + 2 * t.length

/-- How each external step of a build turns out. -/
structure Steps where
  enabled : Bool := true
  url : Text
  created : Bool := true
  /-- The raw track that `extract_wav` writes. -/
  extract : Option Track
  /-- `probe_duration` of the raw track, in seconds. -/
  probe : Option Rat
  client : Bool := true
  /-- Does ffmpeg succeed in cutting out the `k`-th window? -/
  ffmpeg : Nat → Bool
  /-- The server's reply to the `k`-th window. -/
  enhance : Nat → Track → Option Track
  /-- Does `concat_wavs` succeed? -/
  concat : Bool := true

/-- A cleaned piece, `clean-{offset}.wav`. -/
structure Part where
  offset : Nat
  audio : Track
deriving DecidableEq, Repr

/-- Cut a window out of the raw track; `none` also when there is next to nothing in it. -/
def slice_wav (s : Steps) (raw : Track) (k : Nat) : Option Track :=
  if s.ffmpeg k = true ∧ wav_len (window CHUNK_LEN raw k) > 1024 then some (window CHUNK_LEN raw k)
  else none

/-- One round of the loop, at `offset = k * CHUNK_SECS`. -/
def enhance_window (s : Steps) (raw : Track) (k : Nat) : Round Unit Part :=
  match slice_wav s raw k with
  | none => .past
  | some chunk =>
      match s.enhance k chunk with
      | some clean => .got ⟨k * CHUNK_SECS, clean⟩
      | none => .failed ()

/-- How often the loop goes round while the windows give something: a failed probe counts as
`0.0`, and `total.max(0.001)` lets even that have one round. -/
def rounds (s : Steps) : Nat := chunk_count (s.probe.getD 0)

/-- Enhance the raw track window by window, and join the pieces. -/
def enhance_track (s : Steps) (raw : Track) : Option (List Part) :=
  if s.client = false then none
  else
    match collect (enhance_window s raw) (rounds s) 0 with
    | .error _ => none
    | .ok parts =>
        if parts = [] then none
        else if s.concat = false then none
        else some parts

/-- Enhance a drive's audio; the result is the track joined of the parts, in order. -/
def build_wav (paths : List Text) (s : Steps) : Option (List Part) :=
  if paths = [] ∨ s.enabled = false then none
  else if s.url = [] then none
  else if s.created = false then none
  else s.extract.bind (enhance_track s)

/-! ## All or nothing -/

/-- The loop comes to the `k`-th window. -/
def Reached (s : Steps) (raw : Track) (k : Nat) : Prop :=
  k < rounds s ∧ ∀ j < k, ∃ part, enhance_window s raw j = .got part

/-- Some step that was tried failed. -/
inductive Failed (s : Steps) : Prop
  | create (failed : s.created = false)
  | extract (failed : s.extract = none)
  | probe (failed : s.probe = none)
  | client (failed : s.client = false)
  | slice {raw : Track} {k : Nat} (extracted : s.extract = some raw) (reached : Reached s raw k)
      (failed : s.ffmpeg k = false)
  | enhance {raw chunk : Track} {k : Nat} (extracted : s.extract = some raw)
      (reached : Reached s raw k) (sent : slice_wav s raw k = some chunk)
      (failed : s.enhance k chunk = none)
  | concat (failed : s.concat = false)

/-- The parts are the enhanced windows of the track from its start, in order, and after
them there is no more than one window with next to nothing in it. -/
structure Whole (s : Steps) (raw : Track) (out : List Part) : Prop where
  windows : (List.range out.length).map (fun k =>
      (s.enhance k (window CHUNK_LEN raw k)).map (Part.mk (k * CHUNK_SECS))) = out.map some
  covers : wav_len (raw.drop (out.length * CHUNK_LEN)) ≤ 1024

structure AllOrNothing (paths : List Text) (s : Steps) : Prop where
  whole : ∀ out, build_wav paths s = some out → ∃ raw, s.extract = some raw ∧ Whole s raw out
  nothing : Failed s → build_wav paths s = none

/-- Nothing makes the build return `None`: it comes to its end with `m` parts. -/
structure Ends (paths : List Text) (s : Steps) (raw : Track) (m : Nat) : Prop where
  asked : paths ≠ [] ∧ s.enabled = true ∧ s.url ≠ []
  created : s.created = true
  extracted : s.extract = some raw
  client : s.client = true
  stops : Stops (enhance_window s raw) (rounds s) 0 m
  some_part : 0 < m
  joined : s.concat = true

/-- No failure is taken for the end of the track. -/
structure Honest (s : Steps) (raw : Track) (m : Nat) : Prop where
  probed : s.probe ≠ none
  cut : m < rounds s → s.ffmpeg m = true
  long_enough : m = rounds s → wav_len (raw.drop (m * CHUNK_LEN)) ≤ 1024

/-! ## The loop -/

section Loop

variable {s : Steps} {raw : Track}

theorem got_iff {k : Nat} {part : Part} :
    enhance_window s raw k = .got part ↔ s.ffmpeg k = true ∧
      wav_len (window CHUNK_LEN raw k) > 1024 ∧
      (s.enhance k (window CHUNK_LEN raw k)).map (Part.mk (k * CHUNK_SECS)) = some part := by
  unfold enhance_window slice_wav
  by_cases cut : s.ffmpeg k = true ∧ wav_len (window CHUNK_LEN raw k) > 1024
  · rw [if_pos cut]
    cases reply : s.enhance k (window CHUNK_LEN raw k) with
    | none => simp [reply]
    | some clean => simp [reply, cut.1, cut.2]
  · rw [if_neg cut]
    constructor
    · intro got
      cases got
    · rintro ⟨success, long, _⟩
      exact absurd ⟨success, long⟩ cut

theorem past_iff {k : Nat} :
    enhance_window s raw k = .past ↔
      s.ffmpeg k = false ∨ wav_len (window CHUNK_LEN raw k) ≤ 1024 := by
  unfold enhance_window slice_wav
  by_cases cut : s.ffmpeg k = true ∧ wav_len (window CHUNK_LEN raw k) > 1024
  · rw [if_pos cut]
    have long := cut.2
    cases reply : s.enhance k (window CHUNK_LEN raw k) with
    | none => simp [reply, cut.1, long]
    | some clean => simp [reply, cut.1, long]
  · rw [if_neg cut]
    constructor
    · intro _
      by_cases success : s.ffmpeg k = true
      · exact .inr (Nat.le_of_not_lt fun long => cut ⟨success, long⟩)
      · exact .inl (Bool.eq_false_iff.2 success)
    · intro _
      rfl

/-- A window with next to nothing in it is the last. -/
theorem short_window {width k : Nat} (wide : 490 < width)
    (short : wav_len (window width raw k) ≤ 1024) : wav_len (raw.drop (k * width)) ≤ 1024 := by
  unfold wav_len at short ⊢
  rw [length_window] at short
  rw [List.length_drop]
  omega

theorem reached_of_stops {m : Nat} (stops : Stops (enhance_window s raw) (rounds s) 0 m) {k : Nat}
    (here : k ≤ m) (more : k < rounds s) : Reached s raw k := by
  refine ⟨more, ?_⟩
  intro j below
  have earlier := stops.before j (by omega)
  rwa [Nat.zero_add] at earlier

/-- The loop comes to no window after the one it ends at. -/
theorem le_of_reached {m k : Nat} (stops : Stops (enhance_window s raw) (rounds s) 0 m)
    (reached : Reached s raw k) : k ≤ m := by
  apply Nat.le_of_not_lt
  intro after
  obtain ⟨part, got⟩ := reached.2 m after
  rcases stops.here with last | past
  · have := reached.1
    omega
  · rw [Nat.zero_add, got] at past
    cases past

/-- A window the loop comes to gave a part, or was past the end. -/
theorem got_or_past {m k : Nat} (stops : Stops (enhance_window s raw) (rounds s) 0 m)
    (reached : Reached s raw k) :
    (∃ part, enhance_window s raw k = .got part) ∨ k = m ∧ enhance_window s raw k = .past := by
  rcases Nat.lt_or_eq_of_le (le_of_reached stops reached) with before | here
  · have got := stops.before k before
    rw [Nat.zero_add] at got
    exact .inl got
  · subst here
    rcases stops.here with last | past
    · have := reached.1
      omega
    · rw [Nat.zero_add] at past
      exact .inr ⟨rfl, past⟩

/-- The build returns a track when it comes to its end. -/
theorem build_wav_eq_some {paths : List Text} {out : List Part} :
    build_wav paths s = some out ↔ ∃ raw m, Ends paths s raw m ∧
      out = values (enhance_window s raw) 0 m := by
  constructor
  · intro built
    unfold build_wav at built
    split at built
    · cases built
    · rename_i asked
      split at built
      · cases built
      · rename_i url
        split at built
        · cases built
        · rename_i created
          obtain ⟨raw, extracted, enhanced⟩ := Option.bind_eq_some_iff.1 built
          unfold enhance_track at enhanced
          split at enhanced
          · cases enhanced
          · rename_i client
            split at enhanced
            · cases enhanced
            · rename_i parts collected
              split at enhanced
              · cases enhanced
              · rename_i nonempty
                split at enhanced
                · cases enhanced
                · rename_i joined
                  cases enhanced
                  obtain ⟨m, stops, is⟩ := collect_ok_iff.1 collected
                  obtain ⟨given, enabled⟩ := not_or.1 asked
                  refine ⟨raw, m, ⟨⟨given, Bool.not_eq_false _ ▸ enabled, url⟩,
                    Bool.not_eq_false _ ▸ created, extracted, Bool.not_eq_false _ ▸ client, stops,
                    ?_, Bool.not_eq_false _ ▸ joined⟩, is⟩
                  apply Nat.pos_of_ne_zero
                  intro none
                  rw [none] at is
                  exact nonempty is
  · rintro ⟨raw, m, ends, rfl⟩
    obtain ⟨given, enabled, url⟩ := ends.asked
    have collected := collect_ok_iff.2 ⟨m, ends.stops, rfl⟩
    have nonempty : values (enhance_window s raw) 0 m ≠ [] := by
      intro empty
      have length := length_values ends.stops
      rw [empty] at length
      have := ends.some_part
      simp at length
      omega
    unfold build_wav enhance_track
    simp [given, enabled, url, ends.created, ends.extracted, ends.client, collected, nonempty,
      ends.joined]

/-- The values are the enhanced windows. -/
theorem windows_of_stops {m : Nat} (stops : Stops (enhance_window s raw) (rounds s) 0 m) :
    (List.range (values (enhance_window s raw) 0 m).length).map (fun k =>
        (s.enhance k (window CHUNK_LEN raw k)).map (Part.mk (k * CHUNK_SECS))) =
      (values (enhance_window s raw) 0 m).map some := by
  rw [length_values stops, List.range_eq_range']
  apply map_values
  · intro k part got
    exact (got_iff.1 got).2.2
  · exact stops.before

end Loop

/-- **Denoising is all or nothing** exactly when a build that comes to its end took no
failure for the end of the track: the probe succeeded, ffmpeg cut out every window it was
asked for, and the rounds did not run out before the track. -/
theorem all_or_nothing_iff (paths : List Text) (s : Steps) :
    AllOrNothing paths s ↔ ∀ raw m, Ends paths s raw m → Honest s raw m := by
  constructor
  · intro all raw m ends
    have built := build_wav_eq_some.2 ⟨raw, m, ends, rfl⟩
    have sound : ¬ Failed s := by
      intro failed
      rw [all.nothing failed] at built
      cases built
    refine ⟨?_, ?_, ?_⟩
    · intro failed
      exact sound (.probe failed)
    · intro more
      by_cases cut : s.ffmpeg m = true
      · exact cut
      · have reached := reached_of_stops ends.stops (Nat.le_refl m) more
        exact (sound (.slice ends.extracted reached (Bool.eq_false_iff.2 cut))).elim
    · intro _
      obtain ⟨raw', extracted, whole⟩ := all.whole _ built
      rw [ends.extracted] at extracted
      cases extracted
      have covers := whole.covers
      rwa [length_values ends.stops] at covers
  · intro honest
    refine ⟨?_, ?_⟩
    · intro out built
      obtain ⟨raw, m, ends, rfl⟩ := build_wav_eq_some.1 built
      obtain ⟨_, cut, long_enough⟩ := honest raw m ends
      refine ⟨raw, ends.extracted, windows_of_stops ends.stops, ?_⟩
      rw [length_values ends.stops]
      rcases Nat.lt_or_ge m (rounds s) with more | last
      · -- The loop ended early, and not because ffmpeg failed.
        rcases ends.stops.here with last | past
        · omega
        · rw [Nat.zero_add] at past
          rcases past_iff.1 past with failed | short
          · rw [cut more] at failed
            cases failed
          · exact short_window (by decide) short
      · have := ends.stops.within
        exact long_enough (by omega)
    · intro failed
      cases built : build_wav paths s with
      | none => rfl
      | some out =>
          obtain ⟨raw, m, ends, _⟩ := build_wav_eq_some.1 built
          obtain ⟨probed, cut, _⟩ := honest raw m ends
          cases failed with
          | create failed =>
              rw [ends.created] at failed
              cases failed
          | extract failed =>
              rw [ends.extracted] at failed
              cases failed
          | probe failed => exact absurd failed probed
          | client failed =>
              rw [ends.client] at failed
              cases failed
          | concat failed =>
              rw [ends.joined] at failed
              cases failed
          | @slice raw' k extracted reached failed =>
              rw [ends.extracted] at extracted
              cases extracted
              rcases got_or_past ends.stops reached with ⟨part, got⟩ | ⟨here, _⟩
              · rw [(got_iff.1 got).1] at failed
                cases failed
              · subst here
                rw [cut reached.1] at failed
                cases failed
          | @enhance raw' chunk k extracted reached sent failed =>
              rw [ends.extracted] at extracted
              cases extracted
              have refused : enhance_window s raw k = .failed () := by
                unfold enhance_window
                simp only [sent, failed]
              rcases got_or_past ends.stops reached with ⟨part, got⟩ | ⟨_, past⟩
              · rw [refused] at got
                cases got
              · rw [refused] at past
                cases past

/-! ## Poles -/

/-- Of a track of two windows, ffmpeg cuts out the first only. -/
private def second_cut_fails (raw : Track) : Steps where
  url := "http://dfn"
  extract := some raw
  probe := some 600
  ffmpeg := fun k => decide (k = 0)
  enhance := fun _ chunk => some chunk

/-- The second window cannot be cut out, and the first alone is returned as the track. -/
theorem failed_cut_ends_track : ¬ ∀ (paths : List Text) (s : Steps), AllOrNothing paths s := by
  intro claim
  obtain ⟨raw, length⟩ : ∃ raw : Track, raw.length = 2 * CHUNK_LEN :=
    ⟨List.replicate (2 * CHUNK_LEN) 0, List.length_replicate⟩
  have two : rounds (second_cut_fails raw) = 2 := by
    change chunk_count 600 = 2
    decide +kernel
  have first : enhance_window (second_cut_fails raw) raw 0 =
      .got ⟨0 * CHUNK_SECS, window CHUNK_LEN raw 0⟩ := by
    apply got_iff.2
    refine ⟨rfl, ?_, rfl⟩
    unfold wav_len
    rw [length_window, length]
    unfold CHUNK_LEN CHUNK_SECS RATE
    omega
  have before : ∀ k < 1, ∃ part, enhance_window (second_cut_fails raw) raw (0 + k) = .got part := by
    intro k below
    rw [show 0 + k = 0 by omega]
    exact ⟨_, first⟩
  have ends : Ends ["seg"] (second_cut_fails raw) raw 1 :=
    { asked := ⟨by decide, rfl, by change ("http://dfn" : Text) ≠ []; decide⟩
      created := rfl
      extracted := rfl
      client := rfl
      stops := ⟨by omega, before, .inr (past_iff.2 (.inl rfl))⟩
      some_part := by omega
      joined := rfl }
  have built := build_wav_eq_some.2 ⟨_, _, ends, rfl⟩
  have failed : Failed (second_cut_fails raw) :=
    .slice rfl (reached_of_stops ends.stops (Nat.le_refl 1) (by omega)) rfl
  rw [(claim ["seg"] (second_cut_fails raw)).nothing failed] at built
  cases built

end HomeConnect.Media.Denoise
