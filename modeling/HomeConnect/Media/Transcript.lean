/-
# Media.Transcript -- a build with its audio is a build of the server

`Media.Transcribe` has what a build makes of the audio and of every outside step;
`Media.Subs` has the same build among everything else the server does, where ffmpeg and whisper
come up with anything.  Whatever the outside steps of the one are, the other, run by itself over
a server that meets them, can return the same result and leave the same transcript and the same
rows (`build_subs_of_build`).
-/
import HomeConnect.Media.Stages
import HomeConnect.Media.Transcribe

namespace HomeConnect.Media.Transcribe

open HomeConnect.Theory HomeConnect.Storage HomeConnect.Drives HomeConnect.Media
open HomeConnect.Media.Denoise (Track)
open HomeConnect.Media.Stages (inside_whisper_url)

set_option autoImplicit false

/-- A text as the bytes of a file. -/
def utf8 (t : Text) : Bytes := t.flatMap String.utf8EncodeChar

theorem length_utf8 (t : Text) : (utf8 t).length = Text.byte_len t := by
  unfold utf8 Text.byte_len
  rw [List.length_flatMap]
  exact congrArg List.sum (List.map_congr_left fun c _ => String.length_utf8EncodeChar c)

/-- The writes that a build comes to. -/
def Built.writes (dongle ts : Text) (b : Built) : List Drives.Write :=
  (b.stored.toList.map fun vtt => .blob_put (.subs dongle ts) (utf8 vtt)) ++
    b.rows.map fun row => .record_subs (fullname dongle ts) row.seg_count row.cues row.bytes

/-- The world that a build leaves. -/
def Built.leaves (env : Env) (dongle ts : Text) (w : World) (b : Built) : World :=
  (b.writes dongle ts).foldl (applied env) w

/-- The server is as the steps have it, and nothing of its own fails. -/
structure Meets (env : Env) (dongle ts : Text) (w : World) (s : Steps) : Prop where
  seg_count : s.seg_count = (numbers_with .qcam (fullname dongle ts) w).length
  paths : s.paths = [] ↔ audio_numbers env dongle ts w = []
  created : s.created = true
  client : s.client = true
  put : s.put = true
  url : alone env (whisper_url env) w = (.ok s.url, w)
  enabled : ∀ k, alone env (subs_enabled env) w = (.ok (s.enabled k), w)
  document : env.render_vtt ((build (fullname dongle ts) s).chunks.map fun c => utf8 c.vtt) =
    (utf8 (render_vtt ((build (fullname dongle ts) s).chunks.flatMap Chunk.cues)),
      ((build (fullname dongle ts) s).chunks.flatMap Chunk.cues).length)

section Run

variable {env : Env} {w : World} {dongle ts name : Text} {s : Steps} {wav : Track}

theorem finishes_subs_failed {α : Type} (seg_count : Int) (e : AppError) :
    Finishes env (subs_failed name seg_count e : Request Op α) w (.error e)
      (applied env w (.record_subs name seg_count 0 0)) :=
  .of_alone (by rw [subs_failed, record_subs, alone_bind_ok (Attempts.attempt _ w)]; rfl)

/-- What the loop of the one returns in the other. -/
def Broken.error : Broken → AppError
  | .disabled => .Other "subtitle build aborted (disabled)"
  | .whisper => .Other "whisper"

/-- What the loop leaves: only a failure is recorded. -/
def loop_leaves (env : Env) (name : Text) (s : Steps) (w : World) : Except Broken (List Chunk) → World
  | .error .whisper => applied env w (.record_subs name s.seg_count 0 0)
  | _ => w

theorem finishes_chunks (name : Text) (wav : Track)
    (enabled : ∀ k, alone env (subs_enabled env) w = (.ok (s.enabled k), w)) (rounds k : Nat) :
    Finishes env (transcribe_chunks env name s.seg_count rounds) w
      (((collect (transcribe_window s wav) rounds k).map fun chunks => chunks.map fun c => utf8 c.vtt).mapError
        Broken.error)
      (loop_leaves env name s w (collect (transcribe_window s wav) rounds k)) := by
  induction rounds generalizing k with
  | zero => exact ⟨rfl, rfl⟩
  | succ n ih =>
      rw [transcribe_chunks, collect]
      refine .bind (.of_alone (enabled k)) ?_
      by_cases off : s.enabled k = false
      · -- switched off between two windows
        have window : transcribe_window s wav k = .failed .disabled := if_pos off
        rw [window, Request.err_if, if_pos (by rw [off]; rfl), Request.throw_bind]
        exact ⟨rfl, rfl⟩
      have on : s.enabled k = true := by simpa using off
      rw [Request.err_if, if_neg (by rw [on]; decide)]
      refine Finishes.bind (a := ()) ⟨rfl, rfl⟩ ?_
      cases cut : slice_wav s wav k with
      | none =>
          have window : transcribe_window s wav k = .past := by
            unfold transcribe_window
            rw [if_neg off, cut]
          rw [window]
          exact .bind (.not_encoded _) ⟨rfl, rfl⟩
      | some chunk =>
          refine .bind (.encoded _ []) ?_
          cases reply : s.transcribe k chunk with
          | none =>
              have window : transcribe_window s wav k = .failed .whisper := by
                unfold transcribe_window
                simp only [if_neg off, cut, reply]
              rw [window]
              exact .bind (.not_encoded _) (finishes_subs_failed _ _)
          | some vtt =>
              have window : transcribe_window s wav k = .got ⟨k * 300, vtt⟩ := by
                unfold transcribe_window
                simp only [if_neg off, cut, reply]
              rw [window]
              refine .bind (.encoded _ (utf8 vtt)) ?_
              have more := ih (k + 1)
              cases rest : collect (transcribe_window s wav) n (k + 1) with
              | ok chunks =>
                  rw [rest] at more
                  exact .bind more ⟨rfl, rfl⟩
              | error e =>
                  rw [rest] at more
                  exact .stop more

theorem finishes_publish {seg_count : Int} {bodies : List Bytes} {vtt : Bytes} {cues : Nat}
    (rendered : env.render_vtt bodies = (vtt, cues)) :
    Finishes env (publish_subs env dongle ts seg_count bodies) w (.ok ())
      (applied env (applied env w (.blob_put (.subs dongle ts) vtt))
        (.record_subs (fullname dongle ts) seg_count cues vtt.length)) := by
  have stored : alone env (Request.map_err (execute (.blob_put (.subs dongle ts) vtt)) (.Other "blob write")) w =
      (.ok (), applied env w (.blob_put (.subs dongle ts) vtt)) := by
    rw [alone_map_err, alone_execute rfl]
    rfl
  rw [publish_subs, rendered]
  exact .bind (.of_alone stored) (.of_alone (Attempts.attempt _ _))

/-- The transcript is stored and recorded with the bytes it has. -/
theorem publish_leaves (put : s.put = true) (chunks : List Chunk) :
    (publish s chunks).leaves env dongle ts w =
      applied env (applied env w (.blob_put (.subs dongle ts) (utf8 (render_vtt (chunks.flatMap Chunk.cues)))))
        (.record_subs (fullname dongle ts) s.seg_count (chunks.flatMap Chunk.cues).length
          (utf8 (render_vtt (chunks.flatMap Chunk.cues))).length) := by
  have there : ¬ s.put = false := by rw [put]; decide
  rw [length_utf8, publish, if_neg there]
  rfl

/-- **The same build.**  Whatever becomes of the outside steps, the program over the whole server
can return the same and leave the same. -/
theorem build_subs_of_build (meets : Meets env dongle ts w s) :
    Finishes env (build_subs env dongle ts) w ((build (fullname dongle ts) s).result.map fun _ => ())
      ((build (fullname dongle ts) s).leaves env dongle ts w) := by
  have failed : ∀ e : AppError, (failed_attempt s e).leaves env dongle ts w =
      applied env w (.record_subs (fullname dongle ts) (numbers_with .qcam (fullname dongle ts) w).length 0 0) := by
    intro e
    rw [← meets.seg_count]
    rfl
  have paths : alone env (usable env dongle ts "qcamera.ts" (numbers_with .qcam (fullname dongle ts) w)) w =
      (.ok ((audio_numbers env dongle ts w).map fun n => .segment dongle ts n "qcamera.ts"), w) :=
    alone_usable _ _ _ _ w
  rw [build_subs]
  refine .bind (.of_alone (alone_unwrap_or [] (alone_select _ w))) (.bind (.of_alone paths) ?_)
  by_cases nothing : audio_numbers env dongle ts w = []
  · -- no audio
    rw [if_pos (by rw [nothing]; rfl), build, if_pos (meets.paths.2 nothing), failed]
    exact finishes_subs_failed _ _
  rw [if_neg fun empty => nothing (List.map_eq_nil_iff.1 empty)]
  have asked : s.paths ≠ [] := fun empty => nothing (meets.paths.1 empty)
  cases audio : s.wav with
  | none =>
      rw [build, if_neg asked, if_neg (by rw [meets.created]; decide), audio]
      dsimp only
      rw [failed]
      exact .bind (.not_encoded _) (finishes_subs_failed _ _)
  | some wav =>
      have here : build (fullname dongle ts) s = transcribe_audio s wav := by
        rw [build, if_neg asked, if_neg (by rw [meets.created]; decide), audio]
      have document := meets.document
      rw [here] at document ⊢
      refine .bind (.encoded _ []) ?_
      dsimp only
      rw [transcribe_and_publish]
      refine .bind (.probed s.probe) (.bind (.of_alone meets.url) ?_)
      rw [transcribe_audio] at document ⊢
      by_cases unset : s.url = []
      · rw [if_pos unset, Request.err_if, if_pos unset, Request.throw_bind]
        exact ⟨rfl, rfl⟩
      rw [if_neg unset, if_neg (by rw [meets.client]; decide)] at document ⊢
      rw [Request.err_if, if_neg unset]
      refine Finishes.bind (a := ()) ⟨rfl, rfl⟩ ?_
      have loop := finishes_chunks (fullname dongle ts) wav meets.enabled (rounds s) 0
      rw [meets.seg_count] at loop
      change Finishes env (transcribe_chunks env (fullname dongle ts) _ (rounds s) >>= _) w _ _
      cases collected : collect (transcribe_window s wav) (rounds s) 0 with
      | error e =>
          rw [collected] at loop
          cases e with
          | disabled => exact .stop loop
          | whisper =>
              have after := failed (.Other "whisper")
              dsimp only
              rw [after, ← meets.seg_count]
              exact .stop loop
      | ok chunks =>
          rw [collected] at loop document
          have returned : publish s chunks = { publish s chunks with
              result := .ok (chunks.flatMap Chunk.cues).length, chunks } := by
            have there : ¬ s.put = false := by rw [meets.put]; decide
            rw [publish, if_neg there]
          dsimp only at document ⊢
          rw [publish_leaves meets.put, meets.seg_count, returned]
          rw [returned] at document
          exact .bind loop (finishes_publish document)

end Run

end HomeConnect.Media.Transcribe
