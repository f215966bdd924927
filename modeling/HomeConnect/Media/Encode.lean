/-
# Media.Encode -- concurrent encodes of one output

`ensure_transcode` and `ensure_audio` taken apart into the steps that other calls for the
same output can come between.  An ffmpeg run is a process of its own, which opens the
temporary file, writes to it byte by byte and exits; when the call that waits for it gives up
(the timeout) or is dropped (the client has gone), it goes on as a stray.

`Turned` is everything that a turn of a call can do.
-/
import HomeConnect.Media.Transcode
import HomeConnect.Theory.Pool
import HomeConnect.Theory.Publish

namespace HomeConnect.Media.Encode

open HomeConnect.Theory HomeConnect.Theory.Publish HomeConnect.Storage

set_option autoImplicit false

/-! ## ffmpeg -/

/-- An ffmpeg process that was given the temporary path as its output: the file it opened
there and what it has written to it, `none` before it did. -/
abbrev Run := Work UInt8

/-- What an ffmpeg process does before it exits. -/
inductive Act
  | open_out
  | write (b : UInt8)
deriving DecidableEq, Repr

def run_step (tmp : Text) : Run → Act → Files Text UInt8 → Option (Files Text UInt8 × Run)
  | none, .open_out, f => some ((f.create tmp).1, some ((f.create tmp).2, []))
  | some (x, written), .write b, f =>
      some (f.write x written.length b, some (x, written ++ [b]))
  | _, _, _ => none

/-! ## The calls -/

/-- What is to be made, and what differs between the two functions. -/
structure Job where
  name : TsName
  /-- The error of a call that is refused before it looks at anything. -/
  refuse : Option AppError := none
  /-- A GPU may be selected. -/
  gpu : Bool
  missing : Text
  failed : Text
deriving Repr

def ensure_transcode (dongle ts : Text) (seg : Int) (cam : Text) : Job where
  name := cache_path dongle ts seg cam
  refuse := if camera_source cam = none then some (.BadRequest ("not a transcodable camera: " ++ cam))
    else none
  gpu := true
  missing := "no " ++ (camera_source cam).getD [] ++ " for segment"
  failed := "ffmpeg transcode failed for " ++ cam

def ensure_audio (dongle ts : Text) (seg : Int) : Job where
  name := audio_path dongle ts seg
  gpu := false
  missing := "no qcamera for segment"
  failed := "audio extract failed"

def Job.out (job : Job) : Text := job.name.file

/-- `out.with_extension("tmp.ts")`. -/
def Job.tmp (job : Job) : Text := Text.with_extension job.out "tmp.ts"

/-- The permits of the semaphore, by the available parallelism. -/
def permits (parallelism : Nat) : Nat := max (parallelism / 2) 2

/-- What the calls share.  `outputs` is history: what the runs wrote that exited with success. -/
structure Cache where
  files : Files Text UInt8
  permits : Nat
  /-- Permits that calls for other outputs hold. -/
  elsewhere : Nat := 0
  strays : List Run := []
  outputs : List Bytes := []

def Cache.release (s : Cache) : Cache := { s with permits := s.permits + 1 }

/-- A call, by what it does next. -/
inductive Call
  /-- `try_exists(&out)` -/
  | look
  /-- `try_exists(&src)` -/
  | source
  | create_dir
  | acquire
  /-- `try_exists(&out)` again, with a permit from here on. -/
  | look_again
  /-- `current_device` -/
  | device
  /-- `run_ffmpeg(gpu_args(..))` -/
  | gpu (r : Run)
  /-- `remove_file(&tmp)` after the GPU failed. -/
  | remove_gpu
  /-- `run_ffmpeg(cpu_args(..))`, or the extraction of the audio. -/
  | cpu (r : Run)
  /-- `rename(&tmp, &out)` after a run that wrote so much to the file `x`. -/
  | rename (x : Nat) (written : Bytes)
  /-- `remove_file(&tmp)` after the last run failed. -/
  | remove
  | ret (r : AppResult TsName)
  /-- Dropped, with the file system still at the removal. -/
  | late_remove
  /-- Dropped, with the file system still at the renaming. -/
  | late_rename (x : Nat) (written : Bytes)
  | dropped
deriving DecidableEq

/-- A call begins. -/
def Job.call (job : Job) : Call :=
  match job.refuse with
  | some e => .ret (.error e)
  | none => .look

/-- What a call does when the output was not cached in the meantime. -/
def Job.begin (job : Job) : Call := if job.gpu then .device else .cpu none

inductive Outcome
  | ok
  | fault
  /-- The source is there; a GPU is selected. -/
  | answer (yes : Bool)
  /-- The ffmpeg that the call waits for takes a step. -/
  | ffmpeg (a : Act)
  | exit (success : Bool)
  | timeout
  /-- The client has gone, and the call with it. -/
  | gone
deriving DecidableEq, Repr

/-- One step of a call that is not dropped. -/
def Call.advance (job : Job) : Call → Outcome → Cache → Option (Cache × Call)
  | .look, .ok, s =>
      some (s, if (s.files.names job.out).isSome then .ret (.ok job.name) else .source)
  -- `try_exists(..).unwrap_or(false)`
  | .look, .fault, s => some (s, .source)
  | .source, .answer found, s =>
      some (s, if found then .create_dir else .ret (.error (.NotFound job.missing)))
  | .create_dir, .ok, s => some (s, .acquire)
  | .create_dir, .fault, s => some (s, .ret (.error (.Other "create_dir_all")))
  | .acquire, .ok, s =>
      if 0 < s.permits then some ({ s with permits := s.permits - 1 }, .look_again) else none
  | .look_again, .ok, s =>
      if (s.files.names job.out).isSome then some (s.release, .ret (.ok job.name))
      else some (s, job.begin)
  | .look_again, .fault, s => some (s, job.begin)
  | .device, .answer selected, s => some (s, if selected then .gpu none else .cpu none)
  | .gpu r, .ffmpeg a, s =>
      (run_step job.tmp r a s.files).map fun q => ({ s with files := q.1 }, .gpu q.2)
  | .gpu (some (x, written)), .exit true, s =>
      some ({ s with outputs := s.outputs ++ [written] }, .rename x written)
  | .gpu _, .exit false, s => some (s, .remove_gpu)
  | .gpu r, .timeout, s => some ({ s with strays := s.strays ++ [r] }, .remove_gpu)
  | .remove_gpu, .ok, s => some ({ s with files := s.files.unlink job.tmp }, .cpu none)
  | .remove_gpu, .fault, s => some (s, .cpu none)
  | .cpu r, .ffmpeg a, s =>
      (run_step job.tmp r a s.files).map fun q => ({ s with files := q.1 }, .cpu q.2)
  | .cpu (some (x, written)), .exit true, s =>
      some ({ s with outputs := s.outputs ++ [written] }, .rename x written)
  | .cpu _, .exit false, s => some (s, .remove)
  | .cpu r, .timeout, s => some ({ s with strays := s.strays ++ [r] }, .remove)
  | .rename _ _, .ok, s =>
      match s.files.rename job.tmp job.out with
      | some f => some ({ s with files := f }.release, .ret (.ok job.name))
      | none => some (s.release, .ret (.error (.Other "rename")))
  | .rename _ _, .fault, s => some (s.release, .ret (.error (.Other "rename")))
  | .remove, .ok, s =>
      some ({ s with files := s.files.unlink job.tmp }.release, .ret (.error (.Other job.failed)))
  | .remove, .fault, s => some (s.release, .ret (.error (.Other job.failed)))
  | .late_remove, .ok, s => some ({ s with files := s.files.unlink job.tmp }, .dropped)
  | .late_remove, .fault, s => some (s, .dropped)
  | .late_rename _ _, .ok, s =>
      match s.files.rename job.tmp job.out with
      | some f => some ({ s with files := f }, .dropped)
      | none => some (s, .dropped)
  | .late_rename _ _, .fault, s => some (s, .dropped)
  | _, _, _ => none

/-- A call is dropped where it stands: its permit is given back, its ffmpeg goes on, and so
does what it asked of the file system. -/
def Call.drop : Call → Cache → Option (Cache × Call)
  | .look, s | .source, s | .create_dir, s | .acquire, s => some (s, .dropped)
  | .look_again, s | .device, s => some (s.release, .dropped)
  | .gpu r, s | .cpu r, s => some ({ s with strays := s.strays ++ [r] }.release, .dropped)
  | .remove_gpu, s | .remove, s => some (s.release, .late_remove)
  | .rename x written, s => some (s.release, .late_rename x written)
  | .ret _, _ | .late_remove, _ | .late_rename _ _, _ | .dropped, _ => none

def Call.turn (job : Job) (c : Call) (o : Outcome) (s : Cache) : Option (Cache × Call) :=
  match o with
  | .gone => c.drop s
  | o => c.advance job o s

/-- What happens beside the calls' turns. -/
inductive Outside
  | call
  | stray (k : Nat) (a : Act)
  /-- A stray exits. -/
  | reaped (k : Nat)
  | take
  | give
deriving DecidableEq, Repr

def act (job : Job) : Outside → Cache → Option (Cache × List Call)
  | .call, s => some (s, [job.call])
  | .stray k a, s =>
      (s.strays[k]?).bind fun r => (run_step job.tmp r a s.files).map fun q =>
        ({ s with files := q.1, strays := s.strays.set k q.2 }, [])
  | .reaped k, s => some ({ s with strays := s.strays.eraseIdx k }, [])
  | .take, s =>
      if 0 < s.permits then
        some ({ s with permits := s.permits - 1, elsewhere := s.elsewhere + 1 }, [])
      else none
  | .give, s =>
      if 0 < s.elsewhere then
        some ({ s with permits := s.permits + 1, elsewhere := s.elsewhere - 1 }, [])
      else none

abbrev State := Pool Cache Call

abbrev Event := Pool.Event Outside Outcome

def system (job : Job) : System State Event := (Pool.Rules.mk (act job) (Call.turn job)).system

/-- No call has begun; `files` is what the directory holds, `outputs` what made it. -/
def start (files : Files Text UInt8) (permits : Nat) (outputs : List Bytes) : State :=
  ⟨{ files, permits, outputs }, []⟩

namespace Call

/-- The run a call waits for. -/
def run : Call → Option Run
  | gpu r => some r
  | cpu r => some r
  | _ => none

/-- The file a call's run has open, or the call will rename, and what is in it. -/
def work : Call → Work UInt8
  | gpu r => r
  | cpu r => r
  | rename x written => some (x, written)
  | late_rename x written => some (x, written)
  | _ => none

/-- What is in the file that the call will rename. -/
def whole : Call → Option Bytes
  | rename _ written => some written
  | late_rename _ written => some written
  | _ => none

end Call

/-! ## What a turn does -/

section Turn

variable {job : Job} {o : Outcome} {s s' : Cache} {c c' : Call}

theorem run_effect {tmp path : Text} {complete : Bytes → Prop} {r r' : Run} {a : Act}
    {f g : Files Text UInt8} (stepped : run_step tmp r a f = some (g, r')) :
    Effect tmp path complete f r g r' := by
  cases a with
  | open_out =>
      cases r with
      | none =>
          cases stepped
          exact .opened f
      | some work => cases stepped
  | write b =>
      cases r with
      | none => cases stepped
      | some work =>
          cases stepped
          exact .wrote f work.1 work.2 b

theorem run_opens {tmp : Text} {r' : Run} {a : Act} {f g : Files Text UInt8}
    (stepped : run_step tmp none a f = some (g, r')) : a = .open_out := by
  cases a with
  | open_out => rfl
  | write b => cases stepped

/-- Everything a turn can do. -/
structure Turned (job : Job) (s : Cache) (c : Call) (o : Outcome) (s' : Cache) (c' : Call) : Prop where
  effect : Effect job.tmp job.out (fun w => c.whole = some w) s.files c.work s'.files c'.work
  strays : s'.strays = s.strays ∨ s'.strays = s.strays ++ [c.work] ∧ c'.work = none ∧
    s'.files = s.files
  outputs : s.outputs ⊆ s'.outputs
  opens : c.work = none → c'.work ≠ none → o = .ffmpeg .open_out
  whole : ∀ w, c'.whole = some w → c.whole = some w ∨ w ∈ s'.outputs
  answers : ∀ r, c' = .ret (.ok r) → r = job.name ∧ s'.files.names job.out ≠ none

/-- A step that leaves the files alone, after which the call has none in hand. -/
theorem Turned.quiet (files : s'.files = s.files) (strays : s'.strays = s.strays)
    (outputs : s'.outputs = s.outputs) (idle : c'.work = none) (unfinished : c'.whole = none)
    (answers : ∀ r, c' = .ret (.ok r) → r = job.name ∧ s.files.names job.out ≠ none) :
    Turned job s c o s' c' where
  effect := by
    rw [idle, files]
    exact .given_up _ _
  strays := .inl strays
  outputs := outputs ▸ List.Subset.refl _
  opens := fun _ busy => (busy idle).elim
  whole := fun w is => by cases unfinished.symm.trans is
  answers := fun r is => files ▸ answers r is

/-- The removal of the temporary file. -/
theorem Turned.remove (files : s'.files = s.files.unlink job.tmp) (strays : s'.strays = s.strays)
    (outputs : s'.outputs = s.outputs) (idle : c.work = none) (idle' : c'.work = none)
    (unfinished : c'.whole = none) (unanswered : ∀ q, c' ≠ .ret (.ok q)) : Turned job s c o s' c' where
  effect := by
    rw [idle, idle', files]
    exact .removed _
  strays := .inl strays
  outputs := outputs ▸ List.Subset.refl _
  opens := fun _ busy => (busy idle').elim
  whole := fun w is => by cases unfinished.symm.trans is
  answers := fun r is => (unanswered r is).elim

/-- A step of the run that a call waits for. -/
theorem Turned.run {r r' : Run} {a : Act} {f : Files Text UInt8} (work : c.work = r)
    (work' : c'.work = r') (stepped : run_step job.tmp r a s.files = some (f, r'))
    (unfinished : c'.whole = none) (unanswered : ∀ q, c' ≠ .ret q) :
    Turned job s c (.ffmpeg a) { s with files := f } c' where
  effect := by
    rw [work, work']
    exact run_effect stepped
  strays := .inl rfl
  outputs := List.Subset.refl _
  opens := fun idle _ => by
    cases work.symm.trans idle
    rw [run_opens stepped]
  whole := fun w is => by cases unfinished.symm.trans is
  answers := fun r is => (unanswered _ is).elim

/-- The run that a call waits for exits with success. -/
theorem Turned.exit {x : Nat} {written : Bytes} (work : c.work = some (x, written)) :
    Turned job s c o { s with outputs := s.outputs ++ [written] } (.rename x written) where
  effect := by
    rw [work]
    exact .paused _ _ _
  strays := .inl rfl
  outputs := List.subset_append_left _ _
  opens := fun idle _ => by cases idle.symm.trans work
  whole := fun w is => by
    cases is
    exact .inr (List.mem_append_right _ List.mem_cons_self)
  answers := nofun

/-- The run that a call waits for is left to itself. -/
theorem Turned.stray (files : s'.files = s.files) (strays : s'.strays = s.strays ++ [c.work])
    (outputs : s'.outputs = s.outputs) (idle : c'.work = none) (unfinished : c'.whole = none)
    (unanswered : ∀ q, c' ≠ .ret q) : Turned job s c o s' c' where
  effect := by
    rw [idle, files]
    exact .given_up _ _
  strays := .inr ⟨strays, idle, files⟩
  outputs := outputs ▸ List.Subset.refl _
  opens := fun _ busy => (busy idle).elim
  whole := fun w is => by cases unfinished.symm.trans is
  answers := fun r is => (unanswered _ is).elim

/-- The output is renamed into place. -/
theorem Turned.rename {x : Nat} {written : Bytes} {f : Files Text UInt8}
    (work : c.work = some (x, written)) (whole : c.whole = some written)
    (renamed : s.files.rename job.tmp job.out = some f) (files : s'.files = f)
    (strays : s'.strays = s.strays) (outputs : s'.outputs = s.outputs) (idle : c'.work = none)
    (done : c'.whole = none) (answers : ∀ q, c' = .ret (.ok q) → q = job.name) :
    Turned job s c o s' c' where
  effect := by
    rw [work, idle, files]
    exact .renamed _ f x written whole renamed
  strays := .inl strays
  outputs := outputs ▸ List.Subset.refl _
  opens := fun _ busy => (busy idle).elim
  whole := fun w is => by cases done.symm.trans is
  answers := fun r is => by
    obtain ⟨y, _, names, _⟩ := Files.rename_eq_some renamed
    refine ⟨answers r is, ?_⟩
    rw [files, names, if_pos rfl]
    exact nofun

theorem turned_of_drop (dropped : c.drop s = some (s', c')) : Turned job s c o s' c' := by
  cases c with
  | ret r => cases dropped
  | late_remove => cases dropped
  | late_rename x written => cases dropped
  | dropped => cases dropped
  | gpu r =>
      cases dropped
      exact .stray rfl rfl rfl rfl rfl nofun
  | cpu r =>
      cases dropped
      exact .stray rfl rfl rfl rfl rfl nofun
  | rename x written =>
      cases dropped
      exact {
        effect := .paused _ _ _
        strays := .inl rfl
        outputs := List.Subset.refl _
        opens := nofun
        whole := fun w is => .inl is
        answers := nofun }
  | _ =>
      cases dropped
      exact .quiet rfl rfl rfl rfl rfl nofun

theorem work_begin (job : Job) : job.begin.work = none ∧ job.begin.whole = none ∧
    ∀ q, job.begin ≠ .ret q := by
  unfold Job.begin
  split
  · exact ⟨rfl, rfl, nofun⟩
  · exact ⟨rfl, rfl, nofun⟩

theorem turned_of_advance (advanced : c.advance job o s = some (s', c')) :
    Turned job s c o s' c' := by
  obtain ⟨begin_work, begin_whole, begin_ret⟩ := work_begin job
  cases c with
  | look =>
      cases o with
      | ok =>
          cases advanced
          by_cases cached : (s.files.names job.out).isSome = true
          · rw [if_pos cached]
            refine .quiet rfl rfl rfl rfl rfl fun r is => ?_
            cases is
            exact ⟨rfl, Option.isSome_iff_ne_none.1 cached⟩
          · rw [if_neg cached]
            exact .quiet rfl rfl rfl rfl rfl nofun
      | fault =>
          cases advanced
          exact .quiet rfl rfl rfl rfl rfl nofun
      | _ => cases advanced
  | source =>
      cases o with
      | answer found =>
          cases advanced
          cases found with
          | true => exact .quiet rfl rfl rfl rfl rfl nofun
          | false => exact .quiet rfl rfl rfl rfl rfl nofun
      | _ => cases advanced
  | create_dir =>
      cases o with
      | ok =>
          cases advanced
          exact .quiet rfl rfl rfl rfl rfl nofun
      | fault =>
          cases advanced
          exact .quiet rfl rfl rfl rfl rfl nofun
      | _ => cases advanced
  | acquire =>
      cases o with
      | ok =>
          obtain ⟨_, is⟩ := Option.ite_none_right_eq_some.1 advanced
          cases is
          exact .quiet rfl rfl rfl rfl rfl nofun
      | _ => cases advanced
  | look_again =>
      cases o with
      | ok =>
          simp only [Call.advance] at advanced
          split at advanced
          · rename_i cached
            cases advanced
            refine .quiet rfl rfl rfl rfl rfl fun r is => ?_
            cases is
            exact ⟨rfl, Option.isSome_iff_ne_none.1 cached⟩
          · cases advanced
            exact .quiet rfl rfl rfl begin_work begin_whole fun r is => (begin_ret _ is).elim
      | fault =>
          cases advanced
          exact .quiet rfl rfl rfl begin_work begin_whole fun r is => (begin_ret _ is).elim
      | _ => cases advanced
  | device =>
      cases o with
      | answer selected =>
          cases advanced
          cases selected with
          | true => exact .quiet rfl rfl rfl rfl rfl nofun
          | false => exact .quiet rfl rfl rfl rfl rfl nofun
      | _ => cases advanced
  | gpu r =>
      cases o with
      | ffmpeg a =>
          obtain ⟨q, stepped, is⟩ := Option.map_eq_some_iff.1 advanced
          cases is
          exact .run rfl rfl stepped rfl nofun
      | exit success =>
          cases success with
          | true =>
              cases r with
              | none => cases advanced
              | some work =>
                  cases advanced
                  exact .exit rfl
          | false =>
              cases advanced
              exact .quiet rfl rfl rfl rfl rfl nofun
      | timeout =>
          cases advanced
          exact .stray rfl rfl rfl rfl rfl nofun
      | _ => cases advanced
  | remove_gpu =>
      cases o with
      | ok =>
          cases advanced
          exact .remove rfl rfl rfl rfl rfl rfl nofun
      | fault =>
          cases advanced
          exact .quiet rfl rfl rfl rfl rfl nofun
      | _ => cases advanced
  | cpu r =>
      cases o with
      | ffmpeg a =>
          obtain ⟨q, stepped, is⟩ := Option.map_eq_some_iff.1 advanced
          cases is
          exact .run rfl rfl stepped rfl nofun
      | exit success =>
          cases success with
          | true =>
              cases r with
              | none => cases advanced
              | some work =>
                  cases advanced
                  exact .exit rfl
          | false =>
              cases advanced
              exact .quiet rfl rfl rfl rfl rfl nofun
      | timeout =>
          cases advanced
          exact .stray rfl rfl rfl rfl rfl nofun
      | _ => cases advanced
  | rename x written =>
      cases o with
      | ok =>
          simp only [Call.advance] at advanced
          split at advanced
          · rename_i f renamed
            cases advanced
            refine .rename rfl rfl renamed rfl rfl rfl rfl rfl fun q is => ?_
            cases is
            rfl
          · cases advanced
            exact .quiet rfl rfl rfl rfl rfl nofun
      | fault =>
          cases advanced
          exact .quiet rfl rfl rfl rfl rfl nofun
      | _ => cases advanced
  | remove =>
      cases o with
      | ok =>
          cases advanced
          exact .remove rfl rfl rfl rfl rfl rfl nofun
      | fault =>
          cases advanced
          exact .quiet rfl rfl rfl rfl rfl nofun
      | _ => cases advanced
  | late_remove =>
      cases o with
      | ok =>
          cases advanced
          exact .remove rfl rfl rfl rfl rfl rfl nofun
      | fault =>
          cases advanced
          exact .quiet rfl rfl rfl rfl rfl nofun
      | _ => cases advanced
  | late_rename x written =>
      cases o with
      | ok =>
          simp only [Call.advance] at advanced
          split at advanced
          · rename_i f renamed
            cases advanced
            exact .rename rfl rfl renamed rfl rfl rfl rfl rfl nofun
          · cases advanced
            exact .quiet rfl rfl rfl rfl rfl nofun
      | fault =>
          cases advanced
          exact .quiet rfl rfl rfl rfl rfl nofun
      | _ => cases advanced
  | ret r => cases o <;> cases advanced
  | dropped => cases o <;> cases advanced

theorem turned_of_turn (turned : c.turn job o s = some (s', c')) : Turned job s c o s' c' := by
  cases o with
  | gone => exact turned_of_drop turned
  | _ => exact turned_of_advance turned

end Turn

end HomeConnect.Media.Encode
