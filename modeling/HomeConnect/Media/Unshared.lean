/-
# Media.Unshared -- when encodes of one output share no file

The semaphore bounds encodes altogether, not those of one output, so two runs may write one
temporary file.  When a run opens its output only while nobody else is at work on it and none
is cached (`undisturbed`), no two runs write one file, and what a call returns is complete and
stays (`outputs_not_shared`).  Otherwise not (`two_runs_one_file`).
-/
import HomeConnect.Media.Encode

namespace HomeConnect.Media.Encode

open HomeConnect.Theory HomeConnect.Theory.Publish HomeConnect.Storage

set_option autoImplicit false

/-! ## What is promised -/

/-- The file a run has open. -/
def file (r : Run) : Option Nat := r.map Prod.fst

/-- The runs in progress: those that calls wait for, and the strays. -/
def runs (p : State) : List Run := p.tasks.filterMap Call.run ++ p.shared.strays

/-- The runs that write the file at the temporary path. -/
def writing (job : Job) (p : State) : List Run :=
  (runs p).filter fun r => r.isSome && file r = p.shared.files.names job.tmp

/-- A run opens its output only while no other call has a run's output in hand and no stray
writes the file at the temporary path; and a call's run only while nothing is cached. -/
def undisturbed (job : Job) (p : State) : Event → Prop
  | .turn _ (.ffmpeg .open_out) => p.shared.files.names job.out = none ∧
      (∀ c ∈ p.tasks, c.work = none) ∧
      ∀ r ∈ p.shared.strays, r = none ∨ file r ≠ p.shared.files.names job.tmp
  | .act (.stray _ .open_out) => (∀ c ∈ p.tasks, c.work = none) ∧
      ∀ r ∈ p.shared.strays, r = none ∨ file r ≠ p.shared.files.names job.tmp
  | _ => True

/-- Encodes of one output never share a file. -/
structure Unshared (ok : State → Event → Prop) (job : Job) (p : State) : Prop where
  /-- No two runs have one file open. -/
  apart : ((runs p).filterMap file).Nodup
  /-- At most one run writes the file at the temporary path. -/
  one : (writing job p).length ≤ 1
  /-- A call that returns `Ok` returns the cached path, which holds the complete output of a
  run that exited with success. -/
  complete : ∀ r, .ret (.ok r) ∈ p.tasks → r = job.name ∧
    ∃ bytes ∈ p.shared.outputs, p.shared.files.read job.out = some bytes
  /-- And its content is never modified afterwards. -/
  kept : ∀ r, .ret (.ok r) ∈ p.tasks → ∀ q, (system job).Reach ok p q →
    q.shared.files.read job.out = p.shared.files.read job.out

/-! ## What holds at every state -/

/-- The temporary file is beside the output, not the output itself. -/
theorem out_ne_tmp (job : Job) : job.out ≠ job.tmp := by
  obtain ⟨stem, is, nonempty⟩ : ∃ stem : Text, job.out = stem ++ "." ++ "ts" ∧ stem ≠ [] := by
    refine ⟨job.name.dongle ++ "_" ++ job.name.ts ++ "--" ++ Text.decimal job.name.seg ++ "--" ++
      job.name.stem, ?_, by simp⟩
    rw [List.append_assoc _ ("." : Text)]
    rfl
  have plain : '.' ∉ ("ts" : Text) := by decide
  intro same
  rw [Job.tmp, Text.with_extension, is, Text.file_stem_append plain nonempty,
    List.append_assoc, List.append_assoc] at same
  have extensions := List.append_cancel_left same
  exact absurd extensions (by decide)

/-- Invariant of the runs in which nobody is disturbed. -/
structure Sound (job : Job) (p : State) : Prop where
  one : p.tasks.countP (fun c => c.work.isSome) ≤ 1
  owns : ∀ c ∈ p.tasks, ∀ x w, c.work = some (x, w) → Owns job.tmp job.out p.shared.files x w ∧
    p.shared.files.names job.out = none ∧ ∀ r ∈ p.shared.strays, file r ≠ some x
  whole : ∀ c ∈ p.tasks, ∀ w, c.whole = some w → w ∈ p.shared.outputs
  strays_apart : ∀ x, p.shared.strays.countP (fun r => file r == some x) ≤ 1
  strays : ∀ r ∈ p.shared.strays, ∀ x, file r = some x →
    x < p.shared.files.data.length ∧ p.shared.files.names job.out ≠ some x
  cached : ∀ x, p.shared.files.names job.out = some x → p.shared.files.bytes x ∈ p.shared.outputs
  answered : ∀ r, .ret (.ok r) ∈ p.tasks → r = job.name ∧ p.shared.files.names job.out ≠ none

/-- What is cached is still there, as it was. -/
def Keeps (job : Job) (f g : Files Text UInt8) : Prop :=
  ∀ y, f.names job.out = some y → g.names job.out = some y ∧ g.bytes y = f.bytes y

theorem Keeps.refl (job : Job) (f : Files Text UInt8) : Keeps job f f := fun _ named => ⟨named, rfl⟩

section Run

variable {job : Job}

theorem keeps_of_effect {complete : Bytes → Prop} {f g : Files Text UInt8} {work work' : Run}
    (effect : Effect job.tmp job.out complete f work g work')
    (owns : ∀ x w, work = some (x, w) → f.names job.out = none) : Keeps job f g := by
  intro y named
  have apart : f.names job.tmp ≠ some y := fun other => out_ne_tmp job (f.apart named other)
  have free : work ≠ none → f.names job.out = none := by
    intro busy
    obtain ⟨⟨x, w⟩, is⟩ := Option.ne_none_iff_exists'.1 busy
    exact owns x w is
  have other : ∀ x w, work = some (x, w) → y ≠ x := by
    intro x w is
    cases (owns x w is).symm.trans named
  exact ⟨effect.stays (out_ne_tmp job) free named,
    (effect.settled (out_ne_tmp job) (f.bound named) apart other).1⟩

theorem Sound.turn {p : State} (sound : Sound job p) {i : Nat} {o : Outcome} {c c' : Call}
    {s : Cache} (admitted : undisturbed job p (.turn i o)) (found : p.tasks[i]? = some c)
    (turned : Turned job p.shared c o s c') :
    Sound job ⟨s, p.tasks.set i c'⟩ ∧ Keeps job p.shared.files s.files := by
  have listed : c ∈ p.tasks := List.mem_of_getElem? found
  have ne := out_ne_tmp job
  have own : ∀ x w, c.work = some (x, w) → Owns job.tmp job.out p.shared.files x w :=
    fun x w is => (sound.owns c listed x w is).1
  have keeps : Keeps job p.shared.files s.files :=
    keeps_of_effect turned.effect fun x w is => (sound.owns c listed x w is).2.1
  -- whoever has a file in hand after the turn, or before it, is the only one
  have opened : c.work = none → c'.work ≠ none → p.shared.files.names job.out = none ∧
      (∀ m ∈ p.tasks, m.work = none) ∧
      ∀ r ∈ p.shared.strays, r = none ∨ file r ≠ p.shared.files.names job.tmp := by
    intro idle busy
    cases turned.opens idle busy
    exact admitted
  have others : ∀ j m x w, p.tasks[j]? = some m → j ≠ i → m.work = some (x, w) →
      c.work = none ∧ c'.work = none := by
    intro j m x w other away busy
    have idle : c.work = none := by
      by_contra own_work
      have none := Pool.not_of_countP sound.one found (Option.isSome_iff_ne_none.2 own_work) other away
      rw [busy] at none
      cases none
    refine ⟨idle, ?_⟩
    by_contra own_work
    cases ((opened idle own_work).2.1 m (List.mem_of_getElem? other)).symm.trans busy
  -- a stray's file is not the one at the temporary path of whoever goes on with a file
  have apart : c'.work ≠ none → ∀ r ∈ p.shared.strays, ∀ y, file r = some y →
      p.shared.files.names job.tmp ≠ some y ∧ ∀ x w, c.work = some (x, w) → y ≠ x := by
    intro busy r member y is
    cases before : c.work with
    | none =>
        refine ⟨fun named => ?_, nofun⟩
        rcases (opened before busy).2.2 r member with none | away
        · rw [none] at is
          cases is
        · exact away (is.trans named.symm)
    | some work =>
        obtain ⟨own, _, away⟩ := sound.owns c listed work.1 work.2 before
        have different : y ≠ work.1 := fun same => away r member (same ▸ is)
        refine ⟨fun named => different (own.tmp y named), ?_⟩
        rintro x w ⟨⟩
        exact different
  refine ⟨⟨?_, ?_, ?_, ?_, ?_, ?_, ?_⟩, keeps⟩
  · refine Pool.countP_set_le_one found sound.one fun busy idle m member => ?_
    have idle' := Option.isNone_iff_eq_none.1 (Option.isSome_eq_false_iff.1 idle)
    rw [(opened idle' (Option.isSome_iff_ne_none.1 busy)).2.1 m member]
    rfl
  · intro m member x w work
    rcases Pool.mem_set_cases member with rfl | ⟨j, away, other⟩
    · have busy : m.work ≠ none := by
        rw [work]
        exact nofun
      refine ⟨turned.effect.owns ne own x w work, ?_, ?_⟩
      · by_contra named
        obtain ⟨y, named⟩ := Option.ne_none_iff_exists'.1 named
        rcases turned.effect.published ne own named with before | ⟨idle, _⟩
        · cases idle : c.work with
          | none => cases (opened idle busy).1.symm.trans before
          | some work' => cases (sound.owns c listed _ _ idle).2.1.symm.trans before
        · exact busy idle
      · rcases turned.strays with same | ⟨_, idle, _⟩
        · rw [same]
          intro r member' is
          obtain ⟨open_tmp, different⟩ := apart busy r member' x is
          exact turned.effect.apart (sound.strays r member' x is).1 open_tmp different x w work rfl
        · exact (busy idle).elim
    · obtain ⟨idle, idle'⟩ := others j m x w other away work
      obtain ⟨owned, empty, strays⟩ := sound.owns m (List.mem_of_getElem? other) x w work
      have effect := turned.effect
      rw [idle, idle'] at effect
      obtain ⟨owned', path⟩ := effect.others ne owned
      refine ⟨owned', path.trans empty, ?_⟩
      rcases turned.strays with same | ⟨more, _, _⟩
      · rw [same]
        exact strays
      · rw [more]
        intro r member'
        rcases List.mem_append.1 member' with old | new
        · exact strays r old
        · rw [List.mem_singleton.1 new, idle]
          exact nofun
  · intro m member w whole
    rcases Pool.mem_set_cases member with rfl | ⟨j, _, other⟩
    · rcases turned.whole w whole with before | after
      · exact turned.outputs (sound.whole c listed w before)
      · exact after
    · exact turned.outputs (sound.whole m (List.mem_of_getElem? other) w whole)
  · intro x
    rcases turned.strays with same | ⟨more, _, _⟩
    · rw [same]
      exact sound.strays_apart x
    · rw [more, List.countP_append, List.countP_singleton]
      by_cases own_file : file c.work = some x
      · have none : p.shared.strays.countP (fun r => file r == some x) = 0 := by
          refine List.countP_eq_zero.2 fun r member is => ?_
          obtain ⟨⟨y, w⟩, work, rfl⟩ := Option.map_eq_some_iff.1 own_file
          exact (sound.owns c listed y w work).2.2 r member (eq_of_beq is)
        rw [none]
        split <;> omega
      · have not : ¬ (file c.work == some x) = true := fun is => own_file (eq_of_beq is)
        rw [if_neg not]
        exact sound.strays_apart x
  · intro r member x is
    rcases turned.strays with same | ⟨more, idle, files⟩
    · rw [same] at member
      obtain ⟨bound, away⟩ := sound.strays r member x is
      refine ⟨Nat.lt_of_lt_of_le bound turned.effect.grows, fun named => ?_⟩
      rcases turned.effect.published ne own named with before | ⟨_, _, _, w, work⟩
      · exact away before
      · exact (sound.owns c listed x w work).2.2 r member is
    · rw [files]
      rw [more] at member
      rcases List.mem_append.1 member with old | new
      · exact sound.strays r old x is
      · rw [List.mem_singleton.1 new] at is
        obtain ⟨⟨y, w⟩, work, rfl⟩ := Option.map_eq_some_iff.1 is
        obtain ⟨owned, empty, _⟩ := sound.owns c listed y w work
        refine ⟨owned.bound, ?_⟩
        rw [empty]
        exact nofun
  · intro y named
    rcases turned.effect.published ne own named with before | ⟨_, _, whole, _⟩
    · rw [(keeps y before).2]
      exact turned.outputs (sound.cached y before)
    · exact turned.outputs (sound.whole c listed _ whole)
  · intro r member
    rcases Pool.mem_set_cases member with rfl | ⟨j, _, other⟩
    · exact turned.answers r rfl
    · obtain ⟨name, cached⟩ := sound.answered r (List.mem_of_getElem? other)
      obtain ⟨y, named⟩ := Option.ne_none_iff_exists'.1 cached
      refine ⟨name, ?_⟩
      rw [(keeps y named).1]
      exact nofun

/-- A step of a stray. -/
theorem Sound.stray {p : State} (sound : Sound job p) {k : Nat} {a : Act} {r r' : Run}
    {f : Files Text UInt8} (admitted : undisturbed job p (.act (.stray k a)))
    (found : p.shared.strays[k]? = some r)
    (stepped : run_step job.tmp r a p.shared.files = some (f, r')) :
    Sound job ⟨{ p.shared with files := f, strays := p.shared.strays.set k r' }, p.tasks⟩ ∧
      Keeps job p.shared.files f := by
  have ne := out_ne_tmp job
  have listed : r ∈ p.shared.strays := List.mem_of_getElem? found
  have effect : Effect job.tmp job.out (fun _ => False) p.shared.files r f r' := run_effect stepped
  have away : ∀ x w, r = some (x, w) → p.shared.files.names job.out ≠ some x := by
    rintro x w rfl
    exact (sound.strays _ listed x rfl).2
  have names := effect.in_place ne
  have keeps : Keeps job p.shared.files f := by
    intro y named
    have open_tmp : p.shared.files.names job.tmp ≠ some y :=
      fun other => ne (p.shared.files.apart named other)
    have different : ∀ x w, r = some (x, w) → y ≠ x := by
      rintro x w is rfl
      exact away _ w is named
    exact ⟨names.trans named,
      (effect.settled ne (p.shared.files.bound named) open_tmp different).1⟩
  -- a run that opens its output finds nobody at work
  have opened : r = none → (∀ c ∈ p.tasks, c.work = none) ∧
      ∀ r ∈ p.shared.strays, r = none ∨ file r ≠ p.shared.files.names job.tmp := by
    rintro rfl
    cases run_opens stepped
    exact admitted
  have same_file : ∀ work, r = some work → file r' = some work.1 := by
    rintro work rfl
    cases a with
    | open_out => cases stepped
    | write b =>
        cases stepped
        rfl
  have fresh : ∀ x, r = none → file r' = some x → ∀ q ∈ p.shared.strays, file q ≠ some x := by
    intro x none is q member is'
    obtain ⟨⟨y, w⟩, work, rfl⟩ := Option.map_eq_some_iff.1 is
    have open_tmp : p.shared.files.names job.tmp ≠ some y := by
      intro named
      rcases (opened none).2 q member with idle | other
      · rw [idle] at is'
        cases is'
      · exact other (is'.trans named.symm)
    refine effect.apart (sound.strays q member y is').1 open_tmp ?_ y w work rfl
    rw [none]
    exact nofun
  refine ⟨⟨sound.one, ?_, sound.whole, ?_, ?_, ?_, ?_⟩, keeps⟩
  · intro c member x w work
    obtain ⟨owned, empty, strays⟩ := sound.owns c member x w work
    cases before : r with
    | none => cases ((opened before).1 c member).symm.trans work
    | some own =>
        have other : x ≠ own.1 := by
          rintro rfl
          exact strays r listed (before ▸ rfl)
        rw [before] at stepped
        cases a with
        | open_out => cases stepped
        | write b =>
            cases stepped
            refine ⟨⟨?_, ?_, owned.tmp, owned.path⟩, empty, ?_⟩
            · rw [Files.length_write]
              exact owned.bound
            · rw [Files.bytes_write_ne _ _ _ other]
              exact owned.holds
            · intro q member'
              rcases List.mem_or_eq_of_mem_set member' with old | rfl
              · exact strays q old
              · exact fun is => other (Option.some.inj is).symm
  · intro x
    refine Pool.countP_set_le_one found (sound.strays_apart x) fun after before q member => ?_
    cases own : r with
    | none => exact Bool.eq_false_iff.2 fun is => fresh x own (eq_of_beq after) q member (eq_of_beq is)
    | some work =>
        have same := (same_file work own).symm.trans (eq_of_beq after)
        rw [own] at before
        rw [← same] at before
        simp [file] at before
  · intro q member x is
    rcases List.mem_or_eq_of_mem_set member with old | rfl
    · obtain ⟨bound, path⟩ := sound.strays q old x is
      exact ⟨Nat.lt_of_lt_of_le bound effect.grows, fun named => path (names.symm.trans named)⟩
    · cases own : r with
      | none =>
          obtain ⟨⟨y, w⟩, work, rfl⟩ := Option.map_eq_some_iff.1 is
          have owned := effect.owns ne (by rw [own]; exact nofun) y w work
          exact ⟨owned.bound, owned.path⟩
      | some work =>
          cases (same_file work own).symm.trans is
          obtain ⟨bound, path⟩ := sound.strays r listed work.1 (own ▸ rfl)
          exact ⟨Nat.lt_of_lt_of_le bound effect.grows, fun named => path (names.symm.trans named)⟩
  · intro y named
    have before := names.symm.trans named
    rw [(keeps y before).2]
    exact sound.cached y before
  · intro q member
    obtain ⟨name, cached⟩ := sound.answered q member
    exact ⟨name, names ▸ cached⟩

/-- What happens beside the turns and opens no file. -/
theorem Sound.beside {p : State} (sound : Sound job p) {s : Cache} {calls : List Call}
    (files : s.files = p.shared.files) (strays : s.strays.Sublist p.shared.strays)
    (outputs : s.outputs = p.shared.outputs)
    (idle : ∀ c ∈ calls, c.work = none ∧ c.whole = none ∧ ∀ r, c ≠ .ret (.ok r)) :
    Sound job ⟨s, p.tasks ++ calls⟩ := by
  refine ⟨?_, ?_, ?_, ?_, ?_, ?_, ?_⟩
  · have none : calls.countP (fun c => c.work.isSome) = 0 := by
      refine List.countP_eq_zero.2 fun c member busy => ?_
      rw [(idle c member).1] at busy
      cases busy
    rw [List.countP_append, none]
    exact sound.one
  · intro c member x w work
    rcases List.mem_append.1 member with old | new
    · obtain ⟨owned, empty, away⟩ := sound.owns c old x w work
      exact ⟨files ▸ owned, files ▸ empty, fun r listed => away r (strays.subset listed)⟩
    · cases (idle c new).1.symm.trans work
  · intro c member w whole
    rcases List.mem_append.1 member with old | new
    · exact outputs ▸ sound.whole c old w whole
    · cases (idle c new).2.1.symm.trans whole
  · exact fun x => Nat.le_trans strays.countP_le (sound.strays_apart x)
  · intro r member x is
    show x < s.files.data.length ∧ s.files.names job.out ≠ some x
    rw [files]
    exact sound.strays r (strays.subset member) x is
  · intro y named
    show s.files.bytes y ∈ s.outputs
    rw [files, outputs]
    exact sound.cached y (files ▸ named)
  · intro r member
    rcases List.mem_append.1 member with old | new
    · show r = job.name ∧ s.files.names job.out ≠ none
      rw [files]
      exact sound.answered r old
    · exact ((idle _ new).2.2 r rfl).elim

theorem call_idle (job : Job) : job.call.work = none ∧ job.call.whole = none ∧
    ∀ r, job.call ≠ .ret (.ok r) := by
  unfold Job.call
  split
  · exact ⟨rfl, rfl, nofun⟩
  · exact ⟨rfl, rfl, nofun⟩

theorem Sound.step {p p' : State} {e : Event} (sound : Sound job p) (admitted : undisturbed job p e)
    (stepped : (system job).step p e = some p') :
    Sound job p' ∧ Keeps job p.shared.files p'.shared.files := by
  rcases Pool.Rules.step_cases stepped with ⟨b, s, ls, rfl, acted, rfl⟩ |
    ⟨i, o, c, s, c', rfl, found, turned, rfl⟩
  · have no_calls : ∀ c ∈ ([] : List Call), c.work = none ∧ c.whole = none ∧ ∀ r, c ≠ .ret (.ok r) :=
      fun _ no => (List.not_mem_nil no).elim
    cases b with
    | call =>
        cases acted
        refine ⟨sound.beside rfl (List.Sublist.refl _) rfl fun c member => ?_, Keeps.refl job _⟩
        rw [List.mem_singleton.1 member]
        exact call_idle job
    | stray k a =>
        obtain ⟨r, found, more⟩ := Option.bind_eq_some_iff.1 acted
        obtain ⟨q, ran, is⟩ := Option.map_eq_some_iff.1 more
        cases is
        rw [List.append_nil]
        exact sound.stray admitted found ran
    | reaped k =>
        cases acted
        exact ⟨sound.beside rfl (List.eraseIdx_sublist _ _) rfl no_calls, Keeps.refl job _⟩
    | take =>
        obtain ⟨_, is⟩ := Option.ite_none_right_eq_some.1 acted
        cases is
        exact ⟨sound.beside rfl (List.Sublist.refl _) rfl no_calls, Keeps.refl job _⟩
    | give =>
        obtain ⟨_, is⟩ := Option.ite_none_right_eq_some.1 acted
        cases is
        exact ⟨sound.beside rfl (List.Sublist.refl _) rfl no_calls, Keeps.refl job _⟩
  · exact sound.turn admitted found (turned_of_turn turned)

theorem sound_start {files : Files Text UInt8} {outputs : List Bytes} (permits : Nat)
    (cached : ∀ bytes, files.read job.out = some bytes → bytes ∈ outputs) :
    Sound job (start files permits outputs) where
  one := Nat.zero_le _
  owns := fun _ no => (List.not_mem_nil no).elim
  whole := fun _ no => (List.not_mem_nil no).elim
  strays_apart := fun _ => Nat.zero_le _
  strays := fun _ no => (List.not_mem_nil no).elim
  cached := fun x named => by
    have named' : files.names job.out = some x := named
    refine cached _ ?_
    rw [Files.read, named']
    rfl
  answered := fun _ no => (List.not_mem_nil no).elim

theorem Sound.reach {p q : State} (sound : Sound job p)
    (reached : (system job).Reach (undisturbed job) p q) :
    Sound job q ∧ Keeps job p.shared.files q.shared.files := by
  refine reached.invariant (I := fun q => Sound job q ∧ Keeps job p.shared.files q.shared.files)
    ⟨sound, Keeps.refl job _⟩ ?_
  rintro p' e q' ⟨sound', kept⟩ admitted stepped
  obtain ⟨after, keeps⟩ := sound'.step admitted stepped
  refine ⟨after, fun y named => ?_⟩
  obtain ⟨there, same⟩ := kept y named
  obtain ⟨there', same'⟩ := keeps y there
  exact ⟨there', same'.trans same⟩

/-- No two runs have one file open. -/
theorem Sound.apart {p : State} (sound : Sound job p) (x : Nat) :
    (runs p).countP (fun r => file r == some x) ≤ 1 := by
  rw [runs, List.countP_append]
  have calls : (p.tasks.filterMap Call.run).countP (fun r => file r == some x) ≤
      p.tasks.countP fun c => c.work.isSome := by
    rw [List.countP_filterMap]
    refine List.countP_mono_left fun c _ open_file => ?_
    cases c with
    | gpu r =>
        cases r with
        | none => cases open_file
        | some work => rfl
    | cpu r =>
        cases r with
        | none => cases open_file
        | some work => rfl
    | _ => cases open_file
  have one := sound.one
  by_cases someone : 0 < (p.tasks.filterMap Call.run).countP (fun r => file r == some x)
  · obtain ⟨r, member, is⟩ := List.countP_pos_iff.1 someone
    obtain ⟨c, listed, run⟩ := List.mem_filterMap.1 member
    obtain ⟨⟨y, w⟩, work, rfl⟩ := Option.map_eq_some_iff.1 (eq_of_beq is)
    have own : c.work = some (y, w) := by
      cases c with
      | gpu r =>
          cases run
          exact work
      | cpu r =>
          cases run
          exact work
      | _ => cases run
    have none : p.shared.strays.countP (fun r => file r == some y) = 0 := by
      refine List.countP_eq_zero.2 fun q member' is' => ?_
      exact (sound.owns c listed y w own).2.2 q member' (eq_of_beq is')
    rw [none]
    omega
  · have strays := sound.strays_apart x
    omega

end Run

/-- **Encodes of one output never share a file**, when a run opens its output only while
nobody else is at work on it and none is cached. -/
theorem outputs_not_shared (job : Job) (files : Files Text UInt8) (permits : Nat)
    (outputs : List Bytes) (cached : ∀ bytes, files.read job.out = some bytes → bytes ∈ outputs)
    (p : State) (reached : (system job).Reach (undisturbed job) (start files permits outputs) p) :
    Unshared (undisturbed job) job p := by
  have sound := ((sound_start permits cached).reach reached).1
  refine ⟨?_, ?_, ?_, ?_⟩
  · refine List.nodup_iff_count_le_one.2 fun x => ?_
    rw [List.count_filterMap]
    exact sound.apart x
  · cases named : p.shared.files.names job.tmp with
    | none =>
        have nobody : writing job p = [] := by
          refine List.filter_eq_nil_iff.2 fun r _ writes => ?_
          rw [named] at writes
          cases r with
          | none => cases writes
          | some work => simp [file] at writes
        rw [nobody]
        exact Nat.zero_le _
    | some x =>
        refine Nat.le_trans ?_ (sound.apart x)
        rw [writing, ← List.countP_eq_length_filter]
        refine List.countP_mono_left fun r _ writes => ?_
        rw [named] at writes
        simp at writes
        exact beq_iff_eq.2 writes.2
  · intro r member
    obtain ⟨name, there⟩ := sound.answered r member
    obtain ⟨y, named⟩ := Option.ne_none_iff_exists'.1 there
    refine ⟨name, _, sound.cached y named, ?_⟩
    rw [Files.read, named]
    rfl
  · intro r member q later
    obtain ⟨_, there⟩ := sound.answered r member
    obtain ⟨y, named⟩ := Option.ne_none_iff_exists'.1 there
    obtain ⟨kept, same⟩ := (sound.reach later).2 y named
    rw [Files.read, Files.read, kept, named]
    exact congrArg some same

/-! ## Two calls for one output -/

instance (job : Job) (p : State) : (e : Event) → Decidable (undisturbed job p e)
  | .turn _ (.ffmpeg .open_out) => inferInstanceAs (Decidable (p.shared.files.names job.out = none ∧
      (∀ c ∈ p.tasks, c.work = none) ∧
      ∀ r ∈ p.shared.strays, r = none ∨ file r ≠ p.shared.files.names job.tmp))
  | .act (.stray _ .open_out) => inferInstanceAs (Decidable ((∀ c ∈ p.tasks, c.work = none) ∧
      ∀ r ∈ p.shared.strays, r = none ∨ file r ≠ p.shared.files.names job.tmp))
  | .turn _ (.ffmpeg (.write _)) | .turn _ .ok | .turn _ .fault | .turn _ (.answer _)
  | .turn _ (.exit _) | .turn _ .timeout | .turn _ .gone | .act .call | .act (.stray _ (.write _))
  | .act (.reaped _) | .act .take | .act .give => .isTrue trivial

private def fcamera : Job := ensure_transcode "d" "t" 0 "fcamera"

/-- A call on the CPU, up to its run. -/
private def up_to_run (i : Nat) : List Event :=
  [.turn i .ok, .turn i (.answer true), .turn i .ok, .turn i .ok, .turn i .ok, .turn i (.answer false)]

private def encoded_file (i : Nat) : List Event :=
  [.turn i (.ffmpeg .open_out), .turn i (.ffmpeg (.write 1)), .turn i (.ffmpeg (.write 2)),
    .turn i (.exit true), .turn i .ok]

/-- A call encodes, and one that came while it did returns what it finds. -/
theorem outputs_not_shared_two_calls : ∃ p, Unshared (undisturbed fcamera) fcamera p ∧
    p.tasks = [.ret (.ok fcamera.name), .ret (.ok fcamera.name)] ∧
    p.shared.files.read fcamera.out = some [1, 2] := by
  have run : (((system fcamera).guard (undisturbed fcamera)).replay (start Files.empty 2 [])
      ([.act .call, .act .call] ++ up_to_run 0 ++ (up_to_run 1).take 4 ++ encoded_file 0 ++
        [.turn 1 .ok])).any (fun p =>
      decide (p.tasks = [.ret (.ok fcamera.name), .ret (.ok fcamera.name)] ∧
        p.shared.files.read fcamera.out = some [1, 2])) = true := by
    decide
  obtain ⟨p, replayed, holds⟩ := (Option.any_eq_true _ _).1 run
  have nothing : ∀ bytes, (Files.empty : Files Text UInt8).read fcamera.out = some bytes →
      bytes ∈ ([] : List Bytes) := nofun
  exact ⟨p, outputs_not_shared fcamera Files.empty 2 [] nothing p
    (System.reach_of_replay_guard replayed), of_decide_eq_true holds⟩

/-- Two calls that both find nothing cached: their runs write one file. -/
theorem two_runs_one_file : ¬ ∀ (job : Job) (files : Files Text UInt8) (permits : Nat)
    (outputs : List Bytes), 2 ≤ permits →
    (∀ bytes, files.read job.out = some bytes → bytes ∈ outputs) → ∀ p : State,
    (system job).Reach System.free (start files permits outputs) p → Unshared System.free job p := by
  intro unshared
  have run : ((system fcamera).replay (start Files.empty 2 [])
      ([.act .call, .act .call] ++ up_to_run 0 ++ up_to_run 1 ++
        [.turn 0 (.ffmpeg .open_out), .turn 1 (.ffmpeg .open_out)])).any (fun p =>
      decide ((writing fcamera p).length = 2)) = true := by
    decide
  obtain ⟨p, replayed, two⟩ := (Option.any_eq_true _ _).1 run
  have one := (unshared fcamera Files.empty 2 [] (Nat.le_refl 2) nofun p
    (System.reach_of_replay replayed)).one
  have both := of_decide_eq_true two
  omega

end HomeConnect.Media.Encode
