/-
# Params.Branches -- which branches can be targeted

`set_branch` accepts what is an element of the list of branches it has read off the device,
and `status` reports the list it has read.  Both read 4000 bytes at most, so the last element
may be a part of a name, and names after it are not seen; the one reader drops empty elements
and the other does not; and only one of them stops at a separator.
`branches_offered_iff` says when none of this matters.
-/
import HomeConnect.Params.Status

namespace HomeConnect.Params

open HomeConnect.Theory
open HomeConnect.Utf8 (from_utf8_lossy ascii)

set_option autoImplicit false

def BRANCHES : Text := "UpdaterAvailableBranches"

/-! ## set_branch on a device -/

/-- A device's params, and which have been written. -/
structure ParamDevice where
  files : ParamFiles
  written : List (Text × Text) := []

def UpdateOp.on {β : Type} : UpdateOp β → ParamDevice → β × ParamDevice
  | .read_snippet key, d => (.ok (seen_of d.files key), d)
  | .pkill _, d => (.ok (), d)
  | .put key value, d =>
      (.ok (),
        { files := fun k => if k = key then ascii value else d.files k
          written := d.written ++ [(key, value)] })

/-- Run a function to its end, every command carried out. -/
def on_device {α : Type} (p : Request UpdateOp α) (d : ParamDevice) : AppResult α × ParamDevice :=
  p.run.run (fun f d => f.on d) d

/-- The branch becomes the target. -/
def Targets (files : ParamFiles) (b : Text) : Prop :=
  (("UpdaterTargetBranch" : Text), b) ∈ (on_device (set_branch b) { files }).2.written

/-! ## Lists of branches -/

/-- The elements of the whole list. -/
def whole_list (files : ParamFiles) : List Text := Text.split ',' (Text.trim (from_utf8_lossy (files BRANCHES)))

/-- The elements of what is read of it. -/
def read_list (files : ParamFiles) : List Text := Text.split ',' (Text.trim (seen_of files BRANCHES))

/-- A text up to the first separator in it or after it. -/
def before_separator (t : Text) : Text := ((Text.split_str separator (t ++ separator)).head?).getD []

/-- The elements of what is read before a separator. -/
def dumped_list (files : ParamFiles) : List Text :=
  Text.split ',' (Text.trim (before_separator (seen_of files BRANCHES)))

/-- A branch of the device is a complete element that is not empty. -/
def Offered (files : ParamFiles) (b : Text) : Prop := b ≠ [] ∧ b ∈ whole_list files

/-- The characters that `write_param` lets through. -/
def Allowed (b : Text) : Prop :=
  (b.all fun c => c.isAlphanum || decide (c ∈ ['-', '_', '.', '/'])) = true

instance (b : Text) : Decidable (Allowed b) := inferInstanceAs (Decidable (_ = true))

def CarOff (files : ParamFiles) : Prop := Text.trim (seen_of files "IsOffroad") = "1"

instance (files : ParamFiles) : Decidable (CarOff files) := inferInstanceAs (Decidable (_ = _))

/-- `status` reports the branch, whatever the other params are, as long as they hold no
separator. -/
def Reported (files : ParamFiles) (b : Text) : Prop :=
  ∀ files' running, files' BRANCHES = files BRANCHES →
    (∀ key ∈ STATUS_KEYS, key ≠ BRANCHES → Clean (seen_of files' key)) → b ∈ (status files' running).branches

structure OnlyOffered (files : ParamFiles) (b : Text) : Prop where
  complete : Targets files b → Offered files b
  reported : Targets files b → Reported files b
  accepted : CarOff files → Offered files b → Allowed b → Targets files b

/-- The two lists agree on the branch, and the status has it if they do. -/
structure SeenAsIs (files : ParamFiles) (b : Text) : Prop where
  nonempty : b ∈ read_list files → b ≠ []
  whole : b ≠ [] → (b ∈ read_list files ↔ b ∈ whole_list files)
  dumped : b ∈ read_list files → b ∈ dumped_list files

/-! ## What is written -/

section Run

variable {α β : Type} {p : Request UpdateOp α} {g : α → Request UpdateOp β} {d d' : ParamDevice}

/-- A command after which the function goes on. -/
theorem on_device_bind_ok {a : α} (first : on_device p d = (.ok a, d')) :
    on_device (p >>= g) d = on_device (g a) d' := by
  unfold on_device at first ⊢
  rw [Request.run_bind, Prog.run_bind, first]

theorem on_device_bind_error {e : AppError} (first : on_device p d = (.error e, d')) :
    on_device (p >>= g) d = (.error e, d') := by
  unfold on_device at first ⊢
  rw [Request.run_bind, Prog.run_bind, first]
  rfl

theorem on_device_pass {c : Prop} [Decidable c] (fine : ¬ c) (e : AppError) (d : ParamDevice) :
    on_device (Request.err_if c e) d = (.ok (), d) := by
  unfold Request.err_if
  rw [if_neg fine]
  rfl

theorem on_device_refuse {c : Prop} [Decidable c] (refused : c) (e : AppError) (d : ParamDevice) :
    on_device (Request.err_if c e : Request UpdateOp Unit) d = (.error e, d) := by
  unfold Request.err_if
  rw [if_pos refused]
  rfl

theorem on_device_read (key : Text) (d : ParamDevice) :
    on_device (read_snippet key) d = (.ok (seen_of d.files key), d) := rfl

end Run

/-- The branch is written when the car is off and the branch is listed and allowed. -/
theorem targets_iff (files : ParamFiles) (b : Text) :
    Targets files b ↔ CarOff files ∧ b ∈ read_list files ∧ Allowed b := by
  have refused : ∀ {e : AppError}, on_device (set_branch b) { files } = (.error e, { files }) →
      ¬ Targets files b := by
    intro e ran targets
    unfold Targets at targets
    rw [ran] at targets
    cases targets
  by_cases off : CarOff files
  · have car : on_device require_offroad { files } = (.ok (), { files }) :=
      (on_device_bind_ok (on_device_read "IsOffroad" _)).trans (on_device_pass (not_not.2 off) _ _)
    have asked : on_device (set_branch b) { files } = _ :=
      (on_device_bind_ok car).trans (on_device_bind_ok (on_device_read BRANCHES _))
    by_cases listed : b ∈ read_list files
    · have known := asked.trans (on_device_bind_ok (on_device_pass (not_not.2 listed) _ _))
      by_cases allowed : Allowed b
      · have write : on_device (write_param "UpdaterTargetBranch" b) { files } = (.ok (), _) :=
          on_device_bind_ok (on_device_pass (not_not.2 allowed) _ _)
        have ran := known.trans (on_device_bind_ok write)
        refine ⟨fun _ => ⟨off, listed, allowed⟩, fun _ => ?_⟩
        unfold Targets
        rw [ran]
        exact List.mem_singleton.2 rfl
      · have no_write : on_device (write_param "UpdaterTargetBranch" b) { files } = (.error _, { files }) :=
          on_device_bind_error (on_device_refuse allowed _ _)
        have ran := known.trans (on_device_bind_error no_write)
        exact ⟨fun targets => (refused ran targets).elim, fun all => (allowed all.2.2).elim⟩
    · have ran := asked.trans (on_device_bind_error (on_device_refuse listed _ _))
      exact ⟨fun targets => (refused ran targets).elim, fun all => (listed all.2.1).elim⟩
  · have car : on_device require_offroad { files } = (.error _, { files }) :=
      (on_device_bind_ok (on_device_read "IsOffroad" _)).trans (on_device_refuse off _ _)
    exact ⟨fun targets => (refused (on_device_bind_error car) targets).elim, fun all => (off all.1).elim⟩

/-! ## What is reported -/

theorem split_str_go_ne_nil (sep : Text) (n : Nat) (s : Text) : Text.split_str.go sep n s ≠ [] := by
  induction s generalizing n with
  | nil => exact List.cons_ne_nil _ _
  | cons c s ih =>
      cases n with
      | zero =>
          rw [Text.split_str.go]
          split
          · exact List.cons_ne_nil _ _
          · split <;> exact List.cons_ne_nil _ _
      | succ n => exact ih n

/-- The first part ends no later than where a separator is put. -/
theorem head_split_str {sep : Text} (solid : sep ≠ []) (t rest : Text) :
    (Text.split_str sep (t ++ sep ++ rest)).head? = (Text.split_str sep (t ++ sep)).head? := by
  unfold Text.split_str
  induction t with
  | nil =>
      obtain ⟨c, tail, rfl⟩ := List.exists_cons_of_ne_nil solid
      have here : c :: tail <+: c :: (tail ++ rest) := List.prefix_append (c :: tail) rest
      show (Text.split_str.go (c :: tail) 0 (c :: (tail ++ rest))).head? =
        (Text.split_str.go (c :: tail) 0 (c :: tail)).head?
      rw [Text.split_str.go, if_pos here, Text.split_str.go, if_pos (List.prefix_refl _)]
      rfl
  | cons c t ih =>
      have same : sep <+: c :: (t ++ sep ++ rest) ↔ sep <+: c :: (t ++ sep) := by
        constructor
        · intro begins
          refine List.prefix_of_prefix_length_le begins (List.prefix_append (c :: (t ++ sep)) rest) ?_
          simp only [List.length_cons, List.length_append]
          omega
        · exact fun begins => begins.trans (List.prefix_append (c :: (t ++ sep)) rest)
      show (Text.split_str.go sep 0 (c :: (t ++ sep ++ rest))).head? =
        (Text.split_str.go sep 0 (c :: (t ++ sep))).head?
      rw [Text.split_str.go, Text.split_str.go]
      by_cases begins : sep <+: c :: (t ++ sep)
      · rw [if_pos (same.2 begins), if_pos begins]
        rfl
      · rw [if_neg fun here => begins (same.1 here), if_neg begins]
        cases long : Text.split_str.go sep 0 (t ++ sep ++ rest) with
        | nil => exact (split_str_go_ne_nil _ _ _ long).elim
        | cons part parts =>
            cases short : Text.split_str.go sep 0 (t ++ sep) with
            | nil => exact (split_str_go_ne_nil _ _ _ short).elim
            | cons part' parts' =>
                rw [long, short] at ih
                rw [Option.some_inj.1 ih]
                rfl

/-- A key gets the part at its place. -/
theorem get_assign {keys : List Text} {key : Text} (new : key ∉ keys) (value : Text → Text) (part : Text)
    (parts more : List Text) :
    get (assign (keys ++ key :: more) (keys.map value ++ part :: parts)).1 key = part := by
  induction keys with
  | nil =>
      unfold get
      rw [List.nil_append, assign, List.find?_cons_of_pos (by simp)]
      rfl
  | cons k keys ih =>
      rw [List.mem_cons, not_or] at new
      have later := ih new.2
      unfold get at later ⊢
      rw [List.cons_append, List.map_cons, List.cons_append, assign]
      rw [List.find?_cons_of_neg (by simpa using Ne.symm new.1)]
      exact later

/-- The params before the branches, and those after them. -/
theorem status_keys_eq : STATUS_KEYS = STATUS_KEYS.take 9 ++ BRANCHES :: STATUS_KEYS.drop 10 := by
  decide

/-- The branches of the status are those before a separator. -/
theorem branches_status {files : ParamFiles} (running : Bool)
    (clean : ∀ key ∈ STATUS_KEYS, key ≠ BRANCHES → Clean (seen_of files key)) :
    (status files running).branches = (dumped_list files).filter fun b => decide (b ≠ []) := by
  have new : BRANCHES ∉ STATUS_KEYS.take 9 := by decide
  have before : ∀ key ∈ STATUS_KEYS.take 9, Clean (seen_of files key) := by
    intro key listed
    apply clean key (List.mem_of_mem_take listed)
    rintro rfl
    exact new listed
  have value : get (parse_values (from_utf8_lossy (status_output files running))).1 BRANCHES =
      Text.trim (before_separator (seen_of files BRANCHES)) := by
    unfold parse_values
    rw [read_output, status_keys_eq, List.flatMap_append, List.flatMap_cons, List.append_assoc,
      split_dumps files before, List.append_assoc, List.map_append, List.map_map]
    have solid : separator ≠ [] := by decide
    have head := head_split_str solid (seen_of files BRANCHES)
      ((STATUS_KEYS.drop 10).flatMap (fun key => seen_of files key ++ separator) ++ daemon_state running)
    cases parts : Text.split_str separator (seen_of files BRANCHES ++ separator ++
        ((STATUS_KEYS.drop 10).flatMap (fun key => seen_of files key ++ separator) ++ daemon_state running)) with
    | nil => exact (split_str_go_ne_nil _ _ _ parts).elim
    | cons part parts' =>
        rw [parts] at head
        have first : part = before_separator (seen_of files BRANCHES) := by
          unfold before_separator
          rw [← head]
          rfl
        rw [first, List.map_cons]
        exact get_assign new _ _ _ _
  unfold status parse_status dumped_list
  rw [← value]
  rfl

theorem reported_iff {files : ParamFiles} {b : Text} (solid : b ≠ []) :
    Reported files b ↔ b ∈ dumped_list files := by
  have same : ∀ files' : ParamFiles, files' BRANCHES = files BRANCHES → dumped_list files' = dumped_list files := by
    intro files' is
    unfold dumped_list seen_of snippet
    rw [is]
  constructor
  · intro reported
    -- a device on which nothing else is set
    have clean : ∀ key ∈ STATUS_KEYS, key ≠ BRANCHES →
        Clean (seen_of (fun key => if key = BRANCHES then files BRANCHES else []) key) := by
      intro key _ other
      unfold seen_of snippet
      dsimp only
      rw [if_neg other]
      decide
    have only := reported _ true (if_pos rfl) clean
    rw [branches_status true clean, same _ (if_pos rfl)] at only
    exact (List.mem_filter.1 only).1
  · intro listed files' running is clean
    rw [branches_status running clean, same files' is, List.mem_filter]
    exact ⟨listed, decide_eq_true solid⟩

/-- Only branches the device offers can be targeted, and every one of these that is made of
the allowed characters, unless its list is not seen as it is. -/
theorem branches_offered_iff (files : ParamFiles) (b : Text) :
    OnlyOffered files b ↔ ¬ CarOff files ∨ ¬ Allowed b ∨ SeenAsIs files b := by
  constructor
  · intro only
    by_cases off : CarOff files
    · by_cases allowed : Allowed b
      · right
        right
        have targets : b ∈ read_list files → Targets files b := fun listed =>
          (targets_iff files b).2 ⟨off, listed, allowed⟩
        have solid : b ∈ read_list files → b ≠ [] := fun listed => (only.complete (targets listed)).1
        refine ⟨solid, fun solid' => ⟨fun listed => (only.complete (targets listed)).2, fun whole => ?_⟩,
          fun listed => (reported_iff (solid listed)).1 (only.reported (targets listed))⟩
        exact ((targets_iff files b).1 (only.accepted off ⟨solid', whole⟩ allowed)).2.1
      · exact .inr (.inl allowed)
    · exact .inl off
  · intro condition
    have seen : Targets files b → SeenAsIs files b ∧ b ∈ read_list files := by
      intro targets
      obtain ⟨off, listed, allowed⟩ := (targets_iff files b).1 targets
      rcases condition with on | refused | seen
      · exact (on off).elim
      · exact (refused allowed).elim
      · exact ⟨seen, listed⟩
    constructor
    · intro targets
      obtain ⟨as_is, listed⟩ := seen targets
      have solid := as_is.nonempty listed
      exact ⟨solid, (as_is.whole solid).1 listed⟩
    · intro targets
      obtain ⟨as_is, listed⟩ := seen targets
      exact (reported_iff (as_is.nonempty listed)).2 (as_is.dumped listed)
    · intro off offered allowed
      rcases condition with on | refused | as_is
      · exact (on off).elim
      · exact (refused allowed).elim
      · exact (targets_iff files b).2 ⟨off, (as_is.whole offered.1).2 offered.2, allowed⟩

/-! ## Pole -/

private def no_branches : ParamFiles := fun key => if key = "IsOffroad" then ascii "1" else []

/-- The empty branch can be targeted when none is listed. -/
theorem branches_not_only_offered : ¬ ∀ (files : ParamFiles) (b : Text), OnlyOffered files b := by
  intro claim
  have targets : Targets no_branches [] := (targets_iff _ _).2 (by decide)
  exact ((claim no_branches []).complete targets).1 rfl

end HomeConnect.Params
