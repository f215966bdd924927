/-
# Base.Paths -- file paths, as the server's code takes them apart

A path is a text; what it stands for are its components, and two paths are equal when these
are.  Each function here is one of the standard library's for Unix paths, under its name
there and with its documented behaviour.

`components_join` is what joining a relative path comes to, and `components_file` what the
part of a path before its file name does.
-/
import HomeConnect.Base.Text

namespace HomeConnect.Path

set_option autoImplicit false

inductive Component
  | root
  /-- A leading `.`. -/
  | cur
  /-- `..` -/
  | up
  | normal (name : Text)
deriving DecidableEq, Repr

/-- What a part between slashes stands for: nothing if it is empty or `.`. -/
def component (part : Text) : Option Component :=
  if part = [] ∨ part = ['.'] then none
  else if part = ['.', '.'] then some .up
  else some (.normal part)

/-- The components of the parts between the slashes. -/
def names (s : Text) : List Component := (Text.split '/' s).filterMap component

/-- What a path starts with. -/
def lead (path : Text) : List Component :=
  if path.head? = some '/' then [.root]
  else if (Text.split '/' path).head? = some ['.'] then [.cur]
  else []

/-- `Path::components`. -/
def components (path : Text) : List Component := lead path ++ names path

def is_absolute (path : Text) : Bool := decide (path.head? = some '/')

/-- `Path::join`: an absolute path takes the place of what it is joined to. -/
def join (base path : Text) : Text :=
  if is_absolute path then path
  else if base = [] ∨ base.getLast? = some '/' then base ++ path
  else base ++ '/' :: path

/-- The components of `Path::parent`; none for a root or the empty path. -/
def parent (path : Text) : Option (List Component) :=
  match (components path).getLast? with
  | none | some .root => none
  | some _ => some (components path).dropLast

/-- A path's text up to its last slash, and what comes after that. -/
def dir_part (path : Text) : Text := (path.reverse.dropWhile fun c => decide (c ≠ '/')).reverse

def file_part (path : Text) : Text := (path.reverse.takeWhile fun c => decide (c ≠ '/')).reverse

/-- `Path::with_extension` of a path that ends in a file's name. -/
def with_extension (path ext : Text) : Text :=
  dir_part path ++ Text.with_extension (file_part path) ext

example : components "./data//a/./..".toList =
    [.cur, .normal "data", .normal "a", .up] := by decide

/-! ## The parts of a path -/

theorem dir_part_append_file_part (path : Text) : dir_part path ++ file_part path = path := by
  unfold dir_part file_part
  rw [← List.reverse_append, List.takeWhile_append_dropWhile, List.reverse_reverse]

theorem slash_not_mem_file_part (path : Text) : '/' ∉ file_part path := by
  intro member
  have passed := List.all_eq_true.1 List.all_takeWhile _ (List.mem_reverse.1 member)
  exact absurd passed (by decide)

theorem dir_part_append {s name : Text} (plain : '/' ∉ name) :
    dir_part (s ++ name) = dir_part s := by
  have all : ∀ c ∈ name.reverse, decide (c ≠ '/') = true := by
    intro c member
    exact decide_eq_true fun same => plain (same ▸ List.mem_reverse.1 member)
  unfold dir_part
  rw [List.reverse_append, List.dropWhile_append_of_pos all]

theorem file_part_append {s name : Text} (plain : '/' ∉ name) :
    file_part (s ++ name) = file_part s ++ name := by
  have all : ∀ c ∈ name.reverse, decide (c ≠ '/') = true := by
    intro c member
    exact decide_eq_true fun same => plain (same ▸ List.mem_reverse.1 member)
  unfold file_part
  rw [List.reverse_append, List.takeWhile_append_of_pos all, List.reverse_append,
    List.reverse_reverse]

theorem dir_part_of_plain {name : Text} (plain : '/' ∉ name) : dir_part name = [] :=
  dir_part_append (s := []) plain

/-- The text up to the last slash is empty, or ends in it. -/
theorem dir_part_cases (path : Text) : dir_part path = [] ∨ ∃ s, dir_part path = s ++ ['/'] := by
  unfold dir_part
  cases rest : path.reverse.dropWhile fun c => decide (c ≠ '/') with
  | nil => exact .inl rfl
  | cons c s =>
      have stops := List.head?_dropWhile_not (fun c => decide (c ≠ '/')) path.reverse
      rw [rest] at stops
      right
      refine ⟨s.reverse, ?_⟩
      have slash : c = '/' := by simpa using stops
      rw [slash, List.reverse_cons]

/-- The last slash is in what comes after another, or is that one. -/
theorem dir_part_append_slash (s t : Text) : dir_part (s ++ '/' :: t) = s ++ '/' :: dir_part t := by
  unfold dir_part
  rw [List.reverse_append, List.reverse_cons, List.append_assoc, List.dropWhile_append]
  split
  · rename_i nothing
    rw [List.isEmpty_iff.1 nothing, List.singleton_append, List.dropWhile_cons_of_neg (by decide)]
    simp
  · simp

theorem dir_part_eq_nil_iff {path : Text} : dir_part path = [] ↔ '/' ∉ path := by
  constructor
  · intro empty member
    have whole := dir_part_append_file_part path
    rw [empty, List.nil_append] at whole
    exact slash_not_mem_file_part path (whole.symm ▸ member)
  · exact dir_part_of_plain

theorem is_absolute_dir_part (path : Text) : is_absolute (dir_part path) = is_absolute path := by
  have whole := dir_part_append_file_part path
  cases start : dir_part path with
  | nil =>
      have plain := dir_part_eq_nil_iff.1 start
      have relative : is_absolute path = false :=
        decide_eq_false fun starts => plain (List.mem_of_mem_head? starts)
      rw [relative]
      rfl
  | cons c s =>
      rw [start] at whole
      rw [← whole]
      rfl

/-! ## Components -/

theorem component_eq_none_iff {part : Text} : component part = none ↔ part = [] ∨ part = ['.'] := by
  unfold component
  split
  · rename_i nothing
    exact iff_of_true rfl nothing
  · rename_i something
    refine iff_of_false (fun none => ?_) something
    split at none <;> cases none

/-- Dots and slashes name nothing. -/
theorem names_eq_nil_iff {s : Text} :
    names s = [] ↔ ∀ part ∈ Text.split '/' s, part = [] ∨ part = ['.'] := by
  unfold names
  simp only [List.filterMap_eq_nil_iff, component_eq_none_iff]

theorem names_append_slash (s t : Text) : names (s ++ '/' :: t) = names s ++ names t := by
  unfold names
  rw [Text.split_append_cons, List.filterMap_append]

theorem names_trailing_slash (s : Text) : names (s ++ ['/']) = names s := by
  rw [names_append_slash]
  exact List.append_nil _

theorem names_of_plain {name : Text} (plain : '/' ∉ name) : names name = (component name).toList := by
  unfold names
  rw [Text.split_of_not_mem plain, List.filterMap_cons]
  cases component name <;> rfl

/-- How a path starts is settled by what is before its first slash. -/
theorem lead_append (s t : Text) : lead (s ++ '/' :: t) = lead (s ++ ['/']) := by
  have first : (s ++ '/' :: t).head? = (s ++ ['/']).head? := by
    cases s <;> rfl
  have part (r : Text) : (Text.split '/' (s ++ '/' :: r)).head? = (Text.split '/' s).head? := by
    rw [Text.split_append_cons, List.head?_append_of_ne_nil _ (Text.split_ne_nil '/' s)]
  unfold lead
  rw [first, part, part]

theorem lead_append_slash {s : Text} (some_text : s ≠ []) : lead (s ++ ['/']) = lead s := by
  have first : (s ++ ['/']).head? = s.head? := List.head?_append_of_ne_nil _ some_text
  have part : (Text.split '/' (s ++ ['/'])).head? = (Text.split '/' s).head? := by
    rw [Text.split_append_cons, List.head?_append_of_ne_nil _ (Text.split_ne_nil '/' s)]
  unfold lead
  rw [first, part]

theorem components_append (s t : Text) :
    components (s ++ '/' :: t) = components (s ++ ['/']) ++ names t := by
  unfold components
  rw [lead_append, names_append_slash, names_trailing_slash, List.append_assoc]

theorem components_append_slash {s : Text} (some_text : s ≠ []) :
    components (s ++ ['/']) = components s := by
  unfold components
  rw [lead_append_slash some_text, names_trailing_slash]

/-- What is joined stands at the end of the path. -/
theorem exists_join_eq (base path : Text) : ∃ pre, join base path = pre ++ path := by
  unfold join
  split
  · exact ⟨[], rfl⟩
  · split
    · exact ⟨base, rfl⟩
    · exact ⟨base ++ ['/'], by rw [List.append_assoc]; rfl⟩

/-- What a path is joined behind is told by its beginning. -/
theorem exists_join_append (base : Text) {start : Text} (some_start : start ≠ []) :
    ∃ pre, ∀ rest, join base (start ++ rest) = pre ++ start ++ rest := by
  have begins (rest : Text) : is_absolute (start ++ rest) = is_absolute start := by
    rw [is_absolute, is_absolute, List.head?_append_of_ne_nil _ some_start]
  by_cases absolute : is_absolute start = true
  · exact ⟨[], fun rest => by rw [join, begins, if_pos absolute]; rfl⟩
  · by_cases slash : base = [] ∨ base.getLast? = some '/'
    · exact ⟨base, fun rest => by rw [join, begins, if_neg absolute, if_pos slash, List.append_assoc]⟩
    · refine ⟨base ++ ['/'], fun rest => ?_⟩
      rw [join, begins, if_neg absolute, if_neg slash]
      simp only [List.append_assoc, List.cons_append, List.nil_append]

/-- A relative path joined to a directory goes on from there. -/
theorem components_join {base path : Text} (some_base : base ≠ [])
    (relative : is_absolute path = false) :
    components (join base path) = components base ++ names path := by
  unfold join
  rw [if_neg (by simp [relative])]
  split
  · rename_i ends
    obtain ⟨s, rfl⟩ := List.getLast?_eq_some_iff.1 (ends.resolve_left some_base)
    rw [List.append_assoc]
    exact components_append s path
  · rw [components_append, components_append_slash some_base]

/-! ## Files in directories -/

/-- The text is the name of a file: it isn't empty, `.` or `..`, and has no slash. -/
def IsFile (name : Text) : Prop := '/' ∉ name ∧ component name = some (.normal name)

theorem isFile_iff {name : Text} :
    IsFile name ↔ '/' ∉ name ∧ name ≠ [] ∧ name ≠ ['.'] ∧ name ≠ ['.', '.'] := by
  unfold IsFile component
  constructor
  · rintro ⟨plain, is⟩
    refine ⟨plain, ?_⟩
    split at is
    · cases is
    · rename_i some_name
      split at is
      · cases is
      · rename_i other
        exact ⟨fun empty => some_name (.inl empty), fun dot => some_name (.inr dot), other⟩
  · rintro ⟨plain, some_name, dot, dots⟩
    refine ⟨plain, ?_⟩
    rw [if_neg (by simp [some_name, dot]), if_neg dots]

/-- A path is its directory's components, and last its file's name. -/
theorem components_file {dir name : Text} (ends : dir = [] ∨ ∃ s, dir = s ++ ['/'])
    (file : IsFile name) : components (dir ++ name) = components dir ++ [.normal name] := by
  have own : names name = [.normal name] := by
    rw [names_of_plain file.1, file.2]
    rfl
  rcases ends with rfl | ⟨s, rfl⟩
  · have relative : name.head? ≠ some '/' := by
      intro starts
      exact file.1 (List.mem_of_mem_head? starts)
    have other : name ≠ ['.'] := (isFile_iff.1 file).2.2.1
    have here : lead name = [] := by
      unfold lead
      rw [if_neg relative, Text.split_of_not_mem file.1]
      exact if_neg fun same => other (Option.some.inj same)
    rw [List.nil_append]
    unfold components
    rw [here, own]
    rfl
  · rw [List.append_assoc]
    show components (s ++ '/' :: name) = _
    rw [components_append, own]

theorem parent_file {dir name : Text} (ends : dir = [] ∨ ∃ s, dir = s ++ ['/'])
    (file : IsFile name) : parent (dir ++ name) = some (components dir) := by
  unfold parent
  rw [components_file ends file, List.getLast?_concat]
  exact congrArg some List.dropLast_concat

theorem isFile_of_mem {name : Text} {c : Char} (plain : '/' ∉ name) (member : c ∈ name)
    (other : c ≠ '.') : IsFile name := by
  refine isFile_iff.2 ⟨plain, ?_, ?_, ?_⟩
  · rintro rfl
    cases member
  · rintro rfl
    exact other (List.mem_singleton.1 member)
  · rintro rfl
    have dot : c = '.' := by simpa using member
    exact other dot

theorem names_file {path : Text} (file : IsFile (file_part path)) :
    names path = names (dir_part path) ++ [.normal (file_part path)] := by
  have own : names (file_part path) = [.normal (file_part path)] := by
    rw [names_of_plain file.1, file.2]
    rfl
  have whole := dir_part_append_file_part path
  rcases dir_part_cases path with empty | ⟨s, ends⟩
  · rw [empty, List.nil_append] at whole
    rw [empty, ← own, whole]
    rfl
  · have parts : path = s ++ '/' :: file_part path := by
      rw [ends, List.append_assoc] at whole
      exact whole.symm
    calc names path = names (s ++ '/' :: file_part path) := congrArg names parts
      _ = names s ++ names (file_part path) := names_append_slash _ _
      _ = names (dir_part path) ++ [.normal (file_part path)] := by rw [own, ends, names_trailing_slash]

/-- The directory of a relative path joined to another. -/
theorem parent_join {base path : Text} (some_base : base ≠ [])
    (relative : is_absolute path = false) (file : IsFile (file_part path)) :
    parent (join base path) = some (components base ++ names (dir_part path)) := by
  unfold parent
  rw [components_join some_base relative, names_file file, ← List.append_assoc,
    List.getLast?_concat]
  exact congrArg some List.dropLast_concat

theorem relative_of_file {name : Text} (file : IsFile name) : is_absolute name = false := by
  refine decide_eq_false fun starts => ?_
  exact file.1 (List.mem_of_mem_head? starts)

/-- A file's name joined to a directory. -/
theorem components_join_file (base : Text) {name : Text} (file : IsFile name) :
    components (join base name) = components base ++ [.normal name] := by
  have relative := relative_of_file file
  by_cases empty : base = []
  · have joined : join base name = [] ++ name := by
      unfold join
      rw [if_neg (by simp [relative]), if_pos (.inl empty), empty]
    rw [joined, components_file (.inl rfl) file, empty]
  · rw [components_join empty relative, names_of_plain file.1, file.2]
    rfl

end HomeConnect.Path
