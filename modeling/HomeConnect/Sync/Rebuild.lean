/-
# Sync.Rebuild -- the path a file is pulled from

A line of the device's listing is taken apart into a timestamp, a segment and a file name,
and the path that is pulled, and later removed, is put together from these again.  The
segment goes through an integer in between, so it comes back without the sign or the
leading zeros it may have had (`remote_paths_survive_iff`).
-/
import HomeConnect.Sync.Scan

namespace HomeConnect.Sync

set_option autoImplicit false

/-- The path of a file in a directory of a device's data. -/
def in_dir (dir file : Text) : Text := REALDATA_DIR ++ "/" ++ dir ++ "/" ++ file

/-- A line of a two-level `find`; names are not empty and have no slash in them. -/
inductive Listed : Text → Prop
  | top {name : Text} (nonempty : name ≠ []) (clean : '/' ∉ name) : Listed (REALDATA_DIR ++ "/" ++ name)
  | below {dir file : Text} (nonempty : dir ≠ []) (clean : '/' ∉ dir) (nonempty' : file ≠ [])
      (clean' : '/' ∉ file) : Listed (in_dir dir file)

/-- What is read as a file's path is put together again as this line. -/
def Rebuilt (read line : Text) : Prop :=
  ∀ ts seg file, parse_remote_path read = some (ts, seg, file) → remote_path ts seg file = line

/-- The directory's name ends in a number that is not written as it is printed. -/
def Renumbered (line : Text) : Prop :=
  ∃ ts text file, ts ≠ [] ∧ '/' ∉ ts ∧ file ≠ [] ∧ line = in_dir (ts ++ '-' :: '-' :: text) file ∧
    text.head? ≠ some '-' ∧ (Text.parse_i64 text).isSome ∧
      (text.head? = some '+' ∨ ¬ Text.Unpadded text)

theorem remote_path_in_dir (ts : Text) (seg : Int) (file : Text) :
    remote_path ts seg file = in_dir (ts ++ '-' :: '-' :: Text.decimal seg) file := by
  simp [remote_path, in_dir, List.append_assoc]

/-! ## Numbers -/

/-- What is read as a number has no character but a sign and digits. -/
theorem clean_of_parse_i64 {text : Text} {n : Int} (plain : text.head? ≠ some '-')
    (parsed : Text.parse_i64 text = some n) : '-' ∉ text ∧ '/' ∉ text := by
  have digits : ∀ {ds : Text} {m : Nat}, Text.parse_digits ds = some m → '-' ∉ ds ∧ '/' ∉ ds := by
    intro ds m read
    unfold Text.parse_digits at read
    split at read
    · next shape =>
        have all := List.all_eq_true.1 shape.2
        exact ⟨fun dash => absurd (all _ dash) (by decide), fun slash => absurd (all _ slash) (by decide)⟩
    · cases read
  unfold Text.parse_i64 at parsed
  split at parsed
  · exact (plain rfl).elim
  · obtain ⟨m, read, _⟩ := Option.bind_eq_some_iff.1 parsed
    have clean := digits read
    simp [clean.1, clean.2]
  · obtain ⟨m, read, _⟩ := Option.bind_eq_some_iff.1 parsed
    exact digits read

/-- A number is printed as it was read, unless that was with a plus sign or zeros. -/
theorem decimal_of_parse_i64 {text : Text} {n : Int} (plain : text.head? ≠ some '-')
    (parsed : Text.parse_i64 text = some n) :
    Text.decimal n = text ↔ text.head? ≠ some '+' ∧ Text.Unpadded text := by
  have in_range : ∀ {m : Nat}, (if m < 2 ^ 63 then some (m : Int) else none) = some n → (m : Int) = n := by
    intro m small
    split at small
    · exact Option.some_inj.1 small
    · cases small
  unfold Text.parse_i64 at parsed
  split at parsed
  · exact (plain rfl).elim
  · obtain ⟨m, _, small⟩ := Option.bind_eq_some_iff.1 parsed
    rw [← in_range small]
    refine ⟨fun same => ?_, fun both => (both.1 rfl).elim⟩
    have digit := Nat.isDigit_of_mem_toDigits (b := 10) (n := m) (c := '+') (by omega) (by omega)
      (by rw [show Nat.toDigits 10 m = _ from same]; exact List.mem_cons_self)
    cases digit
  · next other =>
      obtain ⟨m, read, small⟩ := Option.bind_eq_some_iff.1 parsed
      have no_sign : text.head? ≠ some '+' := by
        intro sign
        obtain ⟨ds, rfl⟩ := List.head?_eq_some_iff.1 sign
        exact other ds rfl
      rw [← in_range small]
      exact (Text.toDigits_of_parse_digits read).trans ⟨fun plain => ⟨no_sign, plain⟩, fun both => both.2⟩

/-! ## Paths -/

theorem eq_of_rsplit {s pre last : Text} (split : Text.rsplit_once_dashes s = some (pre, last)) :
    s = pre ++ '-' :: '-' :: last := by
  induction s generalizing pre with
  | nil => cases split
  | cons c s ih =>
      rw [Text.rsplit_cons] at split
      cases later : Text.rsplit_once_dashes s with
      | some p =>
          rw [later] at split
          cases split
          exact congrArg (List.cons c) (ih later)
      | none =>
          rw [later] at split
          obtain ⟨⟨first, second⟩, is⟩ := Option.ite_none_right_eq_some.1 split
          cases is
          obtain ⟨rest, rfl⟩ := List.head?_eq_some_iff.1 second
          rw [first]
          rfl

theorem parse_in_dir {dir : Text} (nonempty : dir ≠ []) (clean : '/' ∉ dir) (file : Text) :
    parse_remote_path (in_dir dir file) =
      (Text.rsplit_once_dashes dir).bind fun p => (Text.parse_i64 p.2).bind fun seg =>
        if p.1 = [] ∨ file = [] then none else some (p.1, seg, file) := by
  have stripped : Text.strip_prefix REALDATA_DIR (in_dir dir file) = some ('/' :: (dir ++ '/' :: file)) := by
    have shape : in_dir dir file = REALDATA_DIR ++ '/' :: (dir ++ '/' :: file) := by
      simp [in_dir, List.append_assoc]
    unfold Text.strip_prefix
    rw [shape, if_pos (List.prefix_append _ _), List.drop_left]
  have slashes : List.dropWhile (fun c => decide (c = '/')) ('/' :: (dir ++ '/' :: file)) =
      dir ++ '/' :: file := by
    obtain ⟨c, cs, rfl⟩ := List.exists_cons_of_ne_nil nonempty
    have other : c ≠ '/' := fun same => clean (same ▸ List.mem_cons_self)
    rw [List.dropWhile_cons_of_pos (by simp), List.cons_append, List.dropWhile_cons_of_neg (by simp [other])]
  unfold parse_remote_path
  rw [stripped]
  show (Text.split_once '/' _).bind _ = _
  rw [slashes, Text.split_once_append clean]
  rfl

/-- A file of no directory is not a segment's. -/
theorem parse_top {name : Text} (clean : '/' ∉ name) : parse_remote_path (REALDATA_DIR ++ "/" ++ name) = none := by
  have stripped : Text.strip_prefix REALDATA_DIR (REALDATA_DIR ++ "/" ++ name) = some ('/' :: name) := by
    have shape : REALDATA_DIR ++ "/" ++ name = REALDATA_DIR ++ '/' :: name := by
      simp [List.append_assoc]
    unfold Text.strip_prefix
    rw [shape, if_pos (List.prefix_append _ _), List.drop_left]
  have none : Text.split_once '/' (List.dropWhile (fun c => decide (c = '/')) ('/' :: name)) = none := by
    cases found : Text.split_once '/' (List.dropWhile (fun c => decide (c = '/')) ('/' :: name)) with
    | none => rfl
    | some p =>
        obtain ⟨pre, rest⟩ := p
        have inside : '/' ∈ List.dropWhile (fun c => decide (c = '/')) ('/' :: name) := by
          rw [(Text.split_once_eq_some found).1]
          simp
        rw [List.dropWhile_cons_of_pos (by simp)] at inside
        exact (clean ((List.dropWhile_sublist _).subset inside)).elim
  unfold parse_remote_path
  rw [stripped]
  show (Text.split_once '/' _).bind _ = _
  rw [none]
  rfl

/-- A line is the path its file is pulled from and removed at, unless its segment has a sign
or leading zeros; and every path of a segment is read as what it was put together from. -/
theorem remote_paths_survive_iff {line : Text} (listed : Listed line) :
    (Rebuilt line line ↔ ¬ Renumbered line) ∧
    ∀ ts seg file, ts ≠ [] → '/' ∉ ts → 0 ≤ seg → seg < 2 ^ 63 → file ≠ [] → '/' ∉ file →
      parse_remote_path (remote_path ts seg file) = some (ts, seg, file) := by
  have split : ∀ {ts text : Text} {n : Int}, text.head? ≠ some '-' → Text.parse_i64 text = some n →
      Text.rsplit_once_dashes (ts ++ '-' :: '-' :: text) = some (ts, text) :=
    fun plain parsed => Text.rsplit_append (clean_of_parse_i64 plain parsed).1
  constructor
  · cases listed with
    | @top name nonempty clean =>
        refine ⟨fun _ => ?_, fun _ ts seg file parsed => ?_⟩
        · rintro ⟨ts, text, file, _, _, _, is, _⟩
          have inside : name = ts ++ '-' :: '-' :: text ++ '/' :: file := by
            simpa [in_dir, List.append_assoc] using is
          exact clean (inside ▸ by simp)
        · rw [parse_top clean] at parsed
          cases parsed
    | @below dir file nonempty clean nonempty' clean' =>
        constructor
        · intro rebuilt
          rintro ⟨ts, text, file', some_ts, no_slash, some_file, is, plain, number, odd⟩
          obtain ⟨n, parsed⟩ := Option.isSome_iff_exists.1 number
          have clean_dir : '/' ∉ ts ++ '-' :: '-' :: text := by
            simp [no_slash, (clean_of_parse_i64 plain parsed).2]
          have read : parse_remote_path (in_dir dir file) = some (ts, n, file') := by
            rw [is, parse_in_dir (by simp) clean_dir, split plain parsed, Option.bind_some, parsed,
              Option.bind_some, if_neg (not_or.2 ⟨some_ts, some_file⟩)]
          have same := rebuilt ts n file' read
          rw [is, remote_path_in_dir] at same
          have printed : Text.decimal n = text := by
            simpa [in_dir] using same
          obtain ⟨no_sign, unpadded⟩ := (decimal_of_parse_i64 plain parsed).1 printed
          rcases odd with sign | padded
          · exact no_sign sign
          · exact padded unpadded
        · intro usual ts seg file' parsed
          rw [parse_in_dir nonempty clean] at parsed
          obtain ⟨⟨ts', text⟩, parts, parsed⟩ := Option.bind_eq_some_iff.1 parsed
          obtain ⟨n, number, parsed⟩ := Option.bind_eq_some_iff.1 parsed
          obtain ⟨both, is⟩ := Option.ite_none_left_eq_some.1 parsed
          cases is
          have whole := eq_of_rsplit parts
          have plain := Text.head_of_rsplit parts
          rw [remote_path_in_dir, whole]
          by_contra changed
          apply usual
          have is_number : (Text.parse_i64 text).isSome := Option.isSome_of_eq_some number
          refine ⟨ts', text, file, fun none => both (.inl none), ?_, nonempty', by rw [whole], plain, is_number, ?_⟩
          · intro slash
            exact clean (whole ▸ List.mem_append_left _ slash)
          · by_contra neither
            rw [not_or, not_not] at neither
            exact changed (by rw [(decimal_of_parse_i64 plain number).2 neither])
  · intro ts seg file some_ts no_slash natural small some_file _
    obtain ⟨k, rfl⟩ := Int.eq_ofNat_of_zero_le natural
    have dash : '-' ∉ Text.decimal k := Text.dash_not_digit
    have slash : '/' ∉ Text.decimal k := by
      intro inside
      have digit := Nat.isDigit_of_mem_toDigits (b := 10) (n := k) (by omega) (by omega) inside
      cases digit
    have clean : '/' ∉ ts ++ '-' :: '-' :: Text.decimal k := by
      simp [no_slash, slash]
    rw [remote_path_in_dir, parse_in_dir (by simp) clean, Text.rsplit_append dash, Option.bind_some,
      Text.parse_i64_decimal natural small, Option.bind_some, if_neg (not_or.2 ⟨some_ts, some_file⟩)]

/-! ## Poles -/

private def padded_line : Text := in_dir "2025-01-01--10-00-00--05" "qcamera.ts"

private theorem padded_listed : Listed padded_line :=
  .below (by decide) (by decide) (by decide) (by decide)

/-- A directory's `05` is pulled from the directory of a `5`. -/
theorem remote_paths_not_rebuilt :
    ¬ ((∀ line, Listed line → Rebuilt line line) ∧
      ∀ ts seg file, ts ≠ [] → '/' ∉ ts → 0 ≤ seg → seg < 2 ^ 63 → file ≠ [] → '/' ∉ file →
        parse_remote_path (remote_path ts seg file) = some (ts, seg, file)) := by
  rintro ⟨claim, _⟩
  have rebuilt := claim padded_line padded_listed "2025-01-01--10-00-00" 5 "qcamera.ts" (by decide)
  exact absurd rebuilt (by decide)

/-- The usual number is put back as it was. -/
theorem remote_paths_survive_usual :
    Rebuilt (in_dir "2025-01-01--10-00-00--5" "qcamera.ts") (in_dir "2025-01-01--10-00-00--5" "qcamera.ts") ∧
      parse_remote_path (remote_path "2025-01-01--10-00-00" 5 "qcamera.ts") =
        some (("2025-01-01--10-00-00" : Text), (5 : Int), ("qcamera.ts" : Text)) := by
  have listed : Listed (in_dir "2025-01-01--10-00-00--5" "qcamera.ts") :=
    .below (by decide) (by decide) (by decide) (by decide)
  obtain ⟨usual, paths⟩ := remote_paths_survive_iff listed
  constructor
  · refine usual.2 ?_
    rintro ⟨ts, text, file, _, no_slash, _, is, plain, number, odd⟩
    obtain ⟨n, parsed⟩ := Option.isSome_iff_exists.1 number
    obtain ⟨dash, slash⟩ := clean_of_parse_i64 plain parsed
    have clean_dir : '/' ∉ ts ++ '-' :: '-' :: text := by
      simp [no_slash, slash]
    have dir : ("2025-01-01--10-00-00--5" : Text) = ts ++ '-' :: '-' :: text := by
      have rest : ("2025-01-01--10-00-00--5" : Text) ++ '/' :: "qcamera.ts" =
          (ts ++ '-' :: '-' :: text) ++ '/' :: file := by
        simpa [in_dir] using is
      have parts := congrArg (Text.split_once '/') rest
      rw [Text.split_once_append (by decide), Text.split_once_append clean_dir] at parts
      exact (Prod.mk.inj (Option.some.inj parts)).1
    have parts := congrArg Text.rsplit_once_dashes dir
    rw [Text.rsplit_append dash] at parts
    have five : ("5" : Text) = text := (Prod.mk.inj (Option.some.inj
      (((by decide : Text.rsplit_once_dashes ("2025-01-01--10-00-00--5" : Text) =
        some (("2025-01-01--10-00-00" : Text), ("5" : Text)))).symm.trans parts))).2
    rw [← five] at odd
    revert odd
    decide
  · exact paths _ _ _ (by decide) (by decide) (by decide) (by decide) (by decide) (by decide)

end HomeConnect.Sync
