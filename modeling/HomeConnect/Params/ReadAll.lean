/-
# Params.ReadAll -- the params read off a device

`read_all` has the device print each allowlisted key, a tab and the param's file, and takes
every line with a tab in it for a pair.  Nothing marks where a file ends: from its second
line on a file's text is read as pairs of its own, whatever their keys, and `refresh` stores
them.  The pairs are right exactly when every file is one line (`reads_own_iff`).
-/
import HomeConnect.Base.Lines
import HomeConnect.Params.Flush
import Mathlib.Data.List.DropRight

namespace HomeConnect.Params

open HomeConnect.Theory

set_option autoImplicit false

/-! ## refresh -/

/-- The upserts of `refresh` that are carried out, one after the other. -/
def refresh (dongle : Text) (pairs : List (Text × Text)) (t : ParamTable) : ParamTable :=
  pairs.foldl (fun t p => refresh_row dongle p.1 p.2 t) t

/-! ## What should be read -/

/-- The text of a param; it has none when it is not set. -/
def content (files : Files) (key : Text) : Text := (files key).getD []

/-- `value` is the text, up to line feeds at its end. -/
def Own (value text : Text) : Prop := ∃ n, text = value ++ List.replicate n '\n'

/-- One pair for each key of the allowlist, in order, with the text of that param. -/
def PairsOwn (files : Files) (pairs : List (Text × Text)) : Prop :=
  pairs.map Prod.fst = SPECS.map Spec.key ∧ ∀ p ∈ pairs, Own p.2 (content files p.1)

/-- A row of the cache is as it was, or belongs to a key of the allowlist and holds that
param's text. -/
def RowsOwn (files : Files) (dongle : Text) (t t' : ParamTable) : Prop :=
  ∀ r ∈ t'.rows, r ∈ t.rows ∨
    r.dongle_id = dongle ∧ (∃ s ∈ SPECS, s.key = r.key) ∧ Own r.value (content files r.key)

/-- `read_all` returns the right pairs, and what `refresh` has stored after any number of its
statements is right. -/
def ReadsOwn (files : Files) : Prop :=
  PairsOwn files (read_all (dump files)) ∧
  ∀ dongle t n, RowsOwn files dongle t (refresh dongle ((read_all (dump files)).take n) t)

/-- Without the line feeds at its end. -/
def chomp (text : Text) : Text := text.rdropWhile fun c => decide (c = '\n')

/-- A single line, whatever line feeds follow it, and no carriage return at its end. -/
def OneLine (text : Text) : Prop := '\n' ∉ chomp text ∧ (chomp text).getLast? ≠ some '\r'

instance (text : Text) : Decidable (OneLine text) :=
  inferInstanceAs (Decidable ('\n' ∉ chomp text ∧ (chomp text).getLast? ≠ some '\r'))

/-! ## One line -/

theorem own_chomp (text : Text) : Own (chomp text) text := by
  refine ⟨(text.rtakeWhile fun c => decide (c = '\n')).length, ?_⟩
  have feeds : ∀ c ∈ text.rtakeWhile fun c => decide (c = '\n'), c = '\n' := by
    intro c inside
    have feed := List.mem_rtakeWhile_imp inside
    exact of_decide_eq_true feed
  rw [← List.eq_replicate_of_mem feeds]
  exact List.rdropWhile_append_rtakeWhile.symm

theorem chomp_of_own {value text : Text} (own : Own value text) (clean : '\n' ∉ value) :
    chomp text = value := by
  obtain ⟨n, rfl⟩ := own
  unfold chomp
  induction n with
  | zero =>
      rw [List.replicate_zero, List.append_nil]
      apply List.rdropWhile_eq_self_iff.2
      intro some_text last
      exact clean (of_decide_eq_true last ▸ List.getLast_mem some_text)
  | succ n ih =>
      rw [List.replicate_succ', ← List.append_assoc, List.rdropWhile_concat_pos _ _ _ (by simp), ih]

/-! ## Pairs -/

/-- The line that the dump prints for a key. -/
def entry (key text : Text) : Text := key ++ '\t' :: text ++ ['\n']

theorem read_all_append (s rest : Text) :
    read_all (s ++ '\n' :: rest) = read_all (s ++ ['\n']) ++ read_all rest := by
  unfold read_all
  rw [Text.lines_terminated_append, List.filterMap_append]

/-- The entries are read one by one. -/
theorem read_all_dump (files : Files) :
    read_all (dump files) = SPECS.flatMap fun s => read_all (entry s.key (content files s.key)) := by
  unfold dump
  induction SPECS with
  | nil => rfl
  | cons s specs ih =>
      rw [List.flatMap_cons, List.flatMap_cons, ← ih]
      have apart := read_all_append (s.key ++ '\t' :: content files s.key)
        (specs.flatMap fun s => s.key ++ '\t' :: (files s.key).getD [] ++ ['\n'])
      rw [List.append_cons] at apart
      exact apart

/-- The first line of an entry gives the key its value; the others are read as pairs too. -/
theorem read_all_entry {key first : Text} (untabbed : '\t' ∉ key) (unbroken : '\n' ∉ key)
    (clean : '\n' ∉ first) (rest : Text) :
    read_all (key ++ '\t' :: (first ++ '\n' :: rest)) = (key, Text.strip_cr first) :: read_all rest := by
  have line : '\n' ∉ key ++ '\t' :: first := by simp [unbroken, clean]
  have stripped : Text.strip_cr (key ++ '\t' :: first) = key ++ '\t' :: Text.strip_cr first := by
    unfold Text.strip_cr
    cases first with
    | nil => simp
    | cons c first =>
        simp only [List.getLast?_append_cons, List.getLast?_cons_cons]
        by_cases last : (c :: first).getLast? = some '\r'
        · rw [if_pos last, if_pos last, List.dropLast_append_cons, List.dropLast_cons_cons]
        · rw [if_neg last, if_neg last]
  have grouped : key ++ '\t' :: (first ++ '\n' :: rest) = (key ++ '\t' :: first) ++ '\n' :: rest := by simp
  unfold read_all
  rw [grouped, Text.lines_append line, stripped, List.filterMap_cons,
    Text.split_once_append untabbed]

theorem read_all_feeds (n : Nat) : read_all (List.replicate n '\n') = [] := by
  induction n with
  | zero => rfl
  | succ n ih =>
      have apart := read_all_append [] (List.replicate n '\n')
      rw [ih] at apart
      exact apart

/-- A text ends its first line at a line feed, its own or the one printed after it. -/
theorem first_line (text : Text) :
    ∃ first rest, text ++ ['\n'] = first ++ '\n' :: rest ∧ '\n' ∉ first := by
  obtain ⟨⟨first, rest⟩, split⟩ :=
    Text.split_once_of_mem (show '\n' ∈ text ++ ['\n'] by simp)
  exact ⟨first, rest, Text.split_once_eq_some split⟩

theorem keys_plain : ∀ s ∈ SPECS, '\t' ∉ s.key ∧ '\n' ∉ s.key := by decide +kernel

theorem entry_of_one_line {s : Spec} (listed : s ∈ SPECS) {text : Text} (single : OneLine text) :
    read_all (entry s.key text) = [(s.key, chomp text)] := by
  obtain ⟨untabbed, unbroken⟩ := keys_plain s listed
  obtain ⟨n, whole⟩ := own_chomp text
  have shape : entry s.key text =
      s.key ++ '\t' :: (chomp text ++ '\n' :: List.replicate n '\n') := by
    unfold entry
    rw [← List.replicate_succ, List.replicate_succ', ← List.append_assoc (chomp text), ← whole]
    simp
  rw [shape, read_all_entry untabbed unbroken single.1, read_all_feeds,
    Text.strip_cr_of_last single.2]

theorem one_line_of_entry {s : Spec} (listed : s ∈ SPECS) {text : Text}
    (own : ∀ value, (s.key, value) ∈ read_all (entry s.key text) → Own value text) : OneLine text := by
  obtain ⟨untabbed, unbroken⟩ := keys_plain s listed
  obtain ⟨first, rest, whole, clean⟩ := first_line text
  have pairs : read_all (entry s.key text) = (s.key, Text.strip_cr first) :: read_all rest := by
    rw [← read_all_entry untabbed unbroken clean, ← whole]
    simp [entry]
  have kept : Own (Text.strip_cr first) text := own _ (pairs ▸ List.mem_cons_self)
  have stripped : '\n' ∉ Text.strip_cr first := fun inside => clean (Text.strip_cr_subset first _ inside)
  -- the value and the first line both end at the first line feed
  have same : Text.strip_cr first = first := by
    obtain ⟨n, text_is⟩ := kept
    have ends : Text.strip_cr first ++ '\n' :: List.replicate n '\n' = first ++ '\n' :: rest := by
      rw [← whole, ← List.replicate_succ, List.replicate_succ', ← List.append_assoc, ← text_is]
    have split := congrArg (Text.split_once '\n') ends
    rw [Text.split_once_append stripped, Text.split_once_append clean] at split
    exact congrArg Prod.fst (Option.some_inj.1 split)
  rw [same] at kept
  have chomped := chomp_of_own kept clean
  exact ⟨chomped ▸ clean, chomped ▸ Text.last_of_strip_cr same⟩

/-! ## The rows -/

theorem refresh_row_own {files : Files} {dongle key value : Text} (listed : ∃ s ∈ SPECS, s.key = key)
    (own : Own value (content files key)) (t : ParamTable) :
    RowsOwn files dongle t (refresh_row dongle key value t) := by
  intro r member
  have found : (refresh_row dongle key value t).get? r.id = some r := Table.get?_eq_some.2 ⟨member, rfl⟩
  rw [get?_refresh_row] at found
  by_cases here : r.id = (dongle, key)
  · rw [if_pos here, here, Option.some_inj] at found
    obtain ⟨dongle_is, key_is⟩ := Prod.mk.inj here
    cases before : t.get? (dongle, key) with
    | none =>
        rw [before] at found
        subst found
        exact Or.inr ⟨rfl, listed, own⟩
    | some old =>
        rw [before, Option.map_some, Option.getD_some] at found
        by_cases free : old.pending = 0
        · rw [if_pos free] at found
          subst found
          rw [show old.key = key from key_is]
          exact Or.inr ⟨dongle_is, listed, own⟩
        · rw [if_neg free] at found
          subst found
          exact Or.inl (Table.get?_eq_some.1 before).1
  · rw [if_neg here] at found
    exact Or.inl (Table.get?_eq_some.1 found).1

/-- A run of upserts with the right pairs stores what is right. -/
theorem refresh_own {files : Files} {dongle : Text} {pairs : List (Text × Text)}
    (right : ∀ p ∈ pairs, (∃ s ∈ SPECS, s.key = p.1) ∧ Own p.2 (content files p.1)) (t : ParamTable) :
    RowsOwn files dongle t (refresh dongle pairs t) := by
  induction pairs generalizing t with
  | nil => exact fun r member => Or.inl member
  | cons p pairs ih =>
      rw [List.forall_mem_cons] at right
      intro r member
      rcases ih right.2 (refresh_row dongle p.1 p.2 t) r member with earlier | now
      · exact refresh_row_own right.1.1 right.1.2 t r earlier
      · exact Or.inr now

/-- The params are read as they are if and only if each of them is a single line. -/
theorem reads_own_iff (files : Files) :
    ReadsOwn files ↔ ∀ s ∈ SPECS, OneLine (content files s.key) := by
  constructor
  · rintro ⟨⟨-, own⟩, -⟩ s listed
    apply one_line_of_entry listed
    intro value inside
    apply own (s.key, value)
    rw [read_all_dump]
    exact List.mem_flatMap.2 ⟨s, listed, inside⟩
  · intro single
    have pairs : read_all (dump files) = SPECS.map fun s => (s.key, chomp (content files s.key)) := by
      rw [read_all_dump, List.map_eq_flatMap]
      exact List.flatMap_congr fun s listed => entry_of_one_line listed (single s listed)
    have right : ∀ p ∈ read_all (dump files),
        (∃ s ∈ SPECS, s.key = p.1) ∧ Own p.2 (content files p.1) := by
      intro p member
      rw [pairs] at member
      obtain ⟨s, listed, rfl⟩ := List.mem_map.1 member
      exact ⟨⟨s, listed, rfl⟩, own_chomp _⟩
    refine ⟨⟨?_, fun p member => (right p member).2⟩, fun dongle t n => ?_⟩
    · rw [pairs, List.map_map]
      rfl
    · apply refresh_own
      exact fun p member => right p (List.mem_of_mem_take member)

/-! ## Poles -/

/-- A device with one param set. -/
private def one_param (key text : Text) : Files := fun k => if k = key then some text else none

/-- A param of two lines, the second with a tab, is read as two pairs. -/
theorem second_line_poses : ¬ ∀ files : Files, ReadsOwn files := by
  intro claim
  have single := (claim (one_param "GithubUsername" "me\nDongleId\tother")).1.1
  revert single
  decide +kernel

end HomeConnect.Params
