/-
# Base.Text -- the string operations the server's code uses

Strings are lists of characters.  Each function here is one of the standard
library's, under its name there and with its documented behaviour.
-/
import Mathlib.Algebra.BigOperators.Group.List.Basic
import Mathlib.Algebra.Order.Field.Rat
import Mathlib.Data.Char
import Mathlib.Data.List.Dedup
import Mathlib.Data.List.Infix
import Mathlib.Data.List.Lex
import Mathlib.Data.List.Sort
import Mathlib.Data.Rat.Cast.Order

namespace HomeConnect

set_option autoImplicit false

abbrev Text := List Char

instance : Coe String Text := ⟨String.toList⟩

instance : LawfulBEq Text := inferInstanceAs (LawfulBEq (List Char))

-- What is said of every character of a text is decided along the text, not over all characters.
instance {t : Text} {p : Char → Prop} [DecidablePred p] : Decidable (∀ c ∈ t, p c) :=
  List.decidableBAll p t

namespace Text

/-- `str::split_once` at a character: the parts before and after its first
occurrence. -/
def split_once (c : Char) : Text → Option (Text × Text)
  | [] => none
  | x :: xs => if x = c then some ([], xs) else (split_once c xs).map fun p => (x :: p.1, p.2)

/-- `str::rsplit_once("--")`: the parts before and after its last occurrence. -/
def rsplit_once_dashes : Text → Option (Text × Text)
  | [] => none
  | c :: s =>
      match rsplit_once_dashes s with
      | some p => some (c :: p.1, p.2)
      | none =>
          match c, s with
          | '-', '-' :: rest => some ([], rest)
          | _, _ => none

/-- `str::contains`. -/
def contains (s needle : Text) : Bool := decide (needle <:+: s)

/-- `str::strip_prefix`. -/
def strip_prefix (pre s : Text) : Option Text :=
  if pre <+: s then some (s.drop pre.length) else none

/-- `str::strip_suffix`. -/
def strip_suffix (suffix s : Text) : Option Text :=
  if suffix <:+ s then some (s.take (s.length - suffix.length)) else none

/-- `str::split` at a character: every part, empty ones included. -/
def split (c : Char) : Text → List Text
  | [] => [[]]
  | x :: xs =>
      if x = c then [] :: split c xs
      else
        match split c xs with
        | [] => [[x]]
        | part :: parts => (x :: part) :: parts

/-- `str::split` at a text that is not empty: the occurrences from left to right that do not
overlap.  The number is how much of the last one has yet to go by. -/
def split_str (sep : Text) (s : Text) : List Text := go 0 s
where
  go : Nat → Text → List Text
    | _, [] => [[]]
    | skip + 1, _ :: rest => go skip rest
    | 0, c :: rest =>
        if sep <+: c :: rest then [] :: go (sep.length - 1) rest
        else
          match go 0 rest with
          | [] => [[c]]
          | part :: parts => (c :: part) :: parts

/-- The decimal rendering of an integer (`{n}` in a format string). -/
def decimal : Int → Text
  | .ofNat n => Nat.toDigits 10 n
  | .negSucc n => '-' :: Nat.toDigits 10 (n + 1)

/-- `{:.3}` of a number, in thousandths: rounded, and to even between two. -/
def thousandths (d : Rat) : Int :=
  let low := (d * 1000).floor
  let rest := d * 1000 - low
  if rest < 1 / 2 then low
  else if 1 / 2 < rest then low + 1
  else if low % 2 = 0 then low
  else low + 1

def two_digits (n : Int) : Text := if n < 10 then '0' :: decimal n else decimal n

def three_digits (n : Int) : Text := if n < 100 then '0' :: two_digits n else decimal n

/-- A line without the carriage return before its line feed. -/
def strip_cr (line : Text) : Text :=
  if line.getLast? = some '\r' then line.dropLast else line

/-- `str::lines`: a last line without a line feed counts, and keeps its carriage
return. -/
def lines (s : Text) : List Text := go [] s
where
  go (line : Text) : Text → List Text
    | [] => if line = [] then [] else [line]
    | c :: rest => if c = '\n' then strip_cr line :: go [] rest else go (line ++ [c]) rest

/-- The value of a non-empty run of decimal digits. -/
def parse_digits (s : Text) : Option Nat :=
  if s ≠ [] ∧ s.all Char.isDigit then some (Nat.ofDigitChars 10 s 0) else none

/-- `str::parse::<i64>`: an optional sign and digits, rejected outside the range. -/
def parse_i64 : Text → Option Int
  | '-' :: ds => (parse_digits ds).bind fun n => if n ≤ 2 ^ 63 then some (-n) else none
  | '+' :: ds => (parse_digits ds).bind fun n => if n < 2 ^ 63 then some (n : Int) else none
  | ds => (parse_digits ds).bind fun n => if n < 2 ^ 63 then some (n : Int) else none

/-- `str::parse::<u64>`: digits, after a plus sign if any. -/
def parse_u64 : Text → Option Nat
  | '+' :: ds => (parse_digits ds).bind fun n => if n < 2 ^ 64 then some n else none
  | ds => (parse_digits ds).bind fun n => if n < 2 ^ 64 then some n else none

/-- `char::is_whitespace`: the Unicode `White_Space` property. -/
def is_whitespace (c : Char) : Bool :=
  let n := c.toNat
  (9 ≤ n && n ≤ 13) || n = 32 || n = 0x85 || n = 0xa0 || n = 0x1680 ||
    (0x2000 ≤ n && n ≤ 0x200a) || n = 0x2028 || n = 0x2029 || n = 0x202f || n = 0x205f ||
    n = 0x3000

/-- `str::trim`. -/
def trim (s : Text) : Text :=
  ((s.dropWhile is_whitespace).reverse.dropWhile is_whitespace).reverse

/-- `str::eq_ignore_ascii_case`. -/
def eq_ignore_ascii_case (s t : Text) : Bool := decide (s.map Char.toLower = t.map Char.toLower)

/-- SQL's `LIKE`: `%` stands for any text and `_` for any character, and ASCII letters
match in either case. -/
def like : Text → Text → Bool
  | [], s => s.isEmpty
  | c :: pattern, s =>
      if c = '%' then s.tails.any (like pattern)
      else
        match s with
        | [] => false
        | x :: rest => (c = '_' || c.toLower = x.toLower) && like pattern rest

/-- `str::len`: the length in UTF-8 bytes. -/
def byte_len (s : Text) : Nat := (s.map Char.utf8Size).sum

/-- `head -c`, read back as UTF-8: a character that is cut reads as the replacement one. -/
def head_c : Nat → Text → Text
  | _, [] => []
  | n, c :: rest =>
      if c.utf8Size ≤ n then c :: head_c (n - c.utf8Size) rest
      else if n = 0 then [] else ['\uFFFD']

/-- `join` with a separator. -/
def join (sep : Text) : List Text → Text
  | [] => []
  | [t] => t
  | t :: ts => t ++ sep ++ join sep ts

/-- `Path::file_stem` of a file name: what is before its last dot, unless nothing is. -/
def file_stem (name : Text) : Text :=
  match name.reverse.dropWhile fun c => decide (c ≠ '.') with
  | '.' :: c :: stem => (c :: stem).reverse
  | _ => name

/-- `Path::with_extension` of a file name. -/
def with_extension (name ext : Text) : Text := file_stem name ++ "." ++ ext

/-! ## Splitting -/

theorem split_once_of_mem {c : Char} {s : Text} (member : c ∈ s) :
    ∃ p, split_once c s = some p := by
  induction s with
  | nil => cases member
  | cons x xs ih =>
      by_cases h : x = c
      · exact ⟨([], xs), by rw [split_once, if_pos h]⟩
      · obtain ⟨p, found⟩ := ih ((List.mem_cons.1 member).resolve_left (Ne.symm h))
        exact ⟨(x :: p.1, p.2), by rw [split_once, if_neg h, found]; rfl⟩

/-- A text is split after a part that does not hold the character. -/
theorem split_once_append {c : Char} {pre : Text} (clean : c ∉ pre) (rest : Text) :
    split_once c (pre ++ c :: rest) = some (pre, rest) := by
  induction pre with
  | nil => exact if_pos rfl
  | cons x pre ih =>
      have other : x ≠ c := fun same => clean (same ▸ List.mem_cons_self)
      have rest' := ih fun member => clean (List.mem_cons_of_mem _ member)
      rw [List.cons_append, split_once, if_neg other, rest']
      rfl

/-- The parts make up the text, and the first does not hold the character. -/
theorem split_once_eq_some {c : Char} {s pre rest : Text} (split : split_once c s = some (pre, rest)) :
    s = pre ++ c :: rest ∧ c ∉ pre := by
  induction s generalizing pre with
  | nil => cases split
  | cons x xs ih =>
      rw [split_once] at split
      by_cases here : x = c
      · rw [if_pos here] at split
        cases split
        exact ⟨by rw [here]; rfl, List.not_mem_nil⟩
      · rw [if_neg here] at split
        obtain ⟨⟨first, last⟩, found, parts⟩ := Option.map_eq_some_iff.1 split
        cases parts
        obtain ⟨whole, clean⟩ := ih found
        refine ⟨by rw [whole]; rfl, fun member => ?_⟩
        rcases List.mem_cons.1 member with same | later
        · exact here same.symm
        · exact clean later

theorem split_of_not_mem {c : Char} {s : Text} (clean : c ∉ s) : split c s = [s] := by
  induction s with
  | nil => rfl
  | cons x xs ih =>
      have other : x ≠ c := fun same => clean (same ▸ List.mem_cons_self)
      rw [split, if_neg other, ih fun member => clean (List.mem_cons_of_mem _ member)]

/-- The first part ends at the first separator. -/
theorem split_append {c : Char} {pre : Text} (clean : c ∉ pre) (rest : Text) :
    split c (pre ++ c :: rest) = pre :: split c rest := by
  induction pre with
  | nil => rw [List.nil_append, split, if_pos rfl]
  | cons x pre ih =>
      have other : x ≠ c := fun same => clean (same ▸ List.mem_cons_self)
      rw [List.cons_append, split, if_neg other,
        ih fun member => clean (List.mem_cons_of_mem _ member)]

theorem split_ne_nil (c : Char) (s : Text) : split c s ≠ [] := by
  cases s with
  | nil => exact List.cons_ne_nil _ _
  | cons x xs =>
      rw [split]
      split
      · exact List.cons_ne_nil _ _
      · split <;> exact List.cons_ne_nil _ _

/-- The parts on both sides of a separator. -/
theorem split_append_cons (c : Char) (s t : Text) :
    split c (s ++ c :: t) = split c s ++ split c t := by
  induction s with
  | nil => exact if_pos rfl
  | cons x s ih =>
      rw [List.cons_append, split, split, ih]
      split
      · rfl
      · cases parts : split c s with
        | nil => exact absurd parts (split_ne_nil c s)
        | cons part parts => rfl

/-- What goes by is not looked at. -/
theorem split_str_go_append (sep : Text) (gone rest : Text) :
    split_str.go sep gone.length (gone ++ rest) = split_str.go sep 0 rest := by
  induction gone with
  | nil => rfl
  | cons c gone ih => exact ih

/-- A text is split at the first place where the separator begins. -/
theorem split_str_append {sep pre : Text} (solid : sep ≠ [])
    (first : ∀ t, t ≠ [] → t <:+ pre → ¬ sep <+: t ++ sep) (rest : Text) :
    split_str sep (pre ++ sep ++ rest) = pre :: split_str sep rest := by
  obtain ⟨c, tail, rfl⟩ := List.exists_cons_of_ne_nil solid
  unfold split_str
  induction pre with
  | nil =>
      have here : c :: tail <+: c :: (tail ++ rest) := List.prefix_append (c :: tail) rest
      show split_str.go (c :: tail) 0 (c :: (tail ++ rest)) = _
      rw [split_str.go, if_pos here]
      exact congrArg (List.cons []) (split_str_go_append (c :: tail) tail rest)
  | cons x pre ih =>
      have later := ih fun t some_of_it within => first t some_of_it (within.trans (List.suffix_cons x pre))
      have here : ¬ c :: tail <+: x :: (pre ++ c :: tail ++ rest) := by
        intro begins
        apply first (x :: pre) (List.cons_ne_nil _ _) (List.suffix_refl _)
        have starts : x :: pre ++ c :: tail <+: x :: (pre ++ c :: tail ++ rest) :=
          List.prefix_append (x :: pre ++ c :: tail) rest
        refine List.prefix_of_prefix_length_le begins starts ?_
        simp only [List.length_cons, List.length_append]
        omega
      show split_str.go (c :: tail) 0 (x :: (pre ++ c :: tail ++ rest)) = _
      rw [split_str.go, if_neg here, later]

theorem file_stem_append {stem ext : Text} (plain : '.' ∉ ext) (nonempty : stem ≠ []) :
    file_stem (stem ++ "." ++ ext) = stem := by
  have last : (stem ++ "." ++ ext).reverse.dropWhile (fun c => decide (c ≠ '.')) =
      '.' :: stem.reverse := by
    have clean : ∀ c ∈ ext.reverse, decide (c ≠ '.') = true := by
      intro c member
      refine decide_eq_true fun same => plain (same ▸ List.mem_reverse.1 member)
    rw [List.reverse_append, List.reverse_append, List.dropWhile_append_of_pos clean]
    rfl
  rw [file_stem, last]
  cases reversed : stem.reverse with
  | nil => exact (nonempty (List.reverse_eq_nil_iff.1 reversed)).elim
  | cons c rest =>
      show (c :: rest).reverse = stem
      rw [← reversed, List.reverse_reverse]

/-- One step of `rsplit_once_dashes`: a later separator counts, or else one that begins
here. -/
theorem rsplit_cons (c : Char) (s : Text) :
    rsplit_once_dashes (c :: s) =
      match rsplit_once_dashes s with
      | some p => some (c :: p.1, p.2)
      | none => if c = '-' ∧ s.head? = some '-' then some ([], s.tail) else none := by
  rw [rsplit_once_dashes.eq_def]
  dsimp only
  cases rsplit_once_dashes s with
  | some p => rfl
  | none =>
      dsimp only
      split
      · simp
      · rename_i other
        refine (if_neg ?_).symm
        rintro ⟨rfl, dash⟩
        cases s with
        | nil => cases dash
        | cons d rest =>
            cases dash
            exact other rest rfl rfl

/-- A part without dashes is what comes after the last two. -/
theorem rsplit_append {pre last : Text} (plain : '-' ∉ last) :
    rsplit_once_dashes (pre ++ '-' :: '-' :: last) = some (pre, last) := by
  have clean : ∀ t : Text, '-' ∉ t → rsplit_once_dashes t = none := by
    intro t clean
    induction t with
    | nil => rfl
    | cons c t ih =>
        have other : c ≠ '-' := fun same => clean (same ▸ List.mem_cons_self)
        rw [rsplit_cons, ih fun member => clean (List.mem_cons_of_mem _ member)]
        exact if_neg fun both => other both.1
  induction pre with
  | nil =>
      have single : rsplit_once_dashes ('-' :: last) = none := by
        rw [rsplit_cons, clean last plain]
        refine if_neg fun both => plain (List.mem_of_mem_head? both.2)
      rw [List.nil_append, rsplit_cons, single]
      rfl
  | cons c pre ih => rw [List.cons_append, rsplit_cons, ih]

/-- What comes after the last two dashes does not begin with one. -/
theorem head_of_rsplit {s pre last : Text} (split : rsplit_once_dashes s = some (pre, last)) :
    last.head? ≠ some '-' := by
  induction s generalizing pre with
  | nil => cases split
  | cons c s ih =>
      rw [rsplit_cons] at split
      cases later : rsplit_once_dashes s with
      | some p =>
          rw [later] at split
          cases split
          exact ih later
      | none =>
          rw [later] at split
          obtain ⟨⟨_, second⟩, is⟩ := Option.ite_none_right_eq_some.1 split
          cases is
          intro third
          cases s with
          | nil => cases second
          | cons d rest =>
              -- then the separator would begin one later
              cases second
              rw [rsplit_cons] at later
              cases more : rsplit_once_dashes rest with
              | some p =>
                  rw [more] at later
                  cases later
              | none =>
                  rw [more] at later
                  simp only [List.tail_cons] at third
                  simp [third] at later

/-! ## Patterns -/

/-- A text matches itself followed by anything. -/
theorem like_prefix (pre rest : Text) : like (pre ++ ['%']) (pre ++ rest) = true := by
  induction pre with
  | nil =>
      simp only [List.nil_append, like, if_true, List.any_eq_true]
      exact ⟨[], by simp, rfl⟩
  | cons c pre ih =>
      simp only [List.cons_append, like]
      split
      · rw [List.any_eq_true]
        exact ⟨pre ++ rest, by simp, ih⟩
      · simp [ih]

/-! ## Decimals -/

theorem dash_not_digit {n : Nat} : '-' ∉ Nat.toDigits 10 n := by
  intro member
  have digit := Nat.isDigit_of_mem_toDigits (by omega) (by omega) member
  exact absurd digit (by decide)

theorem digit_range {c : Char} (digit : c.isDigit = true) : 48 ≤ c.toNat ∧ c.toNat - '0'.toNat < 10 := by
  have range := Char.isDigit_iff_toNat.1 digit
  have zero : '0'.toNat = 48 := rfl
  have nine : '9'.toNat = 57 := rfl
  omega

theorem digitChar_of_isDigit {c : Char} (digit : c.isDigit = true) :
    Nat.digitChar (c.toNat - '0'.toNat) = c := by
  obtain ⟨low, small⟩ := digit_range digit
  have zero : '0'.toNat = 48 := rfl
  apply Char.toNat_inj.1
  rw [Nat.toNat_digitChar_of_lt_ten small]
  omega

/-- Digits read after a number are printed after it. -/
theorem toDigits_append {cs : Text} (digits : ∀ c ∈ cs, c.isDigit = true) {n : Nat} (pos : 0 < n) :
    Nat.toDigits 10 n ++ cs = Nat.toDigits 10 (Nat.ofDigitChars 10 cs n) := by
  induction cs generalizing n with
  | nil => simp
  | cons c cs ih =>
      have digit := digits c List.mem_cons_self
      have small := (digit_range digit).2
      have one := Nat.toDigits_append_toDigits (b := 10) (by omega) pos small
      rw [Nat.toDigits_of_lt_base small, digitChar_of_isDigit digit] at one
      rw [Nat.ofDigitChars_cons, ← ih (fun d later => digits d (List.mem_cons_of_mem _ later)) (by omega), ← one,
        List.append_assoc]
      rfl

/-- Printed as it was read: no zero before other digits. -/
def Unpadded (s : Text) : Prop := s.head? = some '0' → s = ['0']

instance (s : Text) : Decidable (Unpadded s) := inferInstanceAs (Decidable (_ → _))

theorem unpadded_toDigits (n : Nat) : Unpadded (Nat.toDigits 10 n) := by
  induction n using Nat.base_induction 10 (by omega) with
  | single m small =>
      rw [Nat.toDigits_of_lt_base small]
      intro zero
      rw [← Option.some_inj.1 zero]
  | digit m k small pos ih =>
      rw [← Nat.toDigits_append_toDigits (by omega) pos small]
      intro zero
      rw [List.head?_append_of_ne_nil _ Nat.toDigits_ne_nil] at zero
      have only := congrArg (fun ds => Nat.ofDigitChars 10 ds 0) (ih zero)
      rw [Nat.ofDigitChars_ten_toDigits] at only
      exact absurd only (Nat.pos_iff_ne_zero.1 pos)

/-- The digits of a number are those it was read from, unless these begin with a zero. -/
theorem toDigits_of_parse_digits {s : Text} {n : Nat} (parsed : parse_digits s = some n) :
    Nat.toDigits 10 n = s ↔ Unpadded s := by
  constructor
  · rintro rfl
    exact unpadded_toDigits n
  · intro plain
    unfold parse_digits at parsed
    split at parsed
    · next shape =>
        obtain ⟨c, cs, rfl⟩ := List.exists_cons_of_ne_nil shape.1
        have digits := List.all_eq_true.1 shape.2
        obtain ⟨low, small⟩ := digit_range (digits c List.mem_cons_self)
        rw [← Option.some_inj.1 parsed]
        by_cases zero : c = '0'
        · rw [plain (congrArg some zero)]
          rfl
        · have pos : 0 < c.toNat - '0'.toNat := by
            have other : c.toNat ≠ '0'.toNat := fun same => zero (Char.toNat_inj.1 same)
            have code : '0'.toNat = 48 := rfl
            omega
          rw [Nat.ofDigitChars_cons, Nat.mul_zero, Nat.zero_add,
            ← toDigits_append (fun d later => digits d (List.mem_cons_of_mem _ later)) pos,
            Nat.toDigits_of_lt_base small, digitChar_of_isDigit (digits c List.mem_cons_self)]
          rfl
    · cases parsed

theorem parse_digits_toDigits (n : Nat) : parse_digits (Nat.toDigits 10 n) = some n := by
  unfold parse_digits
  rw [if_pos ⟨Nat.toDigits_ne_nil, List.all_eq_true.2 fun c digit =>
    Nat.isDigit_of_mem_toDigits (by omega) (by omega) digit⟩, Nat.ofDigitChars_ten_toDigits]

/-- A natural number in range is read back. -/
theorem parse_i64_decimal {n : Int} (natural : 0 ≤ n) (small : n < 2 ^ 63) :
    parse_i64 (decimal n) = some n := by
  obtain ⟨k, rfl⟩ := Int.eq_ofNat_of_zero_le natural
  obtain ⟨c, cs, shape⟩ := List.exists_cons_of_ne_nil (Nat.toDigits_ne_nil (n := k) (b := 10))
  have digit : c.isDigit = true :=
    Nat.isDigit_of_mem_toDigits (b := 10) (n := k) (by omega) (by omega) (shape ▸ List.mem_cons_self)
  have room : k < 2 ^ 63 := by omega
  show parse_i64 (Nat.toDigits 10 k) = _
  have parsed := parse_digits_toDigits k
  rw [shape] at parsed ⊢
  unfold parse_i64
  split
  · next is =>
      cases is
      cases digit
  · next is =>
      cases is
      cases digit
  · next is =>
      rw [parsed, Option.bind_some, if_pos room]

theorem toDigits_injective {m n : Nat} (same : Nat.toDigits 10 m = Nat.toDigits 10 n) : m = n := by
  have value := congrArg (fun ds => Nat.ofDigitChars 10 ds 0) same
  simpa [Nat.ofDigitChars_toDigits] using value

theorem decimal_injective {m n : Int} (same : decimal m = decimal n) : m = n := by
  cases m with
  | ofNat m =>
      cases n with
      | ofNat n => rw [toDigits_injective same]
      | negSucc n =>
          simp only [decimal] at same
          exact absurd (same ▸ List.mem_cons_self) dash_not_digit
  | negSucc m =>
      cases n with
      | ofNat n =>
          simp only [decimal] at same
          exact absurd (same ▸ List.mem_cons_self) dash_not_digit
      | negSucc n =>
          simp only [decimal, List.cons.injEq, true_and] at same
          have := toDigits_injective same
          rw [Int.negSucc_inj]
          omega

end Text

end HomeConnect
