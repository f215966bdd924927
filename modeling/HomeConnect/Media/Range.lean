/-
# Media.Range -- a file, or the part of it that a `Range` header names

`serve_file` streams a file whole, or the bytes of a single range.  `parse_range` computes
the last position as `len - 1` before it looks at the range, and a file of no bytes has
none: a build that checks its arithmetic panics there (`ranges_answered_iff`), one that
does not wraps and then finds that the range starts past the end
(`ranges_answered_wrapping`).
-/
import HomeConnect.Base.Request
import Mathlib.Data.List.TakeWhile

namespace HomeConnect.Media.Range

set_option autoImplicit false

/-! ## Arithmetic -/

/-- How integer arithmetic is built: a debug build panics where a release build wraps. -/
inductive Build where
  | checked
  | wrapping
deriving DecidableEq, Repr

inductive Fault where
  | Overflow
deriving DecidableEq, Repr

def sub_u64 (build : Build) (a b : Nat) : Except Fault Nat :=
  if b ≤ a then .ok (a - b)
  else
    match build with
    | .checked => .error .Overflow
    | .wrapping => .ok (2 ^ 64 + a - b)

def add_u64 (build : Build) (a b : Nat) : Except Fault Nat :=
  if a + b < 2 ^ 64 then .ok (a + b)
  else
    match build with
    | .checked => .error .Overflow
    | .wrapping => .ok (a + b - 2 ^ 64)

/-! ## parse_range -/

/-- `HeaderValue::to_str`: visible ASCII, blanks and tabs. -/
def to_str (raw : Text) : Option Text :=
  if raw.all fun c => (32 ≤ c.toNat && c.toNat < 127) || c = '\t' then some raw else none

/-- Start and last position as the header has them, of a file of this length. -/
def bounds (build : Build) (s e : Text) (len : Nat) : Except Fault (Option (Nat × Nat)) :=
  match Text.trim s, Text.trim e with
  | [], [] => pure none
  | [], suffix =>
      match Text.parse_u64 suffix with
      | none => pure none
      | some n => do
          -- The last N bytes.
          let n := min n len
          let start ← sub_u64 build len n
          let last ← sub_u64 build len 1
          pure (some (start, last))
  | start, [] =>
      match Text.parse_u64 start with
      | none => pure none
      | some start => do
          let last ← sub_u64 build len 1
          pure (some (start, last))
  | start, stop =>
      match Text.parse_u64 start, Text.parse_u64 stop with
      | some start, some stop => do
          let last ← sub_u64 build len 1
          pure (some (start, min stop last))
      | _, _ => pure none

/-- Parse a single-range `Range: bytes=start-end` header against a known length; the end is
inclusive. -/
def parse_range (build : Build) (header : Option Text) (len : Nat) :
    Except Fault (Option (Nat × Nat)) :=
  match (header.bind to_str).bind (Text.strip_prefix "bytes=") with
  | none => pure none
  | some spec =>
      if Text.contains spec "," then pure none
      else
        match Text.split_once '-' spec with
        | none => pure none
        | some (s, e) => do
            match ← bounds build s e len with
            | none => pure none
            | some (start, last) =>
                if start > last ∨ start ≥ len then pure none else pure (some (start, last))

/-! ## serve_file -/

/-- A file's length is a `u64`. -/
structure File where
  bytes : List UInt8
  fits : bytes.length < 2 ^ 64

abbrev File.len (f : File) : Nat := f.bytes.length

structure Response where
  status : Nat
  headers : List (Text × Text)
  body : List UInt8
deriving DecidableEq, Repr

def content_range (start last len : Nat) : Text :=
  let unit : Text := "bytes "
  unit ++ Text.decimal start ++ '-' :: Text.decimal last ++ '/' :: Text.decimal len

/-- `f.take(n)` after a seek: what is there of `n` bytes from `start` on. -/
def File.read (f : File) (start n : Nat) : List UInt8 := (f.bytes.drop start).take n

/-- Stream a file with `Range` support; `none` is a file that does not open. -/
def serve_file (build : Build) (file : Option File) (ct : Text) (header : Option Text) :
    Except Fault (Except AppError Response) :=
  match file with
  | none => pure (.error (.NotFound "file not found"))
  | some f => do
      match ← parse_range build header f.len with
      | some (start, last) =>
          let rest ← sub_u64 build last start
          let chunk ← add_u64 build rest 1
          pure (.ok
            { status := 206
              headers :=
                [("content-type", ct), ("accept-ranges", "bytes"),
                  ("content-range", content_range start last f.len),
                  ("content-length", Text.decimal chunk)]
              body := f.read start chunk })
      | none =>
          pure (.ok
            { status := 200
              headers :=
                [("content-type", ct), ("accept-ranges", "bytes"),
                  ("content-length", Text.decimal f.len)]
              body := f.bytes })

/-! ## What a header names -/

/-- A single range of bytes, with the numbers of the header. -/
inductive Named where
  | closed (first last : Nat)
  | onwards (first : Nat)
  | suffix (n : Nat)
deriving DecidableEq, Repr

/-- Is position `i` of a file of this length meant? -/
def Named.Holds (len : Nat) : Named → Nat → Prop
  | .closed first last, i => first ≤ i ∧ i ≤ last
  | .onwards first, i => first ≤ i
  | .suffix n, i => len ≤ i + n

/-- What is before and after the dash. -/
inductive Numbers (s e : Text) : Named → Prop
  | closed {first last : Nat} (low : Text.parse_u64 (Text.trim s) = some first)
      (high : Text.parse_u64 (Text.trim e) = some last) : Numbers s e (.closed first last)
  | onwards {first : Nat} (low : Text.parse_u64 (Text.trim s) = some first)
      (blank : Text.trim e = []) : Numbers s e (.onwards first)
  | suffix {n : Nat} (blank : Text.trim s = []) (count : Text.parse_u64 (Text.trim e) = some n) :
      Numbers s e (.suffix n)

/-- The header is a single range. -/
def Names (header : Option Text) (r : Named) : Prop :=
  ∃ s e, header.bind to_str = some (("bytes=" : Text) ++ s ++ '-' :: e) ∧ Numbers s e r

/-- The range is answered with the bytes it names. -/
structure Answered (build : Build) (f : File) (ct : Text) (header : Option Text) : Prop where
  arithmetic : parse_range build header f.len ≠ .error .Overflow
  named : ∀ start last, parse_range build header f.len = .ok (some (start, last)) →
    start ≤ last ∧ last < f.len ∧ (∃ r, Names header r) ∧
      ∀ r, Names header r → ∀ i, start ≤ i ∧ i ≤ last ↔ i < f.len ∧ r.Holds f.len i
  sent : ∀ start last, parse_range build header f.len = .ok (some (start, last)) →
    ∃ response, serve_file build (some f) ct header = .ok (.ok response) ∧ response.status = 206 ∧
      response.body.length = last - start + 1 ∧
      (∀ i < last - start + 1, response.body[i]? = f.bytes[start + i]?) ∧
      (("content-range" : Text), content_range start last f.len) ∈ response.headers ∧
      (("content-length" : Text), Text.decimal (last - start + 1 : Nat)) ∈ response.headers
  nothing : parse_range build header f.len = .ok none ↔
    ∀ r, Names header r → ∀ i < f.len, ¬ r.Holds f.len i

/-! ## Numbers -/

theorem clean_of_parse_digits {s : Text} {n : Nat} (parsed : Text.parse_digits s = some n) :
    s ≠ [] ∧ ∀ c ∈ s, c.isDigit = true := by
  unfold Text.parse_digits at parsed
  split at parsed
  · next digits => exact ⟨digits.1, List.all_eq_true.1 digits.2⟩
  · cases parsed

theorem clean_of_parse_u64 {s : Text} {n : Nat} (parsed : Text.parse_u64 s = some n) :
    s ≠ [] ∧ ∀ c ∈ s, c = '+' ∨ c.isDigit = true := by
  unfold Text.parse_u64 at parsed
  split at parsed
  · next ds =>
      obtain ⟨m, digits, _⟩ := Option.bind_eq_some_iff.1 parsed
      refine ⟨List.cons_ne_nil _ _, fun c member => ?_⟩
      rcases List.mem_cons.1 member with plus | digit
      · exact .inl plus
      · exact .inr ((clean_of_parse_digits digits).2 c digit)
  · obtain ⟨m, digits, _⟩ := Option.bind_eq_some_iff.1 parsed
    obtain ⟨nonempty, clean⟩ := clean_of_parse_digits digits
    exact ⟨nonempty, fun c member => .inr (clean c member)⟩

/-- Trimming takes blanks only. -/
theorem mem_trim {s : Text} {c : Char} (member : c ∈ s) (solid : Text.is_whitespace c = false) :
    c ∈ Text.trim s := by
  have drop : ∀ t : Text, c ∈ t → c ∈ t.dropWhile Text.is_whitespace := by
    intro t listed
    rw [← List.takeWhile_append_dropWhile (p := Text.is_whitespace) (l := t), List.mem_append] at listed
    rcases listed with blank | rest
    · rw [List.mem_takeWhile_imp blank] at solid
      cases solid
    · exact rest
  exact List.mem_reverse.2 (drop _ (List.mem_reverse.2 (drop _ member)))

/-- Neither half of a range has a separator in it. -/
theorem Numbers.clean {s e : Text} {r : Named} (numbers : Numbers s e r) {c : Char}
    (solid : Text.is_whitespace c = false) (other : c ≠ '+') (no_digit : c.isDigit = false) :
    c ∉ s ∧ c ∉ e := by
  have number : ∀ {t : Text} {n : Nat}, Text.parse_u64 (Text.trim t) = some n → c ∉ t := by
    intro t n parsed member
    rcases (clean_of_parse_u64 parsed).2 c (mem_trim member solid) with plus | digit
    · exact other plus
    · rw [digit] at no_digit
      cases no_digit
  have blank : ∀ {t : Text}, Text.trim t = [] → c ∉ t := by
    intro t none member
    have kept := mem_trim member solid
    rw [none] at kept
    cases kept
  cases numbers with
  | closed low high => exact ⟨number low, number high⟩
  | onwards low none => exact ⟨number low, blank none⟩
  | suffix none count => exact ⟨blank none, number count⟩

/-! ## What is parsed -/

/-- Start and last position, when the file's last position is this. -/
def Named.between (len last : Nat) : Named → Nat × Nat
  | .closed first stop => (first, min stop last)
  | .onwards first => (first, last)
  | .suffix n => (len - min n len, last)

def clip (len : Nat) (p : Nat × Nat) : Option (Nat × Nat) :=
  if p.1 > p.2 ∨ p.1 ≥ len then none else some p

theorem bounds_of_numbers (build : Build) {s e : Text} {r : Named} (numbers : Numbers s e r) (len : Nat) :
    bounds build s e len =
      (sub_u64 build len 1).map fun last => some (r.between len last) := by
  have solid : ∀ {t : Text} {n : Nat}, Text.parse_u64 t = some n → ∃ c cs, t = c :: cs := fun parsed =>
    List.exists_cons_of_ne_nil (clean_of_parse_u64 parsed).1
  cases numbers with
  | @closed first last low high =>
      obtain ⟨c, cs, start⟩ := solid low
      obtain ⟨d, ds, stop⟩ := solid high
      rw [start] at low
      rw [stop] at high
      unfold bounds
      rw [start, stop]
      simp only [low, high]
      cases sub_u64 build len 1 <;> rfl
  | @onwards first low none =>
      obtain ⟨c, cs, start⟩ := solid low
      rw [start] at low
      unfold bounds
      rw [start, none]
      simp only [low]
      cases sub_u64 build len 1 <;> rfl
  | @suffix n none count =>
      obtain ⟨d, ds, stop⟩ := solid count
      rw [stop] at count
      have fits : sub_u64 build len (min n len) = .ok (len - min n len) := if_pos (Nat.min_le_right n len)
      unfold bounds
      rw [none, stop]
      simp only [count, fits]
      cases sub_u64 build len 1 <;> rfl

theorem bounds_of_none (build : Build) {s e : Text} (none : ∀ r, ¬ Numbers s e r) (len : Nat) :
    bounds build s e len = .ok .none := by
  unfold bounds
  split
  · rfl
  · next suffix blank nonempty =>
      cases parsed : Text.parse_u64 (Text.trim e) with
      | none => rfl
      | some n => exact (none _ (.suffix blank parsed)).elim
  · next start blank nonempty =>
      cases parsed : Text.parse_u64 (Text.trim s) with
      | none => rfl
      | some n => exact (none _ (.onwards parsed blank)).elim
  · next start stop nonempty nonempty' both =>
      cases low : Text.parse_u64 (Text.trim s) with
      | none => rfl
      | some first =>
          cases high : Text.parse_u64 (Text.trim e) with
          | none => rfl
          | some last => exact (none _ (.closed low high)).elim

theorem parse_range_of_names (build : Build) {header : Option Text} {r : Named} (names : Names header r)
    (len : Nat) :
    parse_range build header len =
      (sub_u64 build len 1).map fun last => clip len (r.between len last) := by
  obtain ⟨s, e, shape, numbers⟩ := names
  obtain ⟨comma, comma'⟩ := numbers.clean (c := ',') (by decide) (by decide) (by decide)
  obtain ⟨dash, _⟩ := numbers.clean (c := '-') (by decide) (by decide) (by decide)
  have stripped : (header.bind to_str).bind (Text.strip_prefix "bytes=") = some (s ++ '-' :: e) := by
    rw [shape, Option.bind_some, List.append_assoc]
    unfold Text.strip_prefix
    rw [if_pos (List.prefix_append _ _), List.drop_left]
  have single : Text.contains (s ++ '-' :: e) "," = false := by
    unfold Text.contains
    rw [decide_eq_false_iff_not]
    intro inside
    have listed := inside.subset (List.mem_cons_self : ',' ∈ [','])
    simp [comma, comma'] at listed
  unfold parse_range
  rw [stripped]
  simp only [single, Text.split_once_append dash, bounds_of_numbers build numbers]
  cases sub_u64 build len 1 with
  | error fault => rfl
  | ok last =>
      have clipped : ∀ p : Nat × Nat,
          (if p.1 > p.2 ∨ p.1 ≥ len then pure none else pure (some p) : Except Fault _) =
            .ok (clip len p) := by
        intro p
        unfold clip
        split <;> rfl
      exact clipped (r.between len last)

theorem parse_range_of_none (build : Build) {header : Option Text} (none : ∀ r, ¬ Names header r)
    (len : Nat) : parse_range build header len = .ok .none := by
  unfold parse_range
  split
  · rfl
  · next spec stripped =>
      split
      · rfl
      · split
        · rfl
        · next s e halves =>
            have shape : header.bind to_str = some (("bytes=" : Text) ++ s ++ '-' :: e) := by
              obtain ⟨raw, is, strip⟩ := Option.bind_eq_some_iff.1 stripped
              unfold Text.strip_prefix at strip
              split at strip
              · next starts =>
                  obtain ⟨rest, rfl⟩ := starts
                  rw [List.drop_left, Option.some_inj] at strip
                  rw [is, strip, (Text.split_once_eq_some halves).1, List.append_assoc]
              · cases strip
            rw [bounds_of_none build fun r numbers => none r ⟨s, e, shape, numbers⟩]
            rfl

/-! ## What is answered -/

/-- The positions between the bounds of a range are those it names. -/
theorem mem_between {len : Nat} (nonempty : len ≠ 0) (r : Named) (i : Nat) :
    (r.between len (len - 1)).1 ≤ i ∧ i ≤ (r.between len (len - 1)).2 ↔ i < len ∧ r.Holds len i := by
  cases r with
  | closed first last =>
      show first ≤ i ∧ i ≤ min last (len - 1) ↔ i < len ∧ first ≤ i ∧ i ≤ last
      omega
  | onwards first =>
      show first ≤ i ∧ i ≤ len - 1 ↔ i < len ∧ first ≤ i
      omega
  | suffix n =>
      show len - min n len ≤ i ∧ i ≤ len - 1 ↔ i < len ∧ len ≤ i + n
      omega

theorem clip_eq_some {len start last : Nat} {p : Nat × Nat} (kept : clip len p = some (start, last)) :
    p = (start, last) ∧ start ≤ last ∧ start < len := by
  unfold clip at kept
  split at kept
  · cases kept
  · next inside =>
      cases kept
      dsimp only at inside
      exact ⟨rfl, by omega, by omega⟩

theorem clip_eq_none {len : Nat} {p : Nat × Nat} (short : p.2 < len) :
    clip len p = none ↔ ∀ i, ¬ (p.1 ≤ i ∧ i ≤ p.2) := by
  unfold clip
  split
  · next outside =>
      refine ⟨fun _ i inside => ?_, fun _ => rfl⟩
      omega
  · next inside =>
      refine ⟨nofun, fun empty => ?_⟩
      exact (empty p.1 ⟨Nat.le_refl _, by omega⟩).elim

theorem sub_u64_of_le (build : Build) {a b : Nat} (le : b ≤ a) : sub_u64 build a b = .ok (a - b) := if_pos le

/-- The parse of a range, for a file that has bytes. -/
theorem parse_range_of_nonempty (build : Build) {header : Option Text} {r : Named}
    (names : Names header r) {len : Nat} (nonempty : len ≠ 0) :
    parse_range build header len = .ok (clip len (r.between len (len - 1))) := by
  rw [parse_range_of_names build names, sub_u64_of_le build (Nat.one_le_iff_ne_zero.2 nonempty)]
  rfl

/-- What is parsed is sent. -/
theorem serve_file_of_range (build : Build) (f : File) (ct : Text) {header : Option Text}
    {start last : Nat} (parsed : parse_range build header f.len = .ok (some (start, last)))
    (order : start ≤ last) (inside : last < f.len) :
    serve_file build (some f) ct header = .ok (.ok
      { status := 206
        headers :=
          [("content-type", ct), ("accept-ranges", "bytes"),
            ("content-range", content_range start last f.len),
            ("content-length", Text.decimal (last - start + 1 : Nat))]
        body := f.read start (last - start + 1) }) := by
  have room : last - start + 1 < 2 ^ 64 :=
    Nat.lt_of_le_of_lt (by omega : last - start + 1 ≤ f.len) f.fits
  have chunk : add_u64 build (last - start) 1 = .ok (last - start + 1) := if_pos room
  unfold serve_file
  simp only [parsed]
  show (sub_u64 build last start).bind _ = _
  rw [sub_u64_of_le build order]
  show (add_u64 build (last - start) 1).bind _ = _
  rw [chunk]
  rfl

theorem length_read {f : File} {start n : Nat} (inside : start + n ≤ f.len) : (f.read start n).length = n := by
  unfold File.read
  rw [List.length_take, List.length_drop]
  exact Nat.min_eq_left (Nat.le_sub_of_add_le' inside)

theorem getElem_read {f : File} {start n i : Nat} (short : i < n) :
    (f.read start n)[i]? = f.bytes[start + i]? := by
  unfold File.read
  rw [List.getElem?_take, if_pos short, List.getElem?_drop]

/-- Whatever was parsed within the file is sent as it should. -/
theorem sent_of_range (build : Build) (f : File) (ct : Text) {header : Option Text} {start last : Nat}
    (parsed : parse_range build header f.len = .ok (some (start, last)))
    (order : start ≤ last) (inside : last < f.len) :
    ∃ response, serve_file build (some f) ct header = .ok (.ok response) ∧ response.status = 206 ∧
      response.body.length = last - start + 1 ∧
      (∀ i < last - start + 1, response.body[i]? = f.bytes[start + i]?) ∧
      (("content-range" : Text), content_range start last f.len) ∈ response.headers ∧
      (("content-length" : Text), Text.decimal (last - start + 1 : Nat)) ∈ response.headers := by
  refine ⟨_, serve_file_of_range build f ct parsed order inside, rfl, ?_, ?_, ?_, ?_⟩
  · exact length_read (by omega)
  · intro i short
    exact getElem_read short
  · simp
  · simp

/-- A header that is no single range is never answered with a part. -/
theorem answered_of_none (build : Build) (f : File) (ct : Text) {header : Option Text}
    (no_range : ∀ r, ¬ Names header r) : Answered build f ct header := by
  have none := parse_range_of_none build no_range f.len
  constructor
  · rw [none]
    nofun
  · intro start last ok
    cases none.symm.trans ok
  · intro start last ok
    cases none.symm.trans ok
  · exact ⟨fun _ r names => (no_range r names).elim, fun _ => none⟩

/-- A file that has bytes is served as it should. -/
theorem answered_of_nonempty (build : Build) {f : File} (nonempty : f.len ≠ 0) (ct : Text)
    (header : Option Text) : Answered build f ct header := by
  by_cases single : ∃ r, Names header r
  · obtain ⟨r, names⟩ := single
    have parsed : ∀ r', Names header r' → parse_range build header f.len =
        .ok (clip f.len (r'.between f.len (f.len - 1))) :=
      fun r' names' => parse_range_of_nonempty build names' nonempty
    have within : ∀ start last, parse_range build header f.len = .ok (some (start, last)) →
        start ≤ last ∧ last < f.len ∧ ∀ r', Names header r' →
          r'.between f.len (f.len - 1) = (start, last) := by
      intro start last ok
      have same : ∀ r', Names header r' → clip f.len (r'.between f.len (f.len - 1)) = some (start, last) :=
        fun r' names' => Except.ok.inj ((parsed r' names').symm.trans ok)
      obtain ⟨is, order, _⟩ := clip_eq_some (same r names)
      have last_in := (mem_between nonempty r last).1 (by rw [is]; exact ⟨order, Nat.le_refl _⟩)
      exact ⟨order, last_in.1, fun r' names' => (clip_eq_some (same r' names')).1⟩
    constructor
    · rw [parsed r names]
      nofun
    · intro start last ok
      obtain ⟨order, inside, is⟩ := within start last ok
      refine ⟨order, inside, ⟨r, names⟩, fun r' names' i => ?_⟩
      have positions := mem_between nonempty r' i
      rwa [is r' names'] at positions
    · intro start last ok
      obtain ⟨order, inside, _⟩ := within start last ok
      exact sent_of_range build f ct ok order inside
    · have short : ∀ r' : Named, (r'.between f.len (f.len - 1)).2 < f.len := by
        intro r'
        cases r' with
        | closed first last =>
            show min last (f.len - 1) < f.len
            omega
        | onwards first =>
            show f.len - 1 < f.len
            omega
        | suffix n =>
            show f.len - 1 < f.len
            omega
      constructor
      · intro none r' names' i inside holds
        rw [parsed r' names'] at none
        exact (clip_eq_none (short r')).1 (Except.ok.inj none) i ((mem_between nonempty r' i).2 ⟨inside, holds⟩)
      · intro nothing
        rw [parsed r names, (clip_eq_none (short r)).2]
        intro i between
        obtain ⟨inside, holds⟩ := (mem_between nonempty r i).1 between
        exact nothing r names i inside holds
  · exact answered_of_none build f ct (not_exists.1 single)

/-- A `Range` request is answered with the bytes it names, unless the file has none and the
header is a range at all. -/
theorem ranges_answered_iff (f : File) (ct : Text) (header : Option Text) :
    Answered .checked f ct header ↔ f.bytes ≠ [] ∨ ∀ r, ¬ Names header r := by
  constructor
  · intro answered
    by_contra neither
    rw [not_or, not_not] at neither
    obtain ⟨empty, range⟩ := neither
    apply range
    intro r names
    apply answered.arithmetic
    rw [parse_range_of_names .checked names, File.len, empty]
    rfl
  · rintro (nonempty | no_range)
    · exact answered_of_nonempty .checked (fun none => nonempty (List.eq_nil_of_length_eq_zero none)) ct header
    · exact answered_of_none .checked f ct no_range

/-- A build that does not check its arithmetic answers every request with what it names. -/
theorem ranges_answered_wrapping (f : File) (ct : Text) (header : Option Text) :
    Answered .wrapping f ct header := by
  by_cases nonempty : f.len ≠ 0
  · exact answered_of_nonempty .wrapping nonempty ct header
  · by_cases no_range : ∀ r, ¬ Names header r
    · exact answered_of_none .wrapping f ct no_range
    · obtain ⟨r, names⟩ := Classical.not_forall_not.1 no_range
      have empty : f.len = 0 := not_not.1 nonempty
      -- The last position wraps to the greatest number, and every start is past the end.
      have none : parse_range .wrapping header f.len = .ok .none := by
        rw [parse_range_of_names .wrapping names, empty]
        show Except.ok (clip 0 _) = _
        unfold clip
        rw [if_pos (.inr (Nat.zero_le _))]
      constructor
      · rw [none]
        nofun
      · intro start last ok
        cases none.symm.trans ok
      · intro start last ok
        cases none.symm.trans ok
      · refine ⟨fun _ r' _ i inside _ => ?_, fun _ => none⟩
        omega

/-! ## Pole -/

/-- The first byte onwards of a file that has none. -/
theorem ranges_not_answered :
    ¬ ∀ (f : File) (ct : Text) (header : Option Text), Answered .checked f ct header := by
  intro claim
  apply (claim ⟨[], by decide⟩ "video/mp2t" (some "bytes=0-")).arithmetic
  decide

end HomeConnect.Media.Range
