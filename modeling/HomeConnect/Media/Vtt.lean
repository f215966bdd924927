/-
# Media.Vtt -- a transcript survives its rendering

What the parser takes out of a document are cues whose text is made of trimmed, non-empty
lines (`Tidy`).  Rendered as they are, without any escaping, these lines are read back one
by one: nothing is looked for inside a cue but the blank line that ends it.

So the cues of all the chunks, rendered as one document, are parsed again as they were, with
their times down to the millisecond and as long as the hours fit in 64 bits
(`transcripts_round_trip`).
-/
import HomeConnect.Base.Lines
import HomeConnect.Media.Transcribe
import Mathlib.Data.List.TakeWhile
import Mathlib.Data.Rat.Floor

namespace HomeConnect.Media.Transcribe

set_option autoImplicit false

/-! ## Trimming -/

/-- Begins and ends with something that is no blank. -/
structure Trimmed (l : Text) : Prop where
  nonempty : l ≠ []
  first : ∀ c, l.head? = some c → Text.is_whitespace c = false
  last : ∀ c, l.getLast? = some c → Text.is_whitespace c = false

theorem trim_of_trimmed {l : Text} (trimmed : Trimmed l) : Text.trim l = l := by
  have kept : ∀ t : Text, (∀ c, t.head? = some c → Text.is_whitespace c = false) →
      t.dropWhile Text.is_whitespace = t := by
    intro t solid
    cases t with
    | nil => rfl
    | cons c t => exact List.dropWhile_cons_of_neg (by simp [solid c rfl])
  unfold Text.trim
  rw [kept l trimmed.first, kept l.reverse ?_, List.reverse_reverse]
  intro c head
  rw [List.head?_reverse] at head
  exact trimmed.last c head

theorem head_dropWhile {p : Char → Bool} {t : Text} {c : Char} (head : (t.dropWhile p).head? = some c) :
    p c = false := by
  have not_p := List.head?_dropWhile_not p t
  rw [head] at not_p
  simpa using not_p

theorem trimmed_trim {l : Text} (solid : Text.trim l ≠ []) : Trimmed (Text.trim l) := by
  have last : ∀ c, (Text.trim l).getLast? = some c → Text.is_whitespace c = false := by
    intro c last
    unfold Text.trim at last
    rw [List.getLast?_reverse] at last
    exact head_dropWhile last
  refine ⟨solid, ?_, last⟩
  intro c head
  -- Blanks go at the end only once they are gone at the beginning.
  have begins : Text.trim l <+: l.dropWhile Text.is_whitespace := by
    have ends := List.dropWhile_suffix Text.is_whitespace (l := (l.dropWhile Text.is_whitespace).reverse)
    unfold Text.trim
    have reversed := List.reverse_prefix.2 ends
    rwa [List.reverse_reverse] at reversed
  obtain ⟨rest, whole⟩ := begins
  have head' : (l.dropWhile Text.is_whitespace).head? = some c := by
    rw [← whole, List.head?_append, head]
    rfl
  exact head_dropWhile head'

theorem trim_subset (l : Text) : ∀ c ∈ Text.trim l, c ∈ l := by
  intro c inside
  unfold Text.trim at inside
  have first := (List.dropWhile_sublist _).subset (List.mem_reverse.1 inside)
  exact (List.dropWhile_sublist _).subset (List.mem_reverse.1 first)

/-- A trimmed line does not end in a carriage return. -/
theorem strip_cr_of_trimmed {l : Text} (trimmed : Trimmed l) : Text.strip_cr l = l := by
  unfold Text.strip_cr
  refine if_neg fun cr => ?_
  have blank := trimmed.last '\r' cr
  revert blank
  decide

theorem trim_blank_before {l : Text} (trimmed : Trimmed l) : Text.trim (' ' :: l) = l := by
  have gone : Text.trim (' ' :: l) = Text.trim l := by
    unfold Text.trim
    rw [List.dropWhile_cons_of_pos (by decide)]
  rw [gone, trim_of_trimmed trimmed]

theorem trim_blank_after {l : Text} (trimmed : Trimmed l) : Text.trim (l ++ [' ']) = l := by
  have kept : (l ++ [' ']).dropWhile Text.is_whitespace = l.dropWhile Text.is_whitespace ++ [' '] := by
    obtain ⟨c, rest, rfl⟩ := List.exists_cons_of_ne_nil trimmed.nonempty
    have solid := trimmed.first c rfl
    rw [List.cons_append, List.dropWhile_cons_of_neg (by simp [solid]),
      List.dropWhile_cons_of_neg (by simp [solid])]
    rfl
  have gone : Text.trim (l ++ [' ']) = Text.trim l := by
    unfold Text.trim
    rw [kept, List.reverse_append]
    show (List.dropWhile _ (' ' :: _)).reverse = _
    rw [List.dropWhile_cons_of_pos (by decide)]
    rfl
  rw [gone, trim_of_trimmed trimmed]

/-! ## Cues -/

/-- Lines as they are in a cue. -/
def TidyLines (body : List Text) : Prop := ∀ l ∈ body, Trimmed l ∧ '\n' ∉ l

/-- A cue's text is lines with something in them. -/
def Tidy (c : Cue) : Prop := ∃ body, body ≠ [] ∧ TidyLines body ∧ c.text = Text.join "\n" body

theorem tidy_cue_of {times : Rat × Rat} {body : List Text} (tidy : TidyLines body) :
    ∀ c ∈ cue_of times body, Tidy c := by
  intro c listed
  unfold cue_of at listed
  split at listed
  · cases listed
  · next some_text =>
      rw [List.mem_singleton.1 listed]
      exact ⟨body, fun none => some_text (by rw [none]; rfl), tidy, rfl⟩

/-- Every cue that is parsed is tidy. -/
theorem tidy_of_parse_lines {lines : List Text} (clean : ∀ l ∈ lines, '\n' ∉ l)
    {inside : Option ((Rat × Rat) × List Text)} (so_far : ∀ p, inside = some p → TidyLines p.2) :
    ∀ c ∈ parse_lines inside lines, Tidy c := by
  induction lines generalizing inside with
  | nil =>
      cases inside with
      | none => exact fun c listed => absurd listed List.not_mem_nil
      | some p => exact tidy_cue_of (so_far p rfl)
  | cons line rest ih =>
      rw [List.forall_mem_cons] at clean
      cases inside with
      | none =>
          refine ih clean.2 fun p started => ?_
          obtain ⟨times, _, rfl⟩ := Option.map_eq_some_iff.1 started
          exact fun l listed => absurd listed List.not_mem_nil
      | some p =>
          have tidy := so_far p rfl
          rw [parse_lines]
          split
          · intro c listed
            rcases List.mem_append.1 listed with here | later
            · exact tidy_cue_of tidy c here
            · exact ih clean.2 (by intro p none; cases none) c later
          · next solid =>
              refine ih clean.2 fun p' more => ?_
              cases more
              intro l listed
              rcases List.mem_append.1 listed with before | last
              · exact tidy l before
              · rw [List.mem_singleton.1 last]
                exact ⟨trimmed_trim solid, fun feed => clean.1 (trim_subset line _ feed)⟩

theorem tidy_of_parse_vtt (body : Text) : ∀ c ∈ parse_vtt body, Tidy c :=
  tidy_of_parse_lines (Text.clean_of_lines body) (by intro p none; cases none)

/-- The lines of a text that is made of lines. -/
theorem lines_join {body : List Text} (some_line : body ≠ []) (tidy : TidyLines body) (rest : Text) :
    Text.lines (Text.join "\n" body ++ '\n' :: rest) = body ++ Text.lines rest := by
  induction body with
  | nil => exact (some_line rfl).elim
  | cons l body ih =>
      obtain ⟨trimmed, clean⟩ := tidy l List.mem_cons_self
      have tidy' : TidyLines body := fun l' listed => tidy l' (List.mem_cons_of_mem _ listed)
      cases body with
      | nil =>
          show Text.lines (l ++ '\n' :: rest) = l :: Text.lines rest
          rw [Text.lines_append clean, strip_cr_of_trimmed trimmed]
      | cons l' body =>
          show Text.lines (l ++ ['\n'] ++ Text.join "\n" (l' :: body) ++ '\n' :: rest) = _
          rw [List.append_assoc, List.append_assoc, List.singleton_append, Text.lines_append clean,
            strip_cr_of_trimmed trimmed, ih (List.cons_ne_nil _ _) tidy']
          rfl

/-- Inside a cue the lines are collected up to a blank one. -/
theorem parse_lines_body (times : Rat × Rat) (got : List Text) {body : List Text} (tidy : TidyLines body)
    (rest : List Text) :
    parse_lines (some (times, got)) (body ++ [] :: rest) = cue_of times (got ++ body) ++ parse_lines none rest := by
  induction body generalizing got with
  | nil =>
      rw [List.append_nil]
      exact if_pos rfl
  | cons l body ih =>
      obtain ⟨trimmed, _⟩ := tidy l List.mem_cons_self
      rw [List.cons_append, parse_lines, trim_of_trimmed trimmed, if_neg trimmed.nonempty,
        ih (got ++ [l]) fun l' listed => tidy l' (List.mem_cons_of_mem _ listed), List.append_assoc]
      rfl

theorem join_ne_nil {body : List Text} (some_line : body ≠ []) (tidy : TidyLines body) :
    Text.join "\n" body ≠ [] := by
  obtain ⟨l, rest, rfl⟩ := List.exists_cons_of_ne_nil some_line
  have nonempty := (tidy l List.mem_cons_self).1.nonempty
  cases rest with
  | nil => exact nonempty
  | cons l' rest => simp [Text.join, nonempty]

/-! ## Times -/

/-- A number of milliseconds, not negative. -/
def Millis (t : Rat) : Prop := ∃ n : Nat, t = n / 1000

/-- The greatest number of hours that is printed. -/
def MAX_HOURS : Nat := 2 ^ 63 - 1

/-- A time of `n` milliseconds, as it is printed and read again. -/
def read_back (n : Nat) : Nat := n - (n / 3600000 - min (n / 3600000) MAX_HOURS) * 3600000

/-- A timestamp with its hours, minutes, seconds and milliseconds. -/
def stamp (h m s ms : Nat) : Text :=
  Text.two_digits h ++ ':' :: (Text.two_digits m ++ ':' :: (Text.two_digits s ++ '.' :: Text.three_digits ms))

/-- The parts a number of milliseconds is printed in. -/
def stamp_of (n : Nat) : Text :=
  stamp (min (n / 3600000) MAX_HOURS) (n % 3600000 / 60000) (n % 60000 / 1000) (n % 1000)

theorem floor_div (a d : Nat) : Rat.floor ((a : Rat) / d) = ((a / d : Nat) : Int) :=
  Rat.floor_natCast_div_natCast a d

theorem thousandths_millis (n : Nat) : Text.thousandths ((n : Rat) / 1000) = n := by
  have whole : (n : Rat) / 1000 * 1000 = (n : Int) := by
    push_cast
    exact div_mul_cancel₀ _ (by norm_num)
  have low : Rat.floor ((n : Int) : Rat) = n := Rat.floor_intCast n
  unfold Text.thousandths
  simp only [whole, low, sub_self]
  rw [if_pos (by norm_num)]

/-- A time of whole milliseconds is printed in these parts. -/
theorem fmt_ts_millis (n : Nat) : fmt_ts ((n : Rat) / 1000) = stamp_of n := by
  have positive : max ((n : Rat) / 1000) 0 = (n : Rat) / 1000 := max_eq_left (by positivity)
  have hours : Rat.floor ((n : Rat) / 1000 / 3600) = ((n / 3600000 : Nat) : Int) := by
    rw [← floor_div]
    congr 1
    push_cast
    ring
  have minutes : Rat.floor (((n : Rat) / 1000 - ((n / 3600000 : Nat) : Int) * 3600) / 60) =
      ((n % 3600000 / 60000 : Nat) : Int) := by
    rw [Int.cast_natCast, ← floor_div (n % 3600000) 60000]
    congr 1
    have split : (n : Rat) = ((3600000 * (n / 3600000) + n % 3600000 : Nat) : Rat) := by
      rw [Nat.div_add_mod]
    push_cast at split
    simp only [Nat.cast_ofNat]
    linarith
  have whole_minutes : Rat.floor ((n : Rat) / 1000 / 60) = ((n / 60000 : Nat) : Int) := by
    rw [← floor_div]
    congr 1
    push_cast
    ring
  have seconds : (n : Rat) / 1000 - ((n / 60000 : Nat) : Int) * 60 = ((n % 60000 : Nat) : Rat) / 1000 := by
    have split : (n : Rat) = ((60000 * (n / 60000) + n % 60000 : Nat) : Rat) := by
      rw [Nat.div_add_mod]
    push_cast at split
    rw [Int.cast_natCast]
    linarith
  have small : n % 60000 % 1000 = n % 1000 := Nat.mod_mod_of_dvd n (by norm_num)
  unfold fmt_ts
  simp only [positive, hours, minutes, whole_minutes, seconds, thousandths_millis]
  have cap : ((min (n / 3600000) MAX_HOURS : Nat) : Int) = min ((n / 3600000 : Nat) : Int) (2 ^ 63 - 1) := by
    rw [Nat.cast_min]
    rfl
  have secs : ((n % 60000 : Nat) : Int) / 1000 = ((n % 60000 / 1000 : Nat) : Int) := rfl
  have rest : ((n % 60000 : Nat) : Int) % 1000 = ((n % 1000 : Nat) : Int) := by
    rw [← small]
    rfl
  unfold stamp_of stamp
  rw [cap, secs, rest]
  simp [List.append_assoc]

/-! ## Reading a timestamp -/

/-- A text of digits that is not empty, and its number. -/
structure Digits (ds : Text) (n : Nat) : Prop where
  nonempty : ds ≠ []
  all : ∀ c ∈ ds, c.isDigit = true
  value : Nat.ofDigitChars 10 ds 0 = n

theorem digits_toDigits (n : Nat) : Digits (Nat.toDigits 10 n) n where
  nonempty := Nat.toDigits_ne_nil
  all c inside := Nat.isDigit_of_mem_toDigits (by omega) (by omega) inside
  value := Nat.ofDigitChars_ten_toDigits

theorem Digits.zero {ds : Text} {n : Nat} (digits : Digits ds n) : Digits ('0' :: ds) n where
  nonempty := List.cons_ne_nil _ _
  all c inside := by
    rcases List.mem_cons.1 inside with rfl | later
    · rfl
    · exact digits.all c later
  value := by
    rw [Nat.ofDigitChars_cons]
    exact digits.value

theorem digits_two (n : Nat) : Digits (Text.two_digits n) n := by
  unfold Text.two_digits
  split
  · exact (digits_toDigits n).zero
  · exact digits_toDigits n

theorem digits_three (n : Nat) : Digits (Text.three_digits n) n := by
  unfold Text.three_digits
  split
  · exact (digits_two n).zero
  · exact digits_toDigits n

theorem length_three_digits {n : Nat} (small : n < 1000) : (Text.three_digits n).length = 3 := by
  have decided : ∀ m : Fin 1000, (Text.three_digits (m : Nat)).length = 3 := by
    decide +kernel
  exact decided ⟨n, small⟩

theorem Digits.append {ds es : Text} {m n : Nat} (digits : Digits ds m) (digits' : Digits es n) :
    Digits (ds ++ es) (10 ^ es.length * m + n) where
  nonempty := by simp [digits.nonempty]
  all c inside := (List.mem_append.1 inside).elim (digits.all c) (digits'.all c)
  value := by
    rw [Nat.ofDigitChars_append, digits.value, Nat.ofDigitChars_eq_ofDigitChars_zero, digits'.value]

theorem Digits.parse {ds : Text} {n : Nat} (digits : Digits ds n) : Text.parse_digits ds = some n := by
  unfold Text.parse_digits
  rw [if_pos ⟨digits.nonempty, List.all_eq_true.2 digits.all⟩, digits.value]

/-- A character of a timestamp's number. -/
def Numeric (c : Char) : Prop := c.isDigit = true ∨ c = '.'

theorem Numeric.ne {c d : Char} (numeric : Numeric c) (no_digit : d.isDigit = false) (other : d ≠ '.') : c ≠ d := by
  rintro rfl
  rcases numeric with digit | point
  · rw [no_digit] at digit
    cases digit
  · exact other point

/-- A number without a sign or an exponent is read as a mantissa. -/
theorem parse_f64_numeric {s : Text} (numeric : ∀ c ∈ s, Numeric c) : parse_f64 s = parse_mantissa s := by
  have no_exp : ∀ c ∈ s, (!(decide (c = 'e') || decide (c = 'E'))) = true := by
    intro c inside
    have small := (numeric c inside).ne (d := 'e') (by decide) (by decide)
    have large := (numeric c inside).ne (d := 'E') (by decide) (by decide)
    simp [small, large]
  have unsigned : parse_signed parse_mantissa s = parse_mantissa s := by
    unfold parse_signed
    split
    · exact ((numeric '-' List.mem_cons_self).ne (d := '-') (by decide) (by decide) rfl).elim
    · exact ((numeric '+' List.mem_cons_self).ne (d := '+') (by decide) (by decide) rfl).elim
    · rfl
  unfold parse_f64
  dsimp only
  rw [List.takeWhile_eq_self_iff.2 no_exp, List.dropWhile_eq_nil_iff.2 no_exp, unsigned]

theorem parse_f64_digits {ds : Text} {n : Nat} (digits : Digits ds n) : parse_f64 ds = some (n : Rat) := by
  rw [parse_f64_numeric fun c inside => .inl (digits.all c inside)]
  unfold parse_mantissa
  rw [List.takeWhile_eq_self_iff.2 digits.all, List.dropWhile_eq_nil_iff.2 digits.all]
  dsimp only
  rw [digits.parse]
  rfl

/-- Seconds with three decimals. -/
theorem parse_f64_point {ds es : Text} {s ms : Nat} (digits : Digits ds s) (digits' : Digits es ms)
    (three : es.length = 3) : parse_f64 (ds ++ '.' :: es) = some ((1000 * s + ms : Nat) / 1000 : Rat) := by
  have numeric : ∀ c ∈ ds ++ '.' :: es, Numeric c := by
    intro c inside
    rcases List.mem_append.1 inside with before | after
    · exact .inl (digits.all c before)
    · rcases List.mem_cons.1 after with point | later
      · exact .inr point
      · exact .inl (digits'.all c later)
  have whole : (ds ++ '.' :: es).takeWhile Char.isDigit = ds := by
    rw [List.takeWhile_append_of_pos digits.all, List.takeWhile_cons_of_neg (by decide), List.append_nil]
  have rest : (ds ++ '.' :: es).dropWhile Char.isDigit = '.' :: es := by
    rw [List.dropWhile_append_of_pos digits.all, List.dropWhile_cons_of_neg (by decide)]
  have number := (digits.append digits').parse
  rw [parse_f64_numeric numeric]
  unfold parse_mantissa
  rw [whole, rest]
  simp [number, three]
  norm_num

/-- A character of a timestamp. -/
def Stamped (c : Char) : Prop := c = ':' ∨ Numeric c

theorem Stamped.ne {c d : Char} (stamped : Stamped c) (no_digit : d.isDigit = false) (other : d ≠ '.')
    (other' : d ≠ ':') : c ≠ d := by
  rcases stamped with rfl | numeric
  · exact Ne.symm other'
  · exact numeric.ne no_digit other

theorem solid_of_digit {c : Char} (digit : c.isDigit = true) : Text.is_whitespace c = false := by
  have range := Char.isDigit_iff_toNat.1 digit
  have zero : '0'.toNat = 48 := rfl
  have nine : '9'.toNat = 57 := rfl
  rw [zero, nine] at range
  unfold Text.is_whitespace
  simp
  omega

theorem Stamped.solid {c : Char} (stamped : Stamped c) : Text.is_whitespace c = false := by
  rcases stamped with rfl | digit | rfl
  · decide
  · exact solid_of_digit digit
  · decide

theorem stamped_stamp (h m s ms : Nat) : ∀ c ∈ stamp h m s ms, Stamped c := by
  have digit : ∀ {ds : Text} {n : Nat}, Digits ds n → ∀ c ∈ ds, Stamped c :=
    fun digits c inside => .inr (.inl (digits.all c inside))
  intro c inside
  simp only [stamp, List.mem_append, List.mem_cons] at inside
  rcases inside with inside | rfl | inside | rfl | inside | rfl | inside
  · exact digit (digits_two h) c inside
  · exact .inl rfl
  · exact digit (digits_two m) c inside
  · exact .inl rfl
  · exact digit (digits_two s) c inside
  · exact .inr (.inr rfl)
  · exact digit (digits_three ms) c inside

theorem trimmed_stamp (h m s ms : Nat) : Trimmed (stamp h m s ms) := by
  have solid : ∀ c ∈ stamp h m s ms, Text.is_whitespace c = false :=
    fun c inside => (stamped_stamp h m s ms c inside).solid
  refine ⟨?_, fun c head => solid c (List.mem_of_mem_head? head), fun c last => solid c (List.mem_of_getLast? last)⟩
  simp [stamp]

/-- A timestamp between blanks is read as its seconds. -/
theorem parse_ts_stamp {text : Text} {h m s ms : Nat} (trim : Text.trim text = stamp h m s ms)
    (small : ms < 1000) :
    parse_ts text = some (((h * 60 + m) * 60 + (1000 * s + ms : Nat) / 1000 : Rat)) := by
  have stamped := stamped_stamp h m s ms
  have dotted : (stamp h m s ms).map (fun c => if c = ',' then '.' else c) = stamp h m s ms := by
    rw [List.map_congr_left (g := id), List.map_id]
    intro c inside
    exact if_neg ((stamped c inside).ne (by decide) (by decide) (by decide))
  have first : (stamp h m s ms).takeWhile (fun c => !Text.is_whitespace c) = stamp h m s ms :=
    List.takeWhile_eq_self_iff.2 fun c inside => by simp [(stamped c inside).solid]
  have colon : ∀ {ds : Text} {n : Nat}, Digits ds n → ':' ∉ ds := by
    intro ds n digits inside
    have digit := digits.all ':' inside
    cases digit
  have seconds : ':' ∉ Text.two_digits s ++ '.' :: Text.three_digits ms := by
    simp [colon (digits_two s), colon (digits_three ms)]
  have parts : Text.split ':' (stamp h m s ms) =
      [Text.two_digits h, Text.two_digits m, Text.two_digits s ++ '.' :: Text.three_digits ms] := by
    rw [stamp, Text.split_append (colon (digits_two h)), Text.split_append (colon (digits_two m)),
      Text.split_of_not_mem seconds]
  unfold parse_ts
  rw [trim, dotted]
  simp only [first, parts]
  rw [if_neg (trimmed_stamp h m s ms).nonempty, if_neg (by simp)]
  simp only [List.foldlM_cons, List.foldlM_nil, parse_f64_digits (digits_two h), parse_f64_digits (digits_two m),
    parse_f64_point (digits_two s) (digits_three ms) (length_three_digits small)]
  simp

/-- Read again, a time is what was printed of it. -/
theorem parse_ts_fmt_ts {text : Text} (n : Nat) (trim : Text.trim text = stamp_of n) :
    parse_ts text = some ((read_back n : Rat) / 1000) := by
  rw [parse_ts_stamp trim (Nat.mod_lt n (by omega)), Option.some_inj]
  have millis : 1000 * (n % 60000 / 1000) + n % 1000 = n % 60000 := by omega
  have whole : read_back n =
      min (n / 3600000) MAX_HOURS * 3600000 + n % 3600000 / 60000 * 60000 + n % 60000 := by
    unfold read_back
    omega
  rw [millis, whole]
  push_cast
  ring

/-- The arrow between two timestamps. -/
theorem timing_stamps (a b : Nat) :
    timing (stamp_of a ++ (" --> " : Text) ++ stamp_of b) =
      some ((read_back a : Rat) / 1000, (read_back b : Rat) / 1000) := by
  have arrow : ∀ s : Text, '-' ∉ s → split_arrow (s ++ (" --> " : Text) ++ stamp_of b) =
      some (s ++ [' '], ' ' :: stamp_of b) := by
    intro s clean
    induction s with
    | nil => rfl
    | cons c s ih =>
        have other : c ≠ '-' := fun same => clean (same ▸ List.mem_cons_self)
        have later := ih fun member => clean (List.mem_cons_of_mem _ member)
        rw [List.cons_append, List.cons_append, split_arrow, later]
        · rfl
        · intro rest dash
          exact (other dash).elim
  have no_dash : '-' ∉ stamp_of a :=
    fun inside => (stamped_stamp _ _ _ _ '-' inside).ne (by decide) (by decide) (by decide) rfl
  have trimmed : ∀ n, Trimmed (stamp_of n) := fun n => trimmed_stamp _ _ _ _
  unfold timing
  rw [arrow _ no_dash, Option.bind_some, parse_ts_fmt_ts a (trim_blank_after (trimmed a)), Option.bind_some,
    parse_ts_fmt_ts b (trim_blank_before (trimmed b)), Option.map_some]

/-! ## The round trip -/

/-- A time, as it is printed and read again. -/
def printed (t : Rat) : Rat := (read_back (t * 1000).floor.toNat : Rat) / 1000

theorem printed_millis (n : Nat) : printed ((n : Rat) / 1000) = (read_back n : Rat) / 1000 := by
  have whole : (n : Rat) / 1000 * 1000 = (n : Int) := by
    push_cast
    exact div_mul_cancel₀ _ (by norm_num)
  unfold printed
  rw [whole, Rat.floor_intCast, Int.toNat_natCast]

theorem printed_eq_iff {t : Rat} (millis : Millis t) : printed t = t ↔ t < 3600 * 2 ^ 63 := by
  obtain ⟨n, rfl⟩ := millis
  have kept : read_back n = n ↔ n < 3600000 * 2 ^ 63 := by
    unfold read_back MAX_HOURS
    omega
  have small : (n : Rat) / 1000 < 3600 * 2 ^ 63 ↔ n < 3600000 * 2 ^ 63 := by
    rw [div_lt_iff₀ (by norm_num), ← Nat.cast_lt (α := Rat)]
    norm_num
  rw [printed_millis, small, ← kept]
  constructor
  · intro same
    have numbers : (read_back n : Rat) = n := by linarith
    exact_mod_cast numbers
  · intro same
    rw [same]

theorem Trimmed.between {s t : Text} (before : Trimmed s) (mid : Text) (after : Trimmed t) :
    Trimmed (s ++ mid ++ t) := by
  obtain ⟨c, s', rfl⟩ := List.exists_cons_of_ne_nil before.nonempty
  refine ⟨by simp, fun d head => before.first d head, fun d last => after.last d ?_⟩
  rwa [List.getLast?_append_of_ne_nil _ after.nonempty] at last

/-- A cue's lines in the document, and what follows them. -/
theorem lines_cue {line text rest : Text} {body : List Text} (trimmed : Trimmed line) (clean : '\n' ∉ line)
    (some_line : body ≠ []) (tidy : TidyLines body) (is : text = Text.join "\n" body) :
    Text.lines (line ++ ("\n" : Text) ++ text ++ ("\n" : Text) ++ ("\n" : Text) ++ rest) =
      line :: (body ++ [] :: Text.lines rest) := by
  have shape : line ++ ("\n" : Text) ++ text ++ ("\n" : Text) ++ ("\n" : Text) ++ rest =
      line ++ '\n' :: (Text.join "\n" body ++ '\n' :: ([] ++ '\n' :: rest)) := by
    rw [is]
    simp [List.append_assoc]
  have blank : Text.lines ([] ++ '\n' :: rest) = [] :: Text.lines rest := Text.lines_append List.not_mem_nil rest
  rw [shape, Text.lines_append clean, strip_cr_of_trimmed trimmed, lines_join some_line tidy, blank]

/-- A cue that can be rendered. -/
structure Renders (c : Cue) : Prop where
  tidy : Tidy c
  start : Millis c.start
  stop : Millis c.stop

def reread (c : Cue) : Cue := ⟨printed c.start, printed c.stop, c.text⟩

/-- The document without its header. -/
theorem parse_cues {cues : List Cue} (renders : ∀ c ∈ cues, Renders c) :
    parse_lines none (Text.lines (cues.flatMap fun c =>
      fmt_ts c.start ++ (" --> " : Text) ++ fmt_ts c.stop ++ ("\n" : Text) ++ c.text ++ ("\n" : Text) ++
        ("\n" : Text))) = cues.map reread := by
  induction cues with
  | nil => rfl
  | cons c cues ih =>
      rw [List.forall_mem_cons] at renders
      obtain ⟨⟨body, some_line, tidy, text⟩, ⟨a, start⟩, ⟨b, stop⟩⟩ := renders.1
      have line_trimmed : Trimmed (stamp_of a ++ (" --> " : Text) ++ stamp_of b) :=
        (trimmed_stamp _ _ _ _).between _ (trimmed_stamp _ _ _ _)
      have line_clean : '\n' ∉ stamp_of a ++ (" --> " : Text) ++ stamp_of b := by
        have clean : ∀ n, '\n' ∉ stamp_of n := fun n inside =>
          (stamped_stamp _ _ _ _ '\n' inside).ne (by decide) (by decide) (by decide) rfl
        simp [clean]
      have is : cue_of (printed c.start, printed c.stop) body = [reread c] := by
        unfold cue_of
        rw [if_neg (join_ne_nil some_line tidy), ← text]
        rfl
      rw [List.flatMap_cons, start, stop, fmt_ts_millis, fmt_ts_millis,
        lines_cue line_trimmed line_clean some_line tidy text, parse_lines, timing_stamps, Option.map_some,
        parse_lines_body _ _ tidy, List.nil_append, ih renders.2, ← printed_millis, ← printed_millis, ← start,
        ← stop, is]
      rfl

theorem parse_render {cues : List Cue} (renders : ∀ c ∈ cues, Renders c) :
    parse_vtt (render_vtt cues) = cues.map reread := by
  have header : ∀ rest : Text, Text.lines (("WEBVTT\n\n" : Text) ++ rest) =
      ("WEBVTT" : Text) :: [] :: Text.lines rest := by
    intro rest
    have shape : ("WEBVTT\n\n" : Text) ++ rest = ("WEBVTT" : Text) ++ '\n' :: ([] ++ '\n' :: rest) := rfl
    rw [shape, Text.lines_append (by decide), Text.lines_append List.not_mem_nil]
    rfl
  unfold parse_vtt render_vtt
  dsimp only
  rw [header]
  show parse_lines none (Text.lines _) = _
  exact parse_cues renders

theorem Millis.add {s t : Rat} (millis : Millis s) (millis' : Millis t) : Millis (s + t) := by
  obtain ⟨m, rfl⟩ := millis
  obtain ⟨n, rfl⟩ := millis'
  refine ⟨m + n, ?_⟩
  push_cast
  ring

/-- The cues of all chunks, on the drive's timeline. -/
def merged (chunks : List (Text × Rat)) : List Cue :=
  chunks.flatMap fun chunk => shift (parse_vtt chunk.1) chunk.2

/-- The cues of documents with times of whole milliseconds come back from the document they
are rendered as; all of them if and only if no time has more hours than are printed. -/
theorem transcripts_round_trip (chunks : List (Text × Rat)) (offsets : ∀ chunk ∈ chunks, Millis chunk.2)
    (times : ∀ chunk ∈ chunks, ∀ c ∈ parse_vtt chunk.1, Millis c.start ∧ Millis c.stop) :
    parse_vtt (render_vtt (merged chunks)) = merged chunks ↔
      ∀ c ∈ merged chunks, c.start < 3600 * 2 ^ 63 ∧ c.stop < 3600 * 2 ^ 63 := by
  have renders : ∀ c ∈ merged chunks, Renders c := by
    intro c listed
    obtain ⟨chunk, member, shifted⟩ := List.mem_flatMap.1 listed
    obtain ⟨cue, parsed, rfl⟩ := List.mem_map.1 shifted
    obtain ⟨start, stop⟩ := times chunk member cue parsed
    have offset := offsets chunk member
    exact ⟨tidy_of_parse_vtt chunk.1 cue parsed, start.add offset, stop.add offset⟩
  have self : (merged chunks).map reread = merged chunks ↔ ∀ c ∈ merged chunks, reread c = id c := by
    rw [← List.map_inj_left, List.map_id]
  rw [parse_render renders, self]
  refine forall₂_congr fun c listed => ?_
  rw [← printed_eq_iff (renders c listed).start, ← printed_eq_iff (renders c listed).stop]
  constructor
  · intro same
    exact ⟨congrArg Cue.start same, congrArg Cue.stop same⟩
  · rintro ⟨start, stop⟩
    unfold reread
    rw [start, stop]
    rfl

/-! ## Poles -/

private def far_hours : Text := "99999999999999999999:00:00.000 --> 99999999999999999999:00:01.000\nlate\n"

private theorem far_parsed : parse_vtt far_hours =
    [⟨99999999999999999999 * 3600, 99999999999999999999 * 3600 + 1, "late"⟩] := by
  decide +kernel

/-- More hours than fit in 64 bits are printed as fewer. -/
theorem transcripts_not_round_trip :
    ¬ ∀ chunks : List (Text × Rat), (∀ chunk ∈ chunks, Millis chunk.2) →
      (∀ chunk ∈ chunks, ∀ c ∈ parse_vtt chunk.1, Millis c.start ∧ Millis c.stop) →
        parse_vtt (render_vtt (merged chunks)) = merged chunks := by
  intro claim
  have back := claim [(far_hours, 0)] ?_ ?_
  · revert back
    decide +kernel
  · intro chunk listed
    rw [List.mem_singleton.1 listed]
    exact ⟨0, by norm_num⟩
  · intro chunk listed c parsed
    rw [List.mem_singleton.1 listed, far_parsed, List.mem_singleton] at parsed
    rw [parsed]
    exact ⟨⟨99999999999999999999 * 3600000, by norm_num⟩, ⟨99999999999999999999 * 3600000 + 1000, by norm_num⟩⟩

private def tricky : Text :=
  "WEBVTT\n\n00:02.000 --> 00:03,500 align:start\n 00:01.000 --> 00:02.000\r\na --> b\n\nskipped\n"

/-- A cue whose text looks like a timing line, in the second chunk. -/
theorem transcripts_round_trip_tricky :
    parse_vtt (render_vtt (merged [([], 0), (tricky, 300)])) = merged [([], 0), (tricky, 300)] := by
  have parsed : parse_vtt tricky = [⟨2, 7 / 2, "00:01.000 --> 00:02.000\na --> b"⟩] := by decide +kernel
  refine (transcripts_round_trip [([], 0), (tricky, 300)] ?_ ?_).2 ?_
  · intro chunk listed
    simp only [List.mem_cons, List.not_mem_nil, or_false] at listed
    rcases listed with rfl | rfl
    · exact ⟨0, by norm_num⟩
    · exact ⟨300000, by norm_num⟩
  · intro chunk listed c inside
    simp only [List.mem_cons, List.not_mem_nil, or_false] at listed
    rcases listed with rfl | rfl
    · cases inside
    · rw [parsed, List.mem_singleton] at inside
      rw [inside]
      exact ⟨⟨2000, by norm_num⟩, ⟨3500, by norm_num⟩⟩
  · intro c listed
    obtain ⟨chunk, member, shifted⟩ := List.mem_flatMap.1 listed
    simp only [List.mem_cons, List.not_mem_nil, or_false] at member
    rcases member with rfl | rfl
    · cases shifted
    · rw [shift, parsed, List.map_singleton, List.mem_singleton] at shifted
      rw [shifted]
      norm_num

end HomeConnect.Media.Transcribe
