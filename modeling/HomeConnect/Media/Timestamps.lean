/-
# Media.Timestamps -- the times of a rendered cue

`fmt_ts` takes the hours and the minutes of a time by flooring and leaves the seconds to the
formatter, which rounds them.  In the last half millisecond of a minute they are rounded up to
60 without a carry, and the timestamp is none (`rendered_iff`).  Its value is right all the
same, as long as the hours fit in 64 bits.
-/
import HomeConnect.Media.Vtt

namespace HomeConnect.Media.Transcribe

set_option autoImplicit false

/-- The number that digits stand for. -/
def number (ds : Text) : Nat := Nat.ofDigitChars 10 ds 0

/-- A WebVTT timestamp. -/
structure Timestamp where
  hours : Text
  minutes : Text
  seconds : Text
  millis : Text
  two_or_more : 2 ≤ hours.length
  two_minutes : minutes.length = 2
  two_seconds : seconds.length = 2
  three_millis : millis.length = 3
  digits : ∀ c ∈ hours ++ minutes ++ seconds ++ millis, c.isDigit = true
  minutes_lt : number minutes < 60
  seconds_lt : number seconds < 60

namespace Timestamp

def text (s : Timestamp) : Text :=
  s.hours ++ ':' :: (s.minutes ++ ':' :: (s.seconds ++ '.' :: s.millis))

/-- In seconds. -/
def value (s : Timestamp) : Rat :=
  ((number s.hours : Rat) * 60 + number s.minutes) * 60 + number s.seconds + number s.millis / 1000

end Timestamp

/-- A time, rounded to milliseconds. -/
def rounded (t : Rat) : Rat := Text.thousandths t / 1000

/-- The timestamp that a time is rendered as. -/
structure Rendered (t : Rat) (s : Timestamp) : Prop where
  text : fmt_ts t = s.text
  near : |s.value - t| ≤ 1 / 2000
  back : parse_ts (fmt_ts t) = some (rounded t)

/-- The hours fit in 64 bits, and the last half millisecond of a minute has not begun. -/
def Printable (t : Rat) : Prop :=
  t < 3600 * 2 ^ 63 ∧ t - (t / 60).floor * 60 < 60 - 1 / 2000

/-! ## Rounding -/

theorem floor_eq {x : Rat} {n : Int} (low : (n : Rat) ≤ x) (high : x < n + 1) : x.floor = n := by
  apply le_antisymm
  · apply Int.lt_add_one_iff.1
    apply Rat.floor_lt_iff.2
    push_cast
    exact high
  · exact Rat.le_floor_iff.2 low

theorem floor_bounds (x : Rat) : (x.floor : Rat) ≤ x ∧ x < x.floor + 1 := by
  refine ⟨Rat.floor_le x, ?_⟩
  have high := Rat.lt_floor_add_one x
  push_cast at high
  exact high

/-- The four ways in which a number is rounded. -/
theorem thousandths_cases (d : Rat) :
    (Text.thousandths d = (d * 1000).floor ∧ d * 1000 - (d * 1000).floor ≤ 1 / 2) ∨
    (Text.thousandths d = (d * 1000).floor + 1 ∧ 1 / 2 ≤ d * 1000 - (d * 1000).floor) := by
  unfold Text.thousandths
  dsimp only
  by_cases below : d * 1000 - (d * 1000).floor < 1 / 2
  · rw [if_pos below]
    exact .inl ⟨rfl, below.le⟩
  · rw [if_neg below]
    by_cases above : 1 / 2 < d * 1000 - (d * 1000).floor
    · rw [if_pos above]
      exact .inr ⟨rfl, above.le⟩
    · rw [if_neg above]
      split
      · exact .inl ⟨rfl, not_lt.1 above⟩
      · exact .inr ⟨rfl, not_lt.1 below⟩

theorem rounded_near (t : Rat) : |rounded t - t| ≤ 1 / 2000 := by
  obtain ⟨low, high⟩ := floor_bounds (t * 1000)
  unfold rounded
  rw [abs_le]
  rcases thousandths_cases t with ⟨is, half⟩ | ⟨is, half⟩
  · rw [is]
    constructor <;> linarith
  · rw [is]
    push_cast
    constructor <;> linarith

theorem thousandths_mono {a b : Rat} (order : a ≤ b) : Text.thousandths a ≤ Text.thousandths b := by
  have floors : (a * 1000).floor ≤ (b * 1000).floor := Rat.floor_monotone (by linarith)
  rcases Int.lt_or_eq_of_le floors with less | same
  · rcases thousandths_cases a with ⟨is, _⟩ | ⟨is, _⟩ <;>
      rcases thousandths_cases b with ⟨is', _⟩ | ⟨is', _⟩ <;> omega
  · -- with one floor it is the rest that decides
    unfold Text.thousandths
    dsimp only
    rw [same]
    have rests : a * 1000 - (b * 1000).floor ≤ b * 1000 - (b * 1000).floor := by linarith
    by_cases below : a * 1000 - (b * 1000).floor < 1 / 2
    · rw [if_pos below]
      split_ifs <;> omega
    · rw [if_neg below, if_neg fun less => below (lt_of_le_of_lt rests less)]
      by_cases above : 1 / 2 < a * 1000 - (b * 1000).floor
      · rw [if_pos above, if_pos (above.trans_le rests)]
      · rw [if_neg above]
        split_ifs <;> omega

theorem rounded_mono {a b : Rat} (order : a ≤ b) : rounded a ≤ rounded b := by
  have thousandths : (Text.thousandths a : Rat) ≤ Text.thousandths b := Int.cast_le.2 (thousandths_mono order)
  unfold rounded
  linarith

/-- Whole minutes are not rounded. -/
theorem thousandths_add (d : Rat) (k : Int) :
    Text.thousandths (d + k * 60) = Text.thousandths d + k * 60000 := by
  have scaled : (d + k * 60) * 1000 = d * 1000 + (k * 60000 : Int) := by
    push_cast
    ring
  have floors : ((d + k * 60) * 1000).floor = (d * 1000).floor + k * 60000 := by
    rw [scaled, Rat.floor_add_intCast]
  have rests : (d + k * 60) * 1000 - ((d + k * 60) * 1000).floor = d * 1000 - (d * 1000).floor := by
    rw [floors]
    push_cast
    ring
  have parity : ((d + k * 60) * 1000).floor % 2 = (d * 1000).floor % 2 := by
    omega
  unfold Text.thousandths
  dsimp only
  rw [rests, parity, floors]
  split_ifs <;> omega

/-! ## The fields -/

/-- What a time is taken apart into; the seconds and the milliseconds are the rounded rest. -/
structure Parts (t : Rat) (h m s ms : Nat) : Prop where
  whole : (t / 60).floor = ((h * 60 + m : Nat) : Int)
  minutes_lt : m < 60
  rest : Text.thousandths (t - (h * 60 + m : Nat) * 60) = ((1000 * s + ms : Nat) : Int)
  millis_lt : ms < 1000
  small : 1000 * s + ms ≤ 60000
  text : fmt_ts t = stamp (min h MAX_HOURS) m s ms

theorem exists_parts {t : Rat} (natural : 0 ≤ t) : ∃ h m s ms : Nat, Parts t h m s ms := by
  have zero : (0 : Int) ≤ (t / 60).floor := by
    apply Rat.le_floor_iff.2
    rw [Int.cast_zero]
    positivity
  obtain ⟨k, whole⟩ := Int.eq_ofNat_of_zero_le zero
  obtain ⟨h, m, m_lt, rfl⟩ : ∃ h m, m < 60 ∧ k = h * 60 + m :=
    ⟨k / 60, k % 60, Nat.mod_lt k (by omega), by omega⟩
  obtain ⟨low, high⟩ := floor_bounds (t / 60)
  rw [whole, Int.cast_natCast] at low high
  have least : Text.thousandths 0 ≤ Text.thousandths (t - (h * 60 + m : Nat) * 60) :=
    thousandths_mono (by linarith)
  have most : Text.thousandths (t - (h * 60 + m : Nat) * 60) ≤ Text.thousandths 60 :=
    thousandths_mono (by linarith)
  have at_zero : Text.thousandths 0 = 0 := by decide +kernel
  have at_sixty : Text.thousandths 60 = 60000 := by decide +kernel
  rw [at_zero] at least
  rw [at_sixty] at most
  obtain ⟨r, rest⟩ := Int.eq_ofNat_of_zero_le least
  obtain ⟨s, ms, ms_lt, rfl⟩ : ∃ s ms, ms < 1000 ∧ r = 1000 * s + ms :=
    ⟨r / 1000, r % 1000, Nat.mod_lt r (by omega), by omega⟩
  refine ⟨h, m, s, ms, whole, m_lt, rest, ms_lt, by omega, ?_⟩
  have under : (m : Rat) + 1 ≤ 60 := by
    exact_mod_cast m_lt
  have natural' : (0 : Rat) ≤ m := Nat.cast_nonneg m
  push_cast at low high
  have hours : (t / 3600).floor = (h : Int) := by
    apply floor_eq
    · rw [Int.cast_natCast]
      linarith
    · rw [Int.cast_natCast]
      linarith
  have minutes : ((t - (h : Int) * 3600) / 60).floor = (m : Int) := by
    apply floor_eq
    · rw [Int.cast_natCast, Int.cast_natCast]
      linarith
    · rw [Int.cast_natCast, Int.cast_natCast]
      linarith
  have cap : ((min h MAX_HOURS : Nat) : Int) = min (h : Int) (2 ^ 63 - 1) := by
    rw [Nat.cast_min]
    rfl
  have secs : ((1000 * s + ms : Nat) : Int) / 1000 = s := by omega
  have left : ((1000 * s + ms : Nat) : Int) % 1000 = ms := by omega
  unfold fmt_ts
  dsimp only
  rw [max_eq_left natural, hours, minutes, whole, Int.cast_natCast, rest, secs, left, ← cap]
  simp [stamp, List.append_assoc]

namespace Parts

variable {t : Rat} {h m s ms : Nat}

theorem rounded_eq (parts : Parts t h m s ms) :
    rounded t = ((h : Rat) * 60 + m) * 60 + (1000 * s + ms : Nat) / 1000 := by
  have shifted := thousandths_add (t - (h * 60 + m : Nat) * 60) (h * 60 + m : Nat)
  rw [parts.rest, Int.cast_natCast, sub_add_cancel] at shifted
  rw [rounded, shifted]
  push_cast
  ring

/-- The text is read as the sum of its parts. -/
theorem read (parts : Parts t h m s ms) :
    parse_ts (fmt_ts t) = some (((min h MAX_HOURS : Nat) * 60 + m) * 60 + (1000 * s + ms : Nat) / 1000 : Rat) := by
  apply parse_ts_stamp
  · rw [parts.text, trim_of_trimmed (trimmed_stamp _ _ _ _)]
  · exact parts.millis_lt

theorem hours_le_iff (parts : Parts t h m s ms) : h ≤ MAX_HOURS ↔ t < 3600 * 2 ^ 63 := by
  obtain ⟨low, high⟩ := floor_bounds (t / 60)
  rw [parts.whole, Int.cast_natCast] at low high
  have m_lt := parts.minutes_lt
  unfold MAX_HOURS
  constructor
  · intro fits
    have less : ((h * 60 + m + 1 : Nat) : Rat) ≤ (60 * 2 ^ 63 : Nat) := Nat.cast_le.2 (by omega)
    push_cast at less high
    linarith
  · intro early
    have less : ((h * 60 + m : Nat) : Rat) < (60 * 2 ^ 63 : Nat) := by
      push_cast at low ⊢
      linarith
    have less' := Nat.cast_lt.1 less
    omega

/-- The seconds are rounded up to 60 in the last half millisecond. -/
theorem seconds_lt_iff (parts : Parts t h m s ms) :
    s < 60 ↔ t - (t / 60).floor * 60 < 60 - 1 / 2000 := by
  have small := parts.small
  have ms_lt := parts.millis_lt
  have near := rounded_near (t - (h * 60 + m : Nat) * 60)
  unfold rounded at near
  rw [parts.rest, Int.cast_natCast, abs_le] at near
  rw [parts.whole, Int.cast_natCast]
  constructor
  · intro less
    by_contra late
    have carried := thousandths_mono (not_lt.1 late)
    have at_end : Text.thousandths (60 - 1 / 2000) = 60000 := by decide +kernel
    rw [at_end, parts.rest] at carried
    omega
  · intro early
    have less : ((1000 * s + ms : Nat) : Rat) < (60000 : Nat) := by
      rw [Nat.cast_ofNat]
      linarith
    have less' := Nat.cast_lt.1 less
    omega

theorem printable_iff (parts : Parts t h m s ms) : Printable t ↔ h ≤ MAX_HOURS ∧ s < 60 := by
  unfold Printable
  rw [parts.hours_le_iff, parts.seconds_lt_iff]

end Parts

/-! ## Timestamps -/

theorem length_two_digits (n : Nat) : 2 ≤ (Text.two_digits n).length := by
  unfold Text.two_digits
  split
  case isTrue small =>
    exact Nat.succ_le_succ (List.length_pos_iff.2 (digits_toDigits n).nonempty)
  case isFalse large =>
    show 2 ≤ (Nat.toDigits 10 n).length
    rw [Nat.toDigits_of_base_le (by omega) (by omega), List.length_append, List.length_singleton]
    exact Nat.succ_le_succ (List.length_pos_iff.2 (digits_toDigits (n / 10)).nonempty)

theorem length_two_digits_of_lt {n : Nat} (small : n < 60) : (Text.two_digits n).length = 2 := by
  have decided : ∀ m : Fin 60, (Text.two_digits (m : Nat)).length = 2 := by
    decide
  exact decided ⟨n, small⟩

/-- Fields in their bounds make a timestamp. -/
def timestamp (h : Nat) {m s ms : Nat} (m_lt : m < 60) (s_lt : s < 60) (ms_lt : ms < 1000) : Timestamp where
  hours := Text.two_digits h
  minutes := Text.two_digits m
  seconds := Text.two_digits s
  millis := Text.three_digits ms
  two_or_more := length_two_digits h
  two_minutes := length_two_digits_of_lt m_lt
  two_seconds := length_two_digits_of_lt s_lt
  three_millis := length_three_digits ms_lt
  digits c inside := by
    simp only [List.mem_append] at inside
    rcases inside with ((first | second) | third) | last
    · exact (digits_two h).all c first
    · exact (digits_two m).all c second
    · exact (digits_two s).all c third
    · exact (digits_three ms).all c last
  minutes_lt := by
    rw [number, (digits_two m).value]
    exact m_lt
  seconds_lt := by
    rw [number, (digits_two s).value]
    exact s_lt

theorem value_timestamp (h : Nat) {m s ms : Nat} (m_lt : m < 60) (s_lt : s < 60) (ms_lt : ms < 1000) :
    (timestamp h m_lt s_lt ms_lt).value = ((h : Rat) * 60 + m) * 60 + s + ms / 1000 := by
  simp only [Timestamp.value, timestamp, number, (digits_two h).value, (digits_two m).value,
    (digits_two s).value, (digits_three ms).value]

/-- Sixty seconds are no timestamp's. -/
theorem sixty_no_timestamp (h m : Nat) (s : Timestamp) : stamp h m 60 0 ≠ s.text := by
  intro same
  have sixty_point : Text.two_digits 60 ++ '.' :: Text.three_digits 0 = ("60.000" : Text) := by decide
  have parts : (Text.two_digits h ++ ':' :: (Text.two_digits m ++ [':'])) ++ ("60.000" : Text) =
      (s.hours ++ ':' :: (s.minutes ++ [':'])) ++ (s.seconds ++ '.' :: s.millis) := by
    have left : (Text.two_digits h ++ ':' :: (Text.two_digits m ++ [':'])) ++ ("60.000" : Text) =
        stamp h m 60 0 := by
      rw [← sixty_point]
      simp [stamp]
    rw [left, same]
    simp [Timestamp.text]
  have ends := List.append_inj_right' parts (by simp [s.two_seconds, s.three_millis])
  have sixty : ("60" : Text) = s.seconds := by
    have split : ("60" : Text) ++ (".000" : Text) = s.seconds ++ '.' :: s.millis := ends
    exact List.append_inj_left split (by rw [s.two_seconds]; rfl)
  have less := s.seconds_lt
  rw [← sixty] at less
  revert less
  decide

/-- A printable time is rendered as a timestamp of its rounded value. -/
theorem rendered_of_printable {t : Rat} (natural : 0 ≤ t) (printable : Printable t) :
    ∃ s : Timestamp, Rendered t s ∧ s.value = rounded t := by
  obtain ⟨h, m, s, ms, parts⟩ := exists_parts natural
  obtain ⟨fits, less⟩ := parts.printable_iff.1 printable
  have value : (timestamp h parts.minutes_lt less parts.millis_lt).value = rounded t := by
    rw [value_timestamp, parts.rounded_eq]
    push_cast
    ring
  refine ⟨timestamp h parts.minutes_lt less parts.millis_lt, ⟨?_, ?_, ?_⟩, value⟩
  · rw [parts.text, min_eq_left fits]
    rfl
  · rw [value]
    exact rounded_near t
  · rw [parts.read, min_eq_left fits, parts.rounded_eq]

theorem printable_of_rendered {t : Rat} (natural : 0 ≤ t) {s : Timestamp} (rendered : Rendered t s) :
    Printable t := by
  obtain ⟨h, m, secs, ms, parts⟩ := exists_parts natural
  have small := parts.small
  apply parts.printable_iff.2
  constructor
  · by_contra many
    have hours := rendered.back
    rw [parts.read, parts.rounded_eq, Option.some_inj, min_eq_right (Nat.le_of_not_le many)] at hours
    have same : (MAX_HOURS : Rat) = h := by linarith
    exact many (Nat.cast_injective same).ge
  · by_contra sixty
    have is : secs = 60 ∧ ms = 0 := by omega
    obtain ⟨rfl, rfl⟩ := is
    exact sixty_no_timestamp _ _ s (parts.text.symm.trans rendered.text)

/-- Two times are rendered as timestamps of their values, and in their order, exactly when
both are printable. -/
theorem rendered_iff {t t' : Rat} (natural : 0 ≤ t) (order : t ≤ t') :
    (∃ s s' : Timestamp, Rendered t s ∧ Rendered t' s' ∧ s.value ≤ s'.value) ↔
      Printable t ∧ Printable t' := by
  have natural' := natural.trans order
  constructor
  · rintro ⟨s, s', rendered, rendered', _⟩
    exact ⟨printable_of_rendered natural rendered, printable_of_rendered natural' rendered'⟩
  · rintro ⟨printable, printable'⟩
    obtain ⟨s, rendered, value⟩ := rendered_of_printable natural printable
    obtain ⟨s', rendered', value'⟩ := rendered_of_printable natural' printable'
    refine ⟨s, s', rendered, rendered', ?_⟩
    rw [value, value']
    exact rounded_mono order

/-! ## Poles -/

/-- A time read with four decimals, in the last half millisecond of a minute. -/
theorem timestamps_not_rendered :
    ¬ ∀ t t' : Rat, 0 ≤ t → t ≤ t' →
      ∃ s s' : Timestamp, Rendered t s ∧ Rendered t' s' ∧ s.value ≤ s'.value := by
  intro claim
  obtain ⟨s, _, rendered, _⟩ := claim (599996 / 10000) (599996 / 10000) (by norm_num) le_rfl
  have text : fmt_ts (599996 / 10000) = stamp 0 0 60 0 := by decide +kernel
  exact sixty_no_timestamp 0 0 s (text.symm.trans rendered.text)

/-- Two times on both sides of an hour. -/
theorem rendered_around_hour :
    ∃ s s' : Timestamp, Rendered (3599 + 9994 / 10000) s ∧ Rendered 3600 s' ∧ s.value ≤ s'.value := by
  have floor : Rat.floor ((3599 + 9994 / 10000) / 60) = 59 := by decide +kernel
  have floor' : Rat.floor (3600 / 60) = 60 := by decide +kernel
  refine (rendered_iff (by norm_num) (by norm_num)).2 ⟨⟨by norm_num, ?_⟩, ⟨by norm_num, ?_⟩⟩
  · rw [floor]
    norm_num
  · rw [floor']
    norm_num

end HomeConnect.Media.Transcribe
