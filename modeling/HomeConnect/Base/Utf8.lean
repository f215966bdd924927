/-
# Base.Utf8 -- bytes read as text

`from_utf8_lossy` goes through the bytes once.  A sequence that is not valid UTF-8 counts as
one replacement character, up to the byte that could not follow; that byte begins anew.

A byte below 128 is a character of its own wherever it stands, so that a text may be taken
apart at one before or after it is decoded (`decode_append_ascii`).
-/
import HomeConnect.Base.Text

namespace HomeConnect.Utf8

set_option autoImplicit false

/-- A sequence that has begun: how many bytes are still to come, what the next may be, and
the code point so far. -/
structure Pending where
  need : Nat
  lower : UInt8
  upper : UInt8
  code : Nat
  /-- No byte of the sequence is a character of its own. -/
  high : 128 ≤ lower

def REPLACEMENT : Char := '\uFFFD'

/-- A first byte: what it stands for, or begins. -/
def lead (b : UInt8) : Text × Option Pending :=
  if b < 0x80 then ([Char.ofNat b.toNat], none)
  else if b < 0xC2 then ([REPLACEMENT], none)
  else if b < 0xE0 then ([], some ⟨1, 0x80, 0xBF, b.toNat - 0xC0, by decide⟩)
  else if b = 0xE0 then ([], some ⟨2, 0xA0, 0xBF, 0, by decide⟩)
  else if b = 0xED then ([], some ⟨2, 0x80, 0x9F, 0xD, by decide⟩)
  else if b < 0xF0 then ([], some ⟨2, 0x80, 0xBF, b.toNat - 0xE0, by decide⟩)
  else if b = 0xF0 then ([], some ⟨3, 0x90, 0xBF, 0, by decide⟩)
  else if b < 0xF4 then ([], some ⟨3, 0x80, 0xBF, b.toNat - 0xF0, by decide⟩)
  else if b = 0xF4 then ([], some ⟨3, 0x80, 0x8F, 4, by decide⟩)
  else ([REPLACEMENT], none)

/-- One byte: the characters it completes, and the sequence it is in. -/
def step : Option Pending → UInt8 → Text × Option Pending
  | none, b => lead b
  | some p, b =>
      if p.lower ≤ b ∧ b ≤ p.upper then
        let code := p.code * 64 + (b.toNat - 0x80)
        if p.need ≤ 1 then ([Char.ofNat code], none)
        else ([], some ⟨p.need - 1, 0x80, 0xBF, code, by decide⟩)
      else (REPLACEMENT :: (lead b).1, (lead b).2)

/-- What is left of a sequence that is cut off. -/
def flush : Option Pending → Text
  | none => []
  | some _ => [REPLACEMENT]

def decode : Option Pending → List UInt8 → Text
  | p, [] => flush p
  | p, b :: bytes => (step p b).1 ++ decode (step p b).2 bytes

/-- `String::from_utf8_lossy`. -/
def from_utf8_lossy (bytes : List UInt8) : Text := decode none bytes

/-- The bytes of a text whose characters are ASCII. -/
def ascii (t : Text) : List UInt8 := t.map fun c => UInt8.ofNat c.toNat

/-- A byte below 128 ends what came before and is a character of its own. -/
theorem step_ascii (p : Option Pending) {b : UInt8} (small : b < 0x80) :
    step p b = (flush p ++ [Char.ofNat b.toNat], none) := by
  have alone : lead b = ([Char.ofNat b.toNat], none) := if_pos small
  cases p with
  | none => exact alone
  | some p =>
      have outside : ¬ (p.lower ≤ b ∧ b ≤ p.upper) := fun inside =>
        UInt8.lt_irrefl b (UInt8.lt_of_lt_of_le small (UInt8.le_trans p.high inside.1))
      rw [step, if_neg outside, alone]
      rfl

theorem decode_append_ascii (p : Option Pending) (bytes rest : List UInt8) {b : UInt8} (small : b < 0x80) :
    decode p (bytes ++ b :: rest) = decode p bytes ++ Char.ofNat b.toNat :: decode none rest := by
  induction bytes generalizing p with
  | nil =>
      show (step p b).1 ++ decode (step p b).2 rest = _
      rw [step_ascii p small, List.append_assoc]
      rfl
  | cons a bytes ih =>
      show (step p a).1 ++ decode (step p a).2 (bytes ++ b :: rest) = _
      rw [ih, ← List.append_assoc]
      rfl

example : from_utf8_lossy [0x66, 0xE2, 0x82, 0xAC, 0xFF, 0xE2, 0x82, 0x2C] =
    ['f', '\u20AC', REPLACEMENT, REPLACEMENT, ','] := by decide

theorem decode_ascii {t : Text} (plain : ∀ c ∈ t, c.toNat < 128) (rest : List UInt8) :
    decode none (ascii t ++ rest) = t ++ decode none rest := by
  induction t with
  | nil => rfl
  | cons c t ih =>
      rw [List.forall_mem_cons] at plain
      have value : (UInt8.ofNat c.toNat).toNat = c.toNat := by
        rw [UInt8.toNat_ofNat']
        exact Nat.mod_eq_of_lt (by omega)
      have small : UInt8.ofNat c.toNat < 0x80 := by
        rw [UInt8.lt_iff_toNat_lt, value]
        exact plain.1
      have first := decode_append_ascii none [] (ascii t ++ rest) small
      rw [value, Char.ofNat_toNat] at first
      show decode none ([] ++ UInt8.ofNat c.toNat :: (ascii t ++ rest)) = _
      rw [first, ih plain.2]
      rfl

/-- ASCII text between bytes is read by itself. -/
theorem decode_between (bytes : List UInt8) {t : Text} (some_text : t ≠ []) (plain : ∀ c ∈ t, c.toNat < 128)
    (rest : List UInt8) :
    from_utf8_lossy (bytes ++ ascii t ++ rest) = from_utf8_lossy bytes ++ t ++ from_utf8_lossy rest := by
  obtain ⟨c, t, rfl⟩ := List.exists_cons_of_ne_nil some_text
  have small : UInt8.ofNat c.toNat < 0x80 := by
    rw [UInt8.lt_iff_toNat_lt, UInt8.toNat_ofNat', Nat.mod_eq_of_lt (Nat.lt_trans (plain c List.mem_cons_self) (by omega))]
    exact plain c List.mem_cons_self
  have here := decode_ascii plain rest
  have first := decode_append_ascii none [] (ascii t ++ rest) small
  have whole := decode_append_ascii none bytes (ascii t ++ rest) small
  unfold from_utf8_lossy
  rw [List.append_assoc, List.append_assoc, ← here]
  show decode none (bytes ++ UInt8.ofNat c.toNat :: (ascii t ++ rest)) =
    decode none bytes ++ decode none ([] ++ UInt8.ofNat c.toNat :: (ascii t ++ rest))
  rw [whole, first]
  rfl

end HomeConnect.Utf8
