/-
# Theory.Shell -- how a shell reads a command

A POSIX shell cuts a command line into words and operators one character at a time; which
characters are special depends on the quoting in force.  `step` is that rule, `Lex` what it
carries along, and `read` says what the words of a command come to: a literal text, or parts
the shell has yet to expand.

* `Clean.append` -- text that ends between two words is read on its own.
* `Clean.quoted` -- text without a quote is one literal word between single quotes.
* `read_quoted_iff` -- and with a quote in it, it is not.

Here-documents and IO numbers are not read: `<<` is an operator like any other, and digits
before a redirection are a word.
-/
import Mathlib.Algebra.BigOperators.Group.List.Basic
import Mathlib.Algebra.GroupWithZero.Nat
import Mathlib.Algebra.Order.BigOperators.Group.List

namespace HomeConnect.Theory.Shell

set_option autoImplicit false

local instance lawful_chars : LawfulBEq (List Char) := List.instLawfulBEq

/-! ## Tokens -/

/-- A part of a word. -/
inductive Part
  /-- A character outside quotes. -/
  | bare (c : Char)
  | quoted (c : Char)
  /-- A parameter or a command substitution, as it is written. -/
  | expansion (in_quotes : Bool) (source : List Char)
deriving DecidableEq, Repr

inductive Token
  | word (parts : List Part)
  | operator (op : List Char)
deriving DecidableEq, Repr

/-- What the characters read so far make of the next one. -/
inductive Mode
  | plain
  | escape
  | single
  | double
  | double_escape
  | dollar (in_quotes : Bool)
  /-- In a parameter's name. -/
  | name (in_quotes : Bool) (source : List Char)
  /-- In a substitution that ends when the closers have come, the innermost first. -/
  | nested (in_quotes : Bool) (closers source : List Char)
  | comment
  | operator (op : List Char)
deriving DecidableEq, Repr

structure Lex where
  tokens : List Token := []
  /-- The word that is being read. -/
  word : Option (List Part) := none
  mode : Mode := .plain
deriving DecidableEq, Repr

def OPERATORS : List (List Char) :=
  [['&', '&'], ['|', '|'], [';', ';'], ['<', '<'], ['>', '>'], ['<', '&'], ['>', '&'], ['<', '>'],
    ['<', '<', '-'], ['>', '|'], ['&'], ['|'], [';'], ['<'], ['>'], ['('], [')'], ['\n']]

def is_blank (c : Char) : Bool := decide (c ∈ [' ', '\t'])

/-- The character ends a word. -/
def delimits (c : Char) : Bool := is_blank c || decide ([c] ∈ OPERATORS)

def name_start (c : Char) : Bool := c.isAlpha || c = '_'

def name_char (c : Char) : Bool := c.isAlphanum || c = '_'

/-! ## Reading one character -/

namespace Lex

variable (l : Lex)

def goto (m : Mode) : Lex := { l with mode := m }

def begin_word : Lex := { l with word := some (l.word.getD []) }

def add (p : Part) : Lex := { l with word := some (l.word.getD [] ++ [p]) }

/-- The word that was being read is over. -/
def delimit : Lex :=
  match l.word with
  | none => l
  | some parts => { l with tokens := l.tokens ++ [.word parts], word := none }

def push (op : List Char) : Lex := { l with tokens := l.tokens ++ [.operator op] }

/-- `l`, with tokens read before. -/
def after (ts : List Token) : Lex := { l with tokens := ts ++ l.tokens }

end Lex

def unquoted (l : Lex) (c : Char) : Lex :=
  if c = '\'' then l.begin_word.goto .single
  else if c = '"' then l.begin_word.goto .double
  else if c = '\\' then l.goto .escape
  else if c = '$' then l.goto (.dollar false)
  else if c = '`' then l.goto (.nested false ['`'] ['`'])
  else if is_blank c then l.delimit.goto .plain
  else if [c] ∈ OPERATORS then l.delimit.goto (.operator [c])
  else if c = '#' ∧ l.word.isNone then l.goto .comment
  else (l.add (.bare c)).goto .plain

def double_quoted (l : Lex) (c : Char) : Lex :=
  if c = '"' then l.goto .plain
  else if c = '\\' then l.goto .double_escape
  else if c = '$' then l.goto (.dollar true)
  else if c = '`' then l.goto (.nested true ['`'] ['`'])
  else (l.add (.quoted c)).goto .double

/-- Back in the quoting around an expansion. -/
def resume (in_quotes : Bool) (l : Lex) (c : Char) : Lex :=
  if in_quotes then double_quoted l c else unquoted l c

def around (in_quotes : Bool) : Mode := if in_quotes then .double else .plain

def char_part (in_quotes : Bool) (c : Char) : Part := if in_quotes then .quoted c else .bare c

/-- The closers still to come after a character of a substitution. -/
def nest (closers source : List Char) (c : Char) : List Char :=
  match closers with
  | [] => []
  | top :: rest =>
      if top = '\\' then rest
      else if top = '\'' then if c = '\'' then rest else closers
      else if c = '\\' then '\\' :: closers
      else if c = top then rest
      else if c = '\'' ∧ top ≠ '"' then '\'' :: closers
      else if c = '"' ∨ c = '`' then c :: closers
      else if c = '(' ∧ (top = ')' ∨ source.getLast? = some '$') then ')' :: closers
      else if c = '{' ∧ source.getLast? = some '$' then '}' :: closers
      else closers

def step (l : Lex) (c : Char) : Lex :=
  match l.mode with
  | .plain => unquoted l c
  | .escape => if c = '\n' then l.goto .plain else (l.add (.quoted c)).goto .plain
  | .single => if c = '\'' then l.goto .plain else l.add (.quoted c)
  | .double => double_quoted l c
  | .double_escape =>
      if c = '\n' then l.goto .double
      else if c ∈ ['$', '`', '"', '\\'] then (l.add (.quoted c)).goto .double
      else ((l.add (.quoted '\\')).add (.quoted c)).goto .double
  | .dollar q =>
      if c = '(' then l.goto (.nested q [')'] ['$', '('])
      else if c = '{' then l.goto (.nested q ['}'] ['$', '{'])
      else if name_start c then l.goto (.name q ['$', c])
      else if c.isDigit ∨ c ∈ ['@', '*', '#', '?', '-', '$', '!'] then
        (l.add (.expansion q ['$', c])).goto (around q)
      else resume q (l.add (char_part q '$')) c
  | .name q source =>
      if name_char c then l.goto (.name q (source ++ [c]))
      else resume q (l.add (.expansion q source)) c
  | .nested q closers source =>
      match nest closers source c with
      | [] => (l.add (.expansion q (source ++ [c]))).goto (around q)
      | top :: rest => l.goto (.nested q (top :: rest) (source ++ [c]))
  | .comment => if c = '\n' then unquoted l c else l
  | .operator op =>
      if op ++ [c] ∈ OPERATORS then l.goto (.operator (op ++ [c]))
      else unquoted (l.push op) c

def run (l : Lex) (s : List Char) : Lex := s.foldl step l

/-- The tokens once the command has ended; none when a quote is still open. -/
def finish (l : Lex) : Option (List Token) :=
  match l.mode with
  | .plain | .comment => some l.delimit.tokens
  | .escape => some (l.add (.quoted '\\')).delimit.tokens
  | .dollar false => some (l.add (.bare '$')).delimit.tokens
  | .name false source => some (l.add (.expansion false source)).delimit.tokens
  | .operator op => some (l.push op).tokens
  | _ => none

def tokens (s : List Char) : Option (List Token) := finish (run {} s)

/-! ## What the words come to -/

inductive Piece
  /-- A word that stands for this text. -/
  | literal (text : List Char)
  /-- A word the shell expands first. -/
  | expanded (parts : List Part)
  | operator (op : List Char)
deriving DecidableEq, Repr

def Part.char? : Part → Option Char
  | .bare c | .quoted c => some c
  | .expansion _ _ => none

/-- The word is a pattern for file names, or may name a home directory. -/
def patterned (parts : List Part) : Bool :=
  decide (Part.bare '*' ∈ parts) || decide (Part.bare '?' ∈ parts) || decide (Part.bare '~' ∈ parts) ||
    (decide (Part.bare '[' ∈ parts) && decide (Part.bare ']' ∈ parts))

def Token.read : Token → Piece
  | .word parts =>
      if (parts.all fun p => p.char?.isSome) && !patterned parts then
        .literal (parts.filterMap Part.char?)
      else .expanded parts
  | .operator op => .operator op

/-- A command as the shell reads it. -/
def read (s : List Char) : Option (List Piece) := (tokens s).map (List.map Token.read)

example : read "rm -f 'a b'; echo \"$T\" x\\ y".toList =
    some [.literal ['r', 'm'], .literal ['-', 'f'], .literal ['a', ' ', 'b'], .operator [';'],
      .literal ['e', 'c', 'h', 'o'], .expanded [.expansion true ['$', 'T']],
      .literal ['x', ' ', 'y']] := by decide

example : read "rm -f 'it's'".toList = none := by decide

/-! ## Reading piece by piece -/

theorem run_append (l : Lex) (s t : List Char) : run l (s ++ t) = run (run l s) t :=
  List.foldl_append

theorem run_cons (l : Lex) (c : Char) (s : List Char) : run l (c :: s) = run (step l c) s := rfl

section After

variable (l : Lex) (ts : List Token)

@[simp] theorem after_mode : (l.after ts).mode = l.mode := rfl
@[simp] theorem after_word : (l.after ts).word = l.word := rfl
@[simp] theorem after_tokens : (l.after ts).tokens = ts ++ l.tokens := rfl
@[simp] theorem goto_after (m : Mode) : (l.after ts).goto m = (l.goto m).after ts := rfl
@[simp] theorem add_after (p : Part) : (l.after ts).add p = (l.add p).after ts := rfl
@[simp] theorem begin_word_after : (l.after ts).begin_word = l.begin_word.after ts := rfl

@[simp] theorem push_after (op : List Char) : (l.after ts).push op = (l.push op).after ts := by
  simp [Lex.after, Lex.push]

@[simp] theorem delimit_after : (l.after ts).delimit = l.delimit.after ts := by
  obtain ⟨tokens, word, mode⟩ := l
  cases word with
  | none => rfl
  | some parts =>
      simp only [Lex.after, Lex.delimit]
      rw [List.append_assoc]

@[simp] theorem unquoted_after (c : Char) :
    unquoted (l.after ts) c = (unquoted l c).after ts := by
  simp only [unquoted, begin_word_after, goto_after, delimit_after, add_after,
    apply_ite (fun l => Lex.after l ts)]
  rfl

@[simp] theorem double_quoted_after (c : Char) :
    double_quoted (l.after ts) c = (double_quoted l c).after ts := by
  simp only [double_quoted, goto_after, add_after, apply_ite (fun l => Lex.after l ts)]

@[simp] theorem resume_after (q : Bool) (c : Char) :
    resume q (l.after ts) c = (resume q l c).after ts := by
  cases q <;> simp [resume]

/-- What was read before has no part in how the next character is read. -/
theorem step_after (c : Char) : step (l.after ts) c = (step l c).after ts := by
  unfold step
  rw [after_mode]
  cases l.mode with
  | nested q closers source =>
      dsimp only
      cases nest closers source c <;> simp
  | single | double | comment | plain | escape | double_escape | dollar _ | name _ _ | operator _ =>
      simp [apply_ite (fun l => Lex.after l ts)]

theorem run_after (s : List Char) : run (l.after ts) s = (run l s).after ts := by
  induction s generalizing l with
  | nil => rfl
  | cons c s ih => rw [run_cons, run_cons, step_after, ih]

theorem finish_after : finish (l.after ts) = (finish l).map (ts ++ ·) := by
  unfold finish
  rw [after_mode]
  cases l.mode with
  | dollar q => cases q <;> simp
  | name q source => cases q <;> simp
  | _ => simp

end After

/-- Read on its own, the text is these tokens and ends between two words. -/
def Clean (s : List Char) (ts : List Token) : Prop := run {} s = ⟨ts, none, .plain⟩

instance (s : List Char) (ts : List Token) : Decidable (Clean s ts) :=
  inferInstanceAs (Decidable (run {} s = ⟨ts, none, .plain⟩))

section Clean

variable {s t : List Char} {ts us : List Token}

theorem Clean.nil : Clean [] [] := rfl

theorem run_of_clean (clean : Clean s ts) (t : List Char) :
    run {} (s ++ t) = (run {} t).after ts := by
  have start : (⟨ts, none, .plain⟩ : Lex) = ({} : Lex).after ts := by simp [Lex.after]
  rw [run_append, clean, start, run_after]

theorem Clean.append (first : Clean s ts) (second : Clean t us) : Clean (s ++ t) (ts ++ us) := by
  unfold Clean
  rw [run_of_clean first, second]
  rfl

theorem Clean.flatMap {α : Type} {f : α → List Char} {g : α → List Token} {xs : List α}
    (each : ∀ x ∈ xs, Clean (f x) (g x)) : Clean (xs.flatMap f) (xs.flatMap g) := by
  induction xs with
  | nil => exact .nil
  | cons x xs ih =>
      have here := each x List.mem_cons_self
      exact here.append (ih fun y member => each y (List.mem_cons_of_mem x member))

/-- What follows clean text is read by itself. -/
theorem tokens_append (clean : Clean s ts) (t : List Char) :
    tokens (s ++ t) = (tokens t).map (ts ++ ·) := by
  unfold tokens
  rw [run_of_clean clean, finish_after]

theorem delimits_iff {c : Char} :
    delimits c = true ↔ c ∈ [' ', '\t', '&', '|', ';', '<', '>', '(', ')', '\n'] := by
  simp [delimits, is_blank, OPERATORS, or_assoc]

/-- What ends a word may as well follow a finished one. -/
theorem run_delimited (ts : List Token) (parts : List Part) {s : List Char}
    (sep : s.head?.any delimits) :
    run ⟨ts, some parts, .plain⟩ s = run ⟨ts ++ [.word parts], none, .plain⟩ s := by
  cases s with
  | nil => cases sep
  | cons c s =>
      have same : step ⟨ts, some parts, .plain⟩ c = step ⟨ts ++ [.word parts], none, .plain⟩ c := by
        have special := delimits_iff.1 sep
        simp only [List.mem_cons, List.not_mem_nil, or_false] at special
        rcases special with rfl | rfl | rfl | rfl | rfl | rfl | rfl | rfl | rfl | rfl <;> rfl
      rw [run_cons, run_cons, same]

theorem run_single (ts : List Token) (parts : List Part) {text : List Char}
    (free : '\'' ∉ text) :
    run ⟨ts, some parts, .single⟩ text = ⟨ts, some (parts ++ text.map .quoted), .single⟩ := by
  induction text generalizing parts with
  | nil => simp [run]
  | cons c text ih =>
      have other : c ≠ '\'' := fun same => free (same ▸ List.mem_cons_self)
      have rest : '\'' ∉ text := fun member => free (List.mem_cons_of_mem c member)
      have taken : step ⟨ts, some parts, .single⟩ c = ⟨ts, some (parts ++ [.quoted c]), .single⟩ :=
        if_neg other
      rw [run_cons, taken, ih _ rest, List.append_assoc]
      rfl

/-- Text in single quotes, as a command writes it. -/
def quote (text : List Char) : List Char := '\'' :: text ++ ['\'']

theorem run_quote {text : List Char} (free : '\'' ∉ text) :
    run {} (quote text) = ⟨[], some (text.map .quoted), .plain⟩ := by
  have opened : step {} '\'' = ⟨[], some [], .single⟩ := rfl
  rw [quote, run_append, run_cons {}, opened, run_single [] [] free]
  rfl

/-- A word ends where the text after it begins. -/
theorem Clean.word {parts : List Part} (word : run {} s = ⟨[], some parts, .plain⟩)
    (sep : t.head?.any delimits) (rest : Clean t us) : Clean (s ++ t) (.word parts :: us) := by
  have start : (⟨[.word parts], none, .plain⟩ : Lex) = ({} : Lex).after [.word parts] := rfl
  unfold Clean
  rw [run_append, word, run_delimited [] parts sep, List.nil_append, start, run_after, rest]
  rfl

/-- Text without a quote is one word between single quotes. -/
theorem Clean.quoted {text : List Char} (free : '\'' ∉ text) (sep : t.head?.any delimits)
    (rest : Clean t us) : Clean (quote text ++ t) (.word (text.map .quoted) :: us) :=
  .word (run_quote free) sep rest

/-- Letters, digits and what else stands for itself outside quotes. -/
def ordinary (c : Char) : Bool := c.isAlphanum || decide (c ∈ ['_', '-', '.', '/'])

theorem unquoted_ordinary (l : Lex) {c : Char} (plain : ordinary c) :
    unquoted l c = (l.add (.bare c)).goto .plain := by
  have other (d : Char) (special : ordinary d = false) : c ≠ d := by
    rintro rfl
    exact absurd plain (by simp [special])
  have word : ¬ delimits c = true := by
    intro ends
    have special := delimits_iff.1 ends
    simp only [List.mem_cons, List.not_mem_nil, or_false] at special
    rcases special with rfl | rfl | rfl | rfl | rfl | rfl | rfl | rfl | rfl | rfl <;> cases plain
  simp only [delimits, Bool.or_eq_true, decide_eq_true_eq, not_or] at word
  unfold unquoted
  rw [if_neg (other _ rfl), if_neg (other _ rfl), if_neg (other _ rfl), if_neg (other _ rfl),
    if_neg (other _ rfl), if_neg word.1, if_neg word.2]
  exact if_neg fun both => other '#' rfl both.1

theorem run_ordinary (parts : List Part) {text : List Char} (plain : ∀ c ∈ text, ordinary c) :
    run ⟨[], some parts, .plain⟩ text = ⟨[], some (parts ++ text.map .bare), .plain⟩ := by
  induction text generalizing parts with
  | nil => simp [run]
  | cons c text ih =>
      have taken : step ⟨[], some parts, .plain⟩ c = ⟨[], some (parts ++ [.bare c]), .plain⟩ :=
        unquoted_ordinary _ (plain c List.mem_cons_self)
      rw [run_cons, taken, ih _ fun d member => plain d (List.mem_cons_of_mem c member),
        List.append_assoc]
      rfl

theorem run_bare {text : List Char} (some_text : text ≠ []) (plain : ∀ c ∈ text, ordinary c) :
    run {} text = ⟨[], some (text.map .bare), .plain⟩ := by
  cases text with
  | nil => exact absurd rfl some_text
  | cons c text =>
      have taken : step {} c = ⟨[], some [.bare c], .plain⟩ :=
        unquoted_ordinary _ (plain c List.mem_cons_self)
      rw [run_cons, taken, run_ordinary _ fun d member => plain d (List.mem_cons_of_mem c member)]
      rfl

/-- Ordinary text is one word as it is. -/
theorem Clean.bare {text : List Char} (some_text : text ≠ []) (plain : ∀ c ∈ text, ordinary c)
    (sep : t.head?.any delimits) (rest : Clean t us) :
    Clean (text ++ t) (.word (text.map .bare) :: us) :=
  .word (run_bare some_text plain) sep rest

theorem tokens_bare {text : List Char} (some_text : text ≠ []) (plain : ∀ c ∈ text, ordinary c) :
    tokens text = some [.word (text.map .bare)] := by
  unfold tokens
  rw [run_bare some_text plain]
  rfl

end Clean

/-! ## Words that stand for themselves -/

theorem read_quoted (text : List Char) : Token.read (.word (text.map .quoted)) = .literal text := by
  have same : (text.map Part.quoted).filterMap Part.char? = text := by
    rw [List.filterMap_map]
    exact List.filterMap_some
  simp [Token.read, patterned, Part.char?, same]

theorem read_bare {text : List Char} (plain : ∀ c ∈ text, ordinary c) :
    Token.read (.word (text.map .bare)) = .literal text := by
  have same : (text.map Part.bare).filterMap Part.char? = text := by
    rw [List.filterMap_map]
    exact List.filterMap_some
  have clean (d : Char) (special : ordinary d = false) : Part.bare d ∉ text.map Part.bare := by
    intro member
    obtain ⟨c, inside, is⟩ := List.mem_map.1 member
    cases is
    exact absurd (plain _ inside) (by simp [special])
  have none_active : patterned (text.map .bare) = false := by
    unfold patterned
    rw [decide_eq_false (clean '*' rfl), decide_eq_false (clean '?' rfl),
      decide_eq_false (clean '~' rfl), decide_eq_false (clean '[' rfl)]
    rfl
  simp [Token.read, none_active, Part.char?, same]

/-! ## What a command can keep of its text -/

/-- The characters of a word, expansions apart. -/
def Token.kept : Token → Nat
  | .word parts => (parts.filterMap Part.char?).length
  | .operator _ => 0

/-- A character read that may still be kept. -/
def Mode.pending : Mode → Nat
  | .escape | .double_escape | .dollar _ => 1
  | .plain | .single | .double | .name .. | .nested .. | .comment | .operator _ => 0

@[simp] theorem pending_around (q : Bool) : (around q).pending = 0 := by cases q <;> rfl

namespace Lex

/-- The characters kept so far. -/
def held (l : Lex) : Nat :=
  (l.tokens.map Token.kept).sum + (Token.word (l.word.getD [])).kept

def weight (l : Lex) : Nat := l.held + l.mode.pending

variable (l : Lex)

@[simp] theorem held_goto (m : Mode) : (l.goto m).held = l.held := rfl

@[simp] theorem held_begin_word : l.begin_word.held = l.held := rfl

@[simp] theorem held_push (op : List Char) : (l.push op).held = l.held := by
  simp [held, push, Token.kept]

@[simp] theorem held_delimit : l.delimit.held = l.held := by
  obtain ⟨tokens, word, mode⟩ := l
  cases word with
  | none => rfl
  | some parts => simp [delimit, held, Token.kept]

theorem held_add (p : Part) : (l.add p).held = l.held + if p.char?.isSome then 1 else 0 := by
  obtain ⟨tokens, word, mode⟩ := l
  cases char : p.char? <;> simp [add, held, Token.kept, char, Nat.add_assoc]

@[simp] theorem held_add_bare (c : Char) : (l.add (.bare c)).held = l.held + 1 := held_add l _

@[simp] theorem held_add_quoted (c : Char) : (l.add (.quoted c)).held = l.held + 1 := held_add l _

@[simp] theorem held_add_expansion (q : Bool) (source : List Char) :
    (l.add (.expansion q source)).held = l.held := held_add l _

@[simp] theorem weight_goto (m : Mode) : (l.goto m).weight = l.held + m.pending := rfl

end Lex

theorem weight_unquoted (l : Lex) (c : Char) : (unquoted l c).weight ≤ l.held + 1 := by
  unfold unquoted
  repeat' split
  all_goals simp [Mode.pending]

theorem weight_double_quoted (l : Lex) (c : Char) : (double_quoted l c).weight ≤ l.held + 1 := by
  unfold double_quoted
  repeat' split
  all_goals simp [Mode.pending]

theorem weight_resume (q : Bool) (l : Lex) (c : Char) : (resume q l c).weight ≤ l.held + 1 := by
  cases q with
  | false => exact weight_unquoted l c
  | true => exact weight_double_quoted l c

theorem char_part_char? (q : Bool) (c : Char) : (char_part q c).char? = some c := by
  cases q <;> rfl

/-- One character adds at most one to what a command keeps. -/
theorem weight_step (l : Lex) (c : Char) : (step l c).weight ≤ l.weight + 1 := by
  have weighs : l.weight = l.held + l.mode.pending := rfl
  unfold step
  cases mode : l.mode with
  | plain =>
      rw [mode] at weighs
      exact weighs ▸ weight_unquoted l c
  | double =>
      rw [mode] at weighs
      exact weighs ▸ weight_double_quoted l c
  | single =>
      have added : (l.add (.quoted c)).weight = l.weight + 1 := by
        simp [Lex.weight, Lex.add, mode, Mode.pending, Lex.held, Token.kept, Part.char?]
        omega
      dsimp only
      split
      · simp [Mode.pending, weighs]
        omega
      · exact Nat.le_of_eq added
  | escape | double_escape =>
      simp only [mode, Mode.pending] at weighs
      dsimp only
      repeat' split
      all_goals
        simp only [Lex.weight_goto, Lex.held_add_quoted, Mode.pending]
        omega
  | dollar q =>
      have kept : (l.add (char_part q '$')).held = l.held + 1 := by
        rw [Lex.held_add, char_part_char?]
        rfl
      have bound := weight_resume q (l.add (char_part q '$')) c
      simp only [mode, Mode.pending] at weighs
      dsimp only
      split
      · simp only [Lex.weight_goto, Mode.pending]
        omega
      split
      · simp only [Lex.weight_goto, Mode.pending]
        omega
      split
      · simp only [Lex.weight_goto, Mode.pending]
        omega
      split
      · simp only [Lex.weight_goto, Lex.held_add_expansion, pending_around]
        omega
      · omega
  | name q source =>
      have bound := weight_resume q (l.add (.expansion q source)) c
      simp only [mode, Mode.pending, Lex.held_add_expansion] at weighs bound
      dsimp only
      split
      · simp only [Lex.weight_goto, Mode.pending]
        omega
      · omega
  | nested q closers source =>
      simp only [mode, Mode.pending] at weighs
      dsimp only
      cases nest closers source c with
      | nil =>
          simp only [Lex.weight_goto, Lex.held_add_expansion, pending_around]
          omega
      | cons top rest =>
          simp only [Lex.weight_goto, Mode.pending]
          omega
  | comment =>
      have bound := weight_unquoted l c
      simp only [mode, Mode.pending] at weighs
      dsimp only
      split <;> omega
  | operator op =>
      have bound := weight_unquoted (l.push op) c
      simp only [mode, Mode.pending, Lex.held_push] at weighs bound
      dsimp only
      split
      · simp only [Lex.weight_goto, Mode.pending]
        omega
      · omega

theorem weight_run (l : Lex) (s : List Char) : (run l s).weight ≤ l.weight + s.length := by
  induction s generalizing l with
  | nil => exact Nat.le_refl _
  | cons c s ih =>
      have here := weight_step l c
      have later := ih (step l c)
      rw [run_cons, List.length_cons]
      omega

theorem sum_kept_delimit (l : Lex) : (l.delimit.tokens.map Token.kept).sum ≤ l.held := by
  rw [← Lex.held_delimit]
  exact Nat.le_add_right _ _

theorem sum_kept_of_finish {l : Lex} {ts : List Token} (ended : finish l = some ts) :
    (ts.map Token.kept).sum ≤ l.weight := by
  have weighs : l.weight = l.held + l.mode.pending := rfl
  unfold finish at ended
  cases mode : l.mode with
  | plain | comment =>
      rw [mode] at ended weighs
      cases ended
      exact weighs ▸ sum_kept_delimit l
  | escape =>
      rw [mode] at ended weighs
      cases ended
      have bound := sum_kept_delimit (l.add (.quoted '\\'))
      rw [Lex.held_add_quoted] at bound
      exact weighs ▸ bound
  | dollar q =>
      rw [mode] at ended weighs
      cases q with
      | true => cases ended
      | false =>
          cases ended
          have bound := sum_kept_delimit (l.add (.bare '$'))
          rw [Lex.held_add_bare] at bound
          exact weighs ▸ bound
  | name q source =>
      rw [mode] at ended weighs
      cases q with
      | true => cases ended
      | false =>
          cases ended
          have bound := sum_kept_delimit (l.add (.expansion false source))
          rw [Lex.held_add_expansion] at bound
          exact weighs ▸ bound
  | operator op =>
      rw [mode] at ended weighs
      cases ended
      rw [weighs, ← Lex.held_push l op]
      exact Nat.le_add_right _ _
  | single | double | double_escape | nested q closers source =>
      rw [mode] at ended
      cases ended

theorem finish_resume_quote (q : Bool) (l : Lex) : finish (resume q l '\'') = none := by
  cases q <;> rfl

/-- Where a command ends in a quote, that quote isn't kept, or the backslash before it
isn't. -/
theorem weight_quote {l : Lex} {ts : List Token} (ended : finish (step l '\'') = some ts) :
    (step l '\'').weight ≤ l.weight := by
  have weighs : l.weight = l.held + l.mode.pending := rfl
  unfold step at ended ⊢
  cases mode : l.mode with
  | plain | double | double_escape =>
      rw [mode] at ended
      cases ended
  | escape =>
      rw [mode] at weighs
      exact Nat.le_of_eq (weighs ▸ Lex.held_add_quoted l '\'')
  | single =>
      rw [mode] at weighs
      exact Nat.le_of_eq weighs.symm
  | dollar q =>
      have unfinished := finish_resume_quote q (l.add (char_part q '$'))
      rw [mode] at ended
      cases ended.symm.trans unfinished
  | name q source =>
      have unfinished := finish_resume_quote q (l.add (.expansion q source))
      rw [mode] at ended
      cases ended.symm.trans unfinished
  | nested q closers source =>
      rw [mode] at ended weighs
      dsimp only at ended ⊢
      cases inner : nest closers source '\'' with
      | nil =>
          simp only [Lex.weight_goto, Lex.held_add_expansion, pending_around]
          exact Nat.le_of_eq weighs.symm
      | cons top rest =>
          rw [inner] at ended
          cases ended
  | comment => exact Nat.le_refl _
  | operator op =>
      rw [mode] at ended weighs
      dsimp only at ended ⊢
      split
      · exact Nat.le_of_eq weighs.symm
      · rename_i other
        rw [if_neg other] at ended
        cases ended

/-! ## Quoting is right exactly for text without a quote -/

def Piece.kept : Piece → Nat
  | .literal text => text.length
  | .expanded parts => (parts.filterMap Part.char?).length
  | .operator _ => 0

theorem kept_read (t : Token) : t.read.kept = t.kept := by
  cases t with
  | operator op => rfl
  | word parts =>
      simp only [Token.read]
      split <;> rfl

theorem sum_kept_read (ts : List Token) :
    ((ts.map Token.read).map Piece.kept).sum = (ts.map Token.kept).sum := by
  rw [List.map_map]
  exact congrArg List.sum (List.map_congr_left fun t _ => kept_read t)

/-- A command that goes on after a quoted word and ends in a quote keeps less than all of
its text. -/
theorem sum_kept_lt {s before after : List Char} {ts us : List Token} (clean : Clean s ts)
    (free : '\'' ∉ before)
    (whole : tokens (s ++ quote (before ++ '\'' :: after)) = some us) :
    (us.map Token.kept).sum ≤ (ts.map Token.kept).sum + before.length + after.length := by
  let closed : Lex := ⟨ts, some (before.map .quoted), .plain⟩
  have opened : step {} '\'' = ⟨[], some [], .single⟩ := rfl
  have reached : run {} (s ++ quote (before ++ '\'' :: after)) = step (run closed after) '\'' := by
    have start : step ((run {} ('\'' :: before)).after ts) '\'' = closed := by
      rw [run_cons, opened, run_single [] [] free]
      simp [Lex.after, step, Lex.goto, closed]
    have parts : s ++ quote (before ++ '\'' :: after) =
        s ++ ('\'' :: before) ++ '\'' :: after ++ ['\''] := by
      simp [quote]
    rw [parts, run_append, run_append, run_of_clean clean, ← start]
    rfl
  have weighs : closed.weight = (ts.map Token.kept).sum + before.length := by
    have same : (before.map Part.quoted).filterMap Part.char? = before := by
      rw [List.filterMap_map]
      exact List.filterMap_some
    simp [closed, Lex.weight, Lex.held, Mode.pending, Token.kept, same]
  have ended : finish (step (run closed after) '\'') = some us := by
    rw [← reached]
    exact whole
  have kept := sum_kept_of_finish ended
  have dropped := weight_quote ended
  have rest := weight_run closed after
  omega

/-- A command that ends in a word between single quotes holds that word as it is if and only
if there is no quote in it. -/
theorem read_quoted_iff {s : List Char} {ts : List Token} (clean : Clean s ts)
    (text : List Char) :
    read (s ++ quote text) = some (ts.map Token.read ++ [.literal text]) ↔ '\'' ∉ text := by
  constructor
  · intro same quoted
    obtain ⟨before, after, split, free⟩ := List.eq_append_cons_of_mem quoted
    obtain ⟨us, whole, pieces⟩ := Option.map_eq_some_iff.1 same
    rw [split] at whole
    have less := sum_kept_lt clean free whole
    have all := congrArg (fun ps => (ps.map Piece.kept).sum) pieces
    simp only [List.map_append, List.sum_append, sum_kept_read, split] at all
    simp [Piece.kept] at all
    omega
  · intro free
    have word : tokens (quote text) = some [.word (text.map .quoted)] := by
      unfold tokens
      rw [run_quote free]
      rfl
    rw [read, tokens_append clean, word]
    simp [read_quoted]

end HomeConnect.Theory.Shell
