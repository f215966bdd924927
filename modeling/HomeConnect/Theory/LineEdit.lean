/-
# Theory.LineEdit -- a file kept as lines, and the tools that edit it

A file is its complete lines and what is left after the last line feed.  `sed` deletes lines
and leaves the end of the last one as it is; `awk` ends every line it prints with a line feed;
`>>` goes on where the file ends.

A managed block is kept in a file by deleting the lines that are marked as its own and putting
it back, before the first line that calls for it or else at the end.  `maintained_iff` says
when that leaves the other lines alone and does nothing the second time.
-/
import Mathlib.Data.List.Basic

namespace HomeConnect.Theory.LineEdit

set_option autoImplicit false

abbrev Line := List Char

/-! ## Lines -/

/-- The complete lines, and what is left. -/
def parts : List Char → List Line × Line
  | [] => ([], [])
  | c :: s =>
      if c = '\n' then ([] :: (parts s).1, (parts s).2)
      else
        match (parts s).1 with
        | [] => ([], c :: (parts s).2)
        | l :: ls => ((c :: l) :: ls, (parts s).2)

/-- Complete lines. -/
def whole (ls : List Line) : List Char := ls.flatMap fun l => l ++ ['\n']

/-- The lines of a file; what is left counts as one. -/
def lines (s : List Char) : List Line :=
  (parts s).1 ++ if (parts s).2 = [] then [] else [(parts s).2]

theorem whole_append (ls ls' : List Line) : whole (ls ++ ls') = whole ls ++ whole ls' :=
  List.flatMap_append

theorem whole_parts (s : List Char) : whole (parts s).1 ++ (parts s).2 = s := by
  induction s with
  | nil => rfl
  | cons c s ih =>
      unfold parts
      by_cases feed : c = '\n'
      · rw [if_pos feed]
        show '\n' :: (whole (parts s).1 ++ (parts s).2) = c :: s
        rw [ih, feed]
      · rw [if_neg feed]
        cases first : (parts s).1 with
        | nil =>
            rw [first] at ih
            show c :: (parts s).2 = c :: s
            exact congrArg (c :: ·) ih
        | cons l ls =>
            rw [first] at ih
            show c :: (whole (l :: ls) ++ (parts s).2) = c :: s
            rw [ih]

theorem clean_parts (s : List Char) : (∀ l ∈ (parts s).1, '\n' ∉ l) ∧ '\n' ∉ (parts s).2 := by
  induction s with
  | nil => simp [parts]
  | cons c s ih =>
      unfold parts
      by_cases feed : c = '\n'
      · rw [if_pos feed]
        exact ⟨by simpa using ih.1, ih.2⟩
      · rw [if_neg feed]
        cases first : (parts s).1 with
        | nil => simpa [Ne.symm feed] using ih.2
        | cons l ls =>
            rw [first, List.forall_mem_cons] at ih
            simpa [Ne.symm feed, ih.2] using ih.1

theorem parts_line {l : Line} (clean : '\n' ∉ l) (s : List Char) :
    parts (l ++ '\n' :: s) = (l :: (parts s).1, (parts s).2) := by
  induction l with
  | nil =>
      show parts ('\n' :: s) = _
      rw [parts, if_pos rfl]
  | cons c l ih =>
      rw [List.mem_cons, not_or] at clean
      rw [List.cons_append, parts, if_neg (Ne.symm clean.1), ih clean.2]

theorem parts_rest {t : Line} (clean : '\n' ∉ t) : parts t = ([], t) := by
  induction t with
  | nil => rfl
  | cons c t ih =>
      rw [List.mem_cons, not_or] at clean
      rw [parts, if_neg (Ne.symm clean.1), ih clean.2]

theorem parts_whole_append {ls : List Line} (clean : ∀ l ∈ ls, '\n' ∉ l) (s : List Char) :
    parts (whole ls ++ s) = (ls ++ (parts s).1, (parts s).2) := by
  induction ls with
  | nil => rfl
  | cons l ls ih =>
      rw [List.forall_mem_cons] at clean
      have apart : whole (l :: ls) ++ s = l ++ '\n' :: (whole ls ++ s) := by simp [whole]
      rw [apart, parts_line clean.1, ih clean.2]
      rfl

theorem parts_whole {ls : List Line} (clean : ∀ l ∈ ls, '\n' ∉ l) : parts (whole ls) = (ls, []) := by
  have here := parts_whole_append clean []
  rw [List.append_nil, parts, List.append_nil] at here
  exact here

theorem lines_whole {ls : List Line} (clean : ∀ l ∈ ls, '\n' ∉ l) : lines (whole ls) = ls := by
  unfold lines
  rw [parts_whole clean, if_pos rfl, List.append_nil]

theorem whole_inj {ls ls' : List Line} (clean : ∀ l ∈ ls, '\n' ∉ l) (clean' : ∀ l ∈ ls', '\n' ∉ l)
    (same : whole ls = whole ls') : ls = ls' := by
  rw [← lines_whole clean, ← lines_whole clean', same]

theorem clean_lines (s : List Char) : ∀ l ∈ lines s, '\n' ∉ l := by
  intro l member
  unfold lines at member
  rcases List.mem_append.1 member with complete | rest
  · exact (clean_parts s).1 l complete
  · by_cases ended : (parts s).2 = []
    · rw [if_pos ended] at rest
      cases rest
    · rw [if_neg ended, List.mem_singleton] at rest
      rw [rest]
      exact (clean_parts s).2

/-! ## Printed text -/

/-- The lines that a printed text makes, with the line feed printed after it. -/
def printed (t : List Char) : List Line := (parts t).1 ++ [(parts t).2]

theorem whole_printed (t : List Char) : whole (printed t) = t ++ ['\n'] := by
  unfold printed
  rw [whole_append]
  conv_rhs => rw [← whole_parts t]
  simp [whole]

theorem clean_printed (t : List Char) : ∀ l ∈ printed t, '\n' ∉ l := by
  intro l member
  rcases List.mem_append.1 member with complete | rest
  · exact (clean_parts t).1 l complete
  · rw [List.mem_singleton.1 rest]
    exact (clean_parts t).2

theorem printed_line {t : List Char} (clean : '\n' ∉ t) : printed t = [t] := by
  unfold printed
  rw [parts_rest clean]
  rfl

/-- The first line that is printed begins as the text does. -/
theorem printed_prefix {pre : Line} (clean : '\n' ∉ pre) (t : List Char) :
    ∃ l ls, printed (pre ++ t) = (pre ++ l) :: ls := by
  induction pre with
  | nil =>
      cases all : printed t with
      | nil => simp [printed] at all
      | cons l ls => exact ⟨l, ls, all⟩
  | cons c pre ih =>
      rw [List.mem_cons, not_or] at clean
      obtain ⟨l, ls, begins⟩ := ih clean.2
      refine ⟨l, ls, ?_⟩
      unfold printed at begins ⊢
      rw [List.cons_append, parts, if_neg (Ne.symm clean.1)]
      cases first : (parts (pre ++ t)).1 with
      | nil =>
          rw [first] at begins
          simpa using begins
      | cons l' ls' =>
          rw [first] at begins
          simpa using begins

/-! ## The tools -/

/-- `sed -i '/…/d'`. -/
def delete (p : Line → Bool) (s : List Char) : List Char :=
  whole ((parts s).1.filter fun l => !p l) ++ if p (parts s).2 then [] else (parts s).2

/-- `awk '/…/&&!done { print block; done=1 } { print }'`. -/
def insert_before (p : Line → Bool) (block : List Char) : List Line → List Char
  | [] => []
  | l :: ls => if p l then block ++ whole (l :: ls) else l ++ '\n' :: insert_before p block ls

theorem parts_delete (p : Line → Bool) (s : List Char) :
    parts (delete p s) =
      ((parts s).1.filter fun l => !p l, if p (parts s).2 then [] else (parts s).2) := by
  have clean := clean_parts s
  have kept : '\n' ∉ if p (parts s).2 then [] else (parts s).2 := by
    by_cases gone : p (parts s).2 = true
    · rw [if_pos gone]
      exact List.not_mem_nil
    · rw [if_neg gone]
      exact clean.2
  unfold delete
  rw [parts_whole_append (fun l member => clean.1 l (List.mem_filter.1 member).1), parts_rest kept,
    List.append_nil]

/-- The lines left are those that are not deleted. -/
theorem lines_delete (p : Line → Bool) (s : List Char) :
    lines (delete p s) = (lines s).filter fun l => !p l := by
  unfold lines
  rw [parts_delete, List.filter_append]
  congr 1
  by_cases none : (parts s).2 = []
  · simp [none]
  · by_cases gone : p (parts s).2 = true
    · simp [none, gone]
    · simp [none, gone]

theorem insert_before_split {p : Line → Bool} {pre post : List Line} {e : Line} (block : List Char)
    (skipped : ∀ l ∈ pre, p l = false) (here : p e = true) :
    insert_before p block (pre ++ e :: post) = whole pre ++ block ++ whole (e :: post) := by
  induction pre with
  | nil =>
      show insert_before p block (e :: post) = _
      rw [insert_before, if_pos here]
      rfl
  | cons l pre ih =>
      rw [List.forall_mem_cons] at skipped
      rw [List.cons_append, insert_before, if_neg (by simp [skipped.1]), ih skipped.2]
      simp [whole]

/-- The first line of a kind. -/
theorem first_of_any {p : Line → Bool} {ls : List Line} (some_line : ls.any p = true) :
    ∃ pre e post, ls = pre ++ e :: post ∧ (∀ l ∈ pre, p l = false) ∧ p e = true := by
  obtain ⟨e, found⟩ := Option.isSome_iff_exists.1 (List.find?_isSome.2 (List.any_eq_true.1 some_line))
  obtain ⟨here, pre, post, split, skipped⟩ := List.find?_eq_some_iff_append.1 found
  exact ⟨pre, e, post, split, by simpa using skipped, here⟩

/-- There is one first line of a kind. -/
theorem first_unique {p : Line → Bool} {a a' b b' : List Line} {x x' : Line}
    (same : a ++ x :: b = a' ++ x' :: b') (skipped : ∀ l ∈ a, p l = false) (here : p x = true)
    (skipped' : ∀ l ∈ a', p l = false) (here' : p x' = true) : a = a' ∧ x :: b = x' :: b' := by
  induction a generalizing a' with
  | nil =>
      cases a' with
      | nil => exact ⟨rfl, same⟩
      | cons l a' =>
          obtain ⟨rfl, -⟩ := List.cons.inj same
          rw [skipped' x List.mem_cons_self] at here
          cases here
  | cons l a ih =>
      cases a' with
      | nil =>
          obtain ⟨rfl, -⟩ := List.cons.inj same
          rw [skipped l List.mem_cons_self] at here'
          cases here'
      | cons l' a' =>
          obtain ⟨rfl, rest⟩ := List.cons.inj same
          rw [List.forall_mem_cons] at skipped skipped'
          obtain ⟨rfl, later⟩ := ih rest skipped.2 skipped'.2
          exact ⟨rfl, later⟩

/-! ## A managed block -/

section Block

variable (managed stop : Line → Bool)

/-- Delete the managed lines, and put the block back: before the first line that calls for it,
or else at the end. -/
def maintain (before after s : List Char) : List Char :=
  if (lines (delete managed s)).any stop then insert_before stop before (lines (delete managed s))
  else delete managed s ++ after

/-- The lines that are not managed. -/
def others (ls : List Line) : List Line := ls.filter fun l => !managed l

/-- What the maintenance of a block should do to a file. -/
structure Maintained (before after s : List Char) : Prop where
  /-- The other lines are there, in order. -/
  keeps : (others managed (lines s)).Sublist (lines (maintain managed stop before after s))
  /-- The managed lines are before the first line that calls for them. -/
  first : ∀ a e b, lines (maintain managed stop before after s) = a ++ e :: b →
    (∀ l ∈ a, stop l = false) → stop e = true → ∀ l ∈ e :: b, managed l = false
  again : maintain managed stop before after (maintain managed stop before after s) =
    maintain managed stop before after s

/-- Each line of the block is managed, and none calls for the block itself. -/
def OwnBlock (block : List Line) : Prop := ∀ l ∈ block, managed l = true ∧ stop l = false

instance (block : List Line) : Decidable (OwnBlock managed stop block) :=
  inferInstanceAs (Decidable (∀ l ∈ block, managed l = true ∧ stop l = false))

variable {managed stop} {A B : List Line} {s : List Char}

theorem others_append (ls ls' : List Line) :
    others managed (ls ++ ls') = others managed ls ++ others managed ls' := List.filter_append ..

theorem others_eq_nil {ls : List Line} : others managed ls = [] ↔ ∀ l ∈ ls, managed l = true := by
  simp [others, List.filter_eq_nil_iff]

theorem others_self {ls : List Line} (free : ∀ l ∈ ls, managed l = false) : others managed ls = ls := by
  apply List.filter_eq_self.2
  intro l member
  rw [free l member]
  rfl

theorem free_of_others {ls : List Line} : ∀ l ∈ others managed ls, managed l = false := by
  intro l member
  simpa using (List.mem_filter.1 member).2

theorem maintain_insert {pre post : List Line} {e : Line} (after : List Char)
    (split : others managed (lines s) = pre ++ e :: post) (skipped : ∀ l ∈ pre, stop l = false)
    (here : stop e = true) :
    maintain managed stop (whole A) after s = whole (pre ++ A ++ e :: post) := by
  have left : lines (delete managed s) = pre ++ e :: post := (lines_delete managed s).trans split
  have calls : (pre ++ e :: post).any stop = true := List.any_eq_true.2 ⟨e, by simp, here⟩
  unfold maintain
  rw [left, if_pos calls, insert_before_split _ skipped here, whole_append, whole_append]

theorem maintain_append (before after : List Char)
    (none : (others managed (lines s)).any stop = false) :
    maintain managed stop before after s = delete managed s ++ after := by
  have left : (lines (delete managed s)).any stop = false := by
    rw [lines_delete]
    exact none
  unfold maintain
  rw [left, if_neg Bool.false_ne_true]

theorem maintain_whole_append {ls : List Line} (clean : ∀ l ∈ ls, '\n' ∉ l) (before : List Char)
    (none : (others managed ls).any stop = false) :
    maintain managed stop before (whole B) (whole ls) = whole (others managed ls ++ B) := by
  rw [maintain_append before _ (by rw [lines_whole clean]; exact none), whole_append]
  unfold delete
  rw [parts_whole clean]
  simp [others]

/-- Where the second time changes nothing, the file is the other lines with the block before
the first line that calls for it. -/
theorem placed_insert {ls : List Line} (clean : ∀ l ∈ ls, '\n' ∉ l) (cleanA : ∀ l ∈ A, '\n' ∉ l)
    (after : List Char) (calls : (others managed ls).any stop = true)
    (again : maintain managed stop (whole A) after (whole ls) = whole ls) :
    ∃ pre e post, others managed ls = pre ++ e :: post ∧ ls = pre ++ A ++ e :: post := by
  obtain ⟨pre, e, post, split, skipped, here⟩ := first_of_any calls
  refine ⟨pre, e, post, split, ?_⟩
  rw [maintain_insert _ (by rw [lines_whole clean]; exact split) skipped here] at again
  refine (whole_inj ?_ clean again).symm
  have clean_split : ∀ l ∈ pre ++ e :: post, '\n' ∉ l := fun l member =>
    clean l (List.mem_filter.1 (split ▸ member)).1
  intro l member
  rw [List.append_assoc, List.mem_append, List.mem_append] at member
  rcases member with outside | inside | outside
  · exact clean_split l (List.mem_append_left _ outside)
  · exact cleanA l inside
  · exact clean_split l (List.mem_append_right _ outside)

/-- Without such a line, the block is at the end. -/
theorem placed_append {ls : List Line} (clean : ∀ l ∈ ls, '\n' ∉ l) (cleanB : ∀ l ∈ B, '\n' ∉ l)
    (before : List Char) (none : (others managed ls).any stop = false)
    (again : maintain managed stop before (whole B) (whole ls) = whole ls) :
    ls = others managed ls ++ B := by
  rw [maintain_whole_append clean _ none] at again
  refine (whole_inj ?_ clean again).symm
  intro l member
  rcases List.mem_append.1 member with outside | inside
  · exact clean l (List.mem_filter.1 outside).1
  · exact cleanB l inside

/-- The block stands before the first line that calls for it.  All is well exactly when it is the
block's own lines. -/
theorem maintained_insert_iff (cleanA : ∀ l ∈ A, '\n' ∉ l) (after : List Char)
    (calls : (others managed (lines s)).any stop = true) :
    Maintained managed stop (whole A) after s ↔ OwnBlock managed stop A := by
  obtain ⟨pre, e, post, split, skipped, here⟩ := first_of_any calls
  have out := maintain_insert (A := A) after split skipped here
  have free : ∀ l ∈ pre ++ e :: post, managed l = false := split ▸ free_of_others
  have clean_split : ∀ l ∈ pre ++ e :: post, '\n' ∉ l := fun l member =>
    clean_lines s l (List.mem_filter.1 (split ▸ member)).1
  have clean : ∀ l ∈ pre ++ A ++ e :: post, '\n' ∉ l := by
    intro l member
    rw [List.append_assoc, List.mem_append, List.mem_append] at member
    rcases member with outside | inside | outside
    · exact clean_split l (List.mem_append_left _ outside)
    · exact cleanA l inside
    · exact clean_split l (List.mem_append_right _ outside)
  have free_pre : ∀ l ∈ pre, managed l = false := fun l member => free l (List.mem_append_left _ member)
  have free_post : ∀ l ∈ e :: post, managed l = false := fun l member =>
    free l (List.mem_append_right _ member)
  have left : others managed (pre ++ A ++ e :: post) = pre ++ others managed A ++ e :: post := by
    rw [others_append, others_append, others_self free_pre, others_self free_post]
  constructor
  · intro well
    have again := well.again
    rw [out] at again
    -- a line of the block that is not managed would stay, and the file grow
    have all_managed : others managed A = [] := by
      obtain ⟨pre', e', post', split', placed⟩ := placed_insert clean cleanA after
        (List.any_eq_true.2 ⟨e, by rw [left]; simp, here⟩) again
      rw [left] at split'
      have before := congrArg List.length split'
      have after := congrArg List.length placed
      simp only [List.length_append, List.length_cons] at before after
      apply List.length_eq_zero_iff.1
      omega
    intro l member
    refine ⟨others_eq_nil.1 all_managed l member, ?_⟩
    by_contra called
    obtain ⟨a, x, b, inside, skipped', here'⟩ :=
      first_of_any (List.any_eq_true.2 ⟨l, member, by simpa using called⟩)
    have early := well.first (pre ++ a) x (b ++ e :: post)
      (by rw [out, lines_whole clean, inside]; simp)
      (List.forall_mem_append.2 ⟨skipped, skipped'⟩) here' x List.mem_cons_self
    rw [others_eq_nil.1 all_managed x (by rw [inside]; simp)] at early
    cases early
  · intro own
    refine ⟨?_, ?_, ?_⟩
    · rw [out, lines_whole clean, split, List.append_assoc]
      exact (List.Sublist.refl pre).append (List.sublist_append_right A _)
    · intro a x b shape early called
      rw [out, lines_whole clean] at shape
      obtain ⟨-, same⟩ := first_unique shape
        (List.forall_mem_append.2 ⟨skipped, fun l member => (own l member).2⟩) here early called
      rw [← same]
      exact free_post
    · rw [out]
      have none : others managed A = [] := others_eq_nil.2 fun l member => (own l member).1
      apply maintain_insert _ _ skipped here
      rw [lines_whole clean, left, none, List.append_nil]

/-- What is left of the last line, after the deletion. -/
def kept_rest (managed : Line → Bool) (s : List Char) : Line :=
  if managed (parts s).2 then [] else (parts s).2

theorem others_lines (s : List Char) :
    others managed (lines s) =
      others managed (parts s).1 ++ if kept_rest managed s = [] then [] else [kept_rest managed s] := by
  show (lines s).filter _ = _
  rw [← lines_delete]
  unfold lines
  rw [parts_delete]
  rfl

/-- The first line of the block goes on where the file ends. -/
theorem delete_append (b : Line) (bs : List Line) :
    delete managed s ++ whole (b :: bs) =
      whole (others managed (parts s).1 ++ (kept_rest managed s ++ b) :: bs) := by
  rw [whole_append]
  show whole (others managed (parts s).1) ++ kept_rest managed s ++ whole (b :: bs) = _
  simp [whole]

theorem kept_rest_eq_nil :
    kept_rest managed s = [] ↔ (parts s).2 = [] ∨ managed (parts s).2 = true := by
  unfold kept_rest
  by_cases gone : managed (parts s).2 = true
  · simp [gone]
  · simp [gone]

/-- The block stands at the end.  All is well exactly when it is the block's own lines, and the
file it was added to ended in a line feed. -/
theorem maintained_append_iff {b : Line} {bs : List Line} (cleanA : ∀ l ∈ A, '\n' ∉ l)
    (cleanB : ∀ l ∈ b :: bs, '\n' ∉ l) (absorbs : ∀ t, managed (t ++ b) = true)
    (ends : ∀ l, bs.getLast? = some l → managed l = true)
    (none : (others managed (lines s)).any stop = false) :
    Maintained managed stop (whole A) (whole (b :: bs)) s ↔
      OwnBlock managed stop (b :: bs) ∧ ((parts s).2 = [] ∨ managed (parts s).2 = true) := by
  obtain ⟨kept, kept_is⟩ : ∃ kept, others managed (parts s).1 = kept := ⟨_, rfl⟩
  obtain ⟨rest, rest_is⟩ : ∃ rest, kept_rest managed s = rest := ⟨_, rfl⟩
  have out : maintain managed stop (whole A) (whole (b :: bs)) s = whole (kept ++ (rest ++ b) :: bs) := by
    rw [maintain_append _ _ none, delete_append, kept_is, rest_is]
  have free : ∀ l ∈ kept, managed l = false := kept_is ▸ free_of_others
  have clean_kept : ∀ l ∈ kept, '\n' ∉ l := fun l member =>
    (clean_parts s).1 l (List.mem_filter.1 (kept_is ▸ member)).1
  have clean_rest : '\n' ∉ rest := by
    rw [← rest_is]
    unfold kept_rest
    by_cases gone : managed (parts s).2 = true
    · rw [if_pos gone]
      exact List.not_mem_nil
    · rw [if_neg gone]
      exact (clean_parts s).2
  have clean : ∀ l ∈ kept ++ (rest ++ b) :: bs, '\n' ∉ l := by
    intro l member
    rcases List.mem_append.1 member with outside | inside
    · exact clean_kept l outside
    · rcases List.mem_cons.1 inside with rfl | later
      · simp [clean_rest, cleanB b List.mem_cons_self]
      · exact cleanB l (List.mem_cons_of_mem _ later)
  have left : others managed (kept ++ (rest ++ b) :: bs) = kept ++ others managed bs := by
    rw [others_append, others_self free]
    simp [others, absorbs]
  have before : others managed (lines s) = kept ++ if rest = [] then [] else [rest] := by
    rw [others_lines, kept_is, rest_is]
  have no_stop : ∀ l ∈ kept, stop l = false := by
    intro l member
    rw [before] at none
    simpa using List.any_eq_false.1 none l (List.mem_append_left _ member)
  rw [← kept_rest_eq_nil, rest_is]
  constructor
  · intro well
    have again := well.again
    rw [out] at again
    -- the last line is the block's, so that the block has not moved
    have bs_managed : others managed bs = [] := by
      by_cases calls : (others managed (kept ++ (rest ++ b) :: bs)).any stop = true
      · exfalso
        obtain ⟨pre, e, post, split, placed⟩ := placed_insert clean cleanA _ calls again
        have last_free : managed ((e :: post).getLast (List.cons_ne_nil _ _)) = false :=
          free_of_others _ (split ▸ List.mem_append_right _ (List.getLast_mem _))
        have last_managed : managed (((rest ++ b) :: bs).getLast (List.cons_ne_nil _ _)) = true := by
          cases bs with
          | nil => exact absorbs rest
          | cons b' bs =>
              rw [List.getLast_cons (List.cons_ne_nil _ _)]
              exact ends _ (List.getLast?_eq_some_getLast (List.cons_ne_nil _ _))
        have same := congrArg List.getLast? placed
        rw [List.getLast?_append_cons, List.getLast?_append_cons, List.getLast?_eq_some_getLast (List.cons_ne_nil _ _),
          List.getLast?_eq_some_getLast (List.cons_ne_nil _ _), Option.some_inj] at same
        rw [same, last_free] at last_managed
        cases last_managed
      · have placed := placed_append clean cleanB _ (by simpa using calls) again
        rw [left] at placed
        have count := congrArg List.length placed
        simp only [List.length_append, List.length_cons] at count
        apply List.length_eq_zero_iff.1
        omega
    have rest_nil : rest = [] := by
      by_contra some_rest
      have kept_all := well.keeps.filter fun l => !managed l
      rw [out, lines_whole clean] at kept_all
      have shorter : (others managed (others managed (lines s))).length ≤
          (others managed (kept ++ (rest ++ b) :: bs)).length := kept_all.length_le
      rw [others_self free_of_others, before, left, bs_managed, if_neg some_rest] at shorter
      simp only [List.length_append, List.length_cons, List.length_nil] at shorter
      omega
    subst rest_nil
    refine ⟨fun l member => ?_, rfl⟩
    have all_managed : ∀ l ∈ b :: bs, managed l = true :=
      List.forall_mem_cons.2 ⟨absorbs [], others_eq_nil.1 bs_managed⟩
    refine ⟨all_managed l member, ?_⟩
    by_contra called
    obtain ⟨a, x, c, inside, skipped, here⟩ :=
      first_of_any (List.any_eq_true.2 ⟨l, member, by simpa using called⟩)
    have early := well.first (kept ++ a) x c
      (by rw [out, lines_whole clean, List.nil_append, inside, List.append_assoc])
      (List.forall_mem_append.2 ⟨no_stop, skipped⟩) here x List.mem_cons_self
    rw [all_managed x (by rw [inside]; simp)] at early
    cases early
  · rintro ⟨own, rfl⟩
    have bs_managed : others managed bs = [] :=
      others_eq_nil.2 fun l member => (own l (List.mem_cons_of_mem _ member)).1
    rw [bs_managed, List.append_nil] at left
    rw [if_pos rfl, List.append_nil] at before
    refine ⟨?_, ?_, ?_⟩
    · rw [out, lines_whole clean, before]
      exact List.sublist_append_left _ _
    · intro a x c shape _ called
      exfalso
      rw [out, lines_whole clean] at shape
      have quiet : ∀ l ∈ kept ++ b :: bs, stop l = false :=
        List.forall_mem_append.2 ⟨no_stop, fun l member => (own l member).2⟩
      rw [quiet x (shape ▸ by simp)] at called
      cases called
    · rw [out, maintain_whole_append clean]
      · rw [left]
        rfl
      · rw [left]
        exact List.any_eq_false.2 fun l member => by simp [no_stop l member]

/-! ### One block after another -/

theorem delete_whole {ls : List Line} (clean : ∀ l ∈ ls, '\n' ∉ l) :
    delete managed (whole ls) = whole (others managed ls) := by
  unfold delete
  rw [parts_whole clean]
  simp [others]

/-- What is maintained depends on the lines that are left, and without one that calls for the
block on the text that is left. -/
theorem maintain_congr {r : List Char} (before after : List Char)
    (left : lines (delete managed r) = lines (delete managed s))
    (text : (lines (delete managed s)).any stop = false → delete managed r = delete managed s) :
    maintain managed stop before after r = maintain managed stop before after s := by
  unfold maintain
  rw [left]
  cases calls : (lines (delete managed s)).any stop with
  | true => rfl
  | false => rw [text calls]

/-- A file with its block put in is complete lines: the other lines and the block's. -/
theorem maintain_lines (cleanA : ∀ l ∈ A, '\n' ∉ l) (cleanB : ∀ l ∈ B, '\n' ∉ l)
    (ownA : OwnBlock managed stop A) (ownB : OwnBlock managed stop B)
    (placed : (others managed (lines s)).any stop = true ∨ kept_rest managed s = []) :
    ∃ ls, maintain managed stop (whole A) (whole B) s = whole ls ∧ (∀ l ∈ ls, '\n' ∉ l) ∧
      others managed ls = others managed (lines s) := by
  have noneA : others managed A = [] := others_eq_nil.2 fun l member => (ownA l member).1
  have noneB : others managed B = [] := others_eq_nil.2 fun l member => (ownB l member).1
  have clean_others : ∀ l ∈ others managed (lines s), '\n' ∉ l := fun l member =>
    clean_lines s l (List.mem_filter.1 member).1
  cases calls : (others managed (lines s)).any stop with
  | true =>
      obtain ⟨pre, e, post, split, skipped, here⟩ := first_of_any calls
      have free : ∀ l ∈ pre ++ e :: post, managed l = false := split ▸ free_of_others
      rw [split] at clean_others
      rw [List.forall_mem_append] at clean_others free
      refine ⟨pre ++ A ++ e :: post, maintain_insert _ split skipped here, ?_, ?_⟩
      · intro l member
        rw [List.append_assoc, List.mem_append, List.mem_append] at member
        rcases member with outside | inside | outside
        · exact clean_others.1 l outside
        · exact cleanA l inside
        · exact clean_others.2 l outside
      · rw [others_append, others_append, noneA, others_self free.1, others_self free.2, split,
          List.append_nil]
  | false =>
      have ended : kept_rest managed s = [] := by
        rcases placed with some_line | ended
        · rw [calls] at some_line
          cases some_line
        · exact ended
      have left : others managed (lines s) = others managed (parts s).1 := by
        rw [others_lines, if_pos ended, List.append_nil]
      have deleted : delete managed s = whole (others managed (lines s)) := by
        rw [left]
        show whole (others managed (parts s).1) ++ kept_rest managed s = _
        rw [ended, List.append_nil]
      refine ⟨others managed (lines s) ++ B, ?_, ?_, ?_⟩
      · rw [maintain_append _ _ calls, deleted, whole_append]
      · intro l member
        rcases List.mem_append.1 member with outside | inside
        · exact clean_others l outside
        · exact cleanB l inside
      · rw [others_append, noneB, others_self free_of_others, List.append_nil]

/-- A block takes the place of an earlier one, as if that had never been there. -/
theorem maintain_again (cleanA : ∀ l ∈ A, '\n' ∉ l) (cleanB : ∀ l ∈ B, '\n' ∉ l)
    (ownA : OwnBlock managed stop A) (ownB : OwnBlock managed stop B)
    (placed : (others managed (lines s)).any stop = true ∨ kept_rest managed s = [])
    (before after : List Char) :
    maintain managed stop before after (maintain managed stop (whole A) (whole B) s) =
      maintain managed stop before after s := by
  obtain ⟨ls, made, clean, rest⟩ := maintain_lines cleanA cleanB ownA ownB placed
  rw [made]
  have clean_rest : ∀ l ∈ others managed ls, '\n' ∉ l := fun l member => clean l (List.mem_filter.1 member).1
  have left : lines (delete managed (whole ls)) = lines (delete managed s) := by
    rw [delete_whole clean, lines_whole clean_rest, rest, lines_delete]
    rfl
  apply maintain_congr before after left
  intro none
  have ended : kept_rest managed s = [] := by
    rcases placed with some_line | ended
    · rw [lines_delete] at none
      rw [others, none] at some_line
      cases some_line
    · exact ended
  rw [delete_whole clean, rest, others_lines, if_pos ended, List.append_nil]
  show _ = whole (others managed (parts s).1) ++ kept_rest managed s
  rw [ended, List.append_nil]

end Block

end HomeConnect.Theory.LineEdit
