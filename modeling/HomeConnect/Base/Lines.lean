/-
# Base.Lines -- a text and its lines

`str::lines` ends a line at each line feed and drops a carriage return before it.  So a text
that ends in a line feed may be read apart from what follows (`lines_terminated_append`).
-/
import HomeConnect.Base.Text

namespace HomeConnect.Text

set_option autoImplicit false

/-! ## Reading -/

theorem lines_go_append {l : Text} (clean : '\n' ∉ l) (line rest : Text) :
    lines.go line (l ++ '\n' :: rest) = strip_cr (line ++ l) :: lines rest := by
  induction l generalizing line with
  | nil =>
      rw [List.append_nil]
      exact if_pos rfl
  | cons c l ih =>
      have other : c ≠ '\n' := fun same => clean (same ▸ List.mem_cons_self)
      rw [List.cons_append, lines.go, if_neg other, ih fun member => clean (List.mem_cons_of_mem _ member),
        List.append_assoc]
      rfl

/-- A line is what comes before the first line feed. -/
theorem lines_append {l : Text} (clean : '\n' ∉ l) (rest : Text) :
    lines (l ++ '\n' :: rest) = strip_cr l :: lines rest := lines_go_append clean [] rest

theorem strip_cr_subset (l : Text) : ∀ c ∈ strip_cr l, c ∈ l := by
  intro c inside
  unfold strip_cr at inside
  split at inside
  · exact (List.dropLast_sublist l).subset inside
  · exact inside

/-- No line has a line feed in it. -/
theorem clean_of_lines (s : Text) : ∀ l ∈ lines s, '\n' ∉ l := by
  have go : ∀ (s line : Text), '\n' ∉ line → ∀ l ∈ lines.go line s, '\n' ∉ l := by
    intro s
    induction s with
    | nil =>
        intro line clean l listed
        rw [lines.go] at listed
        split at listed
        · cases listed
        · rw [List.mem_singleton.1 listed]
          exact clean
    | cons c s ih =>
        intro line clean l listed
        rw [lines.go] at listed
        split at listed
        · rcases List.mem_cons.1 listed with rfl | later
          · exact fun inside => clean (strip_cr_subset line _ inside)
          · exact ih [] List.not_mem_nil l later
        · next other =>
            refine ih (line ++ [c]) ?_ l listed
            simp [clean, Ne.symm other]
  exact go s [] List.not_mem_nil

/-- What ends in a line feed is read by itself. -/
theorem lines_terminated_append (s rest : Text) :
    lines (s ++ '\n' :: rest) = lines (s ++ ['\n']) ++ lines rest := by
  have go : ∀ (s line : Text), lines.go line (s ++ '\n' :: rest) =
      lines.go line (s ++ ['\n']) ++ lines rest := by
    intro s
    induction s with
    | nil =>
        intro line
        show lines.go line ('\n' :: rest) = lines.go line ['\n'] ++ lines rest
        unfold lines.go
        rw [if_pos rfl, if_pos rfl]
        rfl
    | cons c s ih =>
        intro line
        rw [List.cons_append, List.cons_append]
        unfold lines.go
        by_cases feed : c = '\n'
        · rw [if_pos feed, if_pos feed, ih, List.cons_append]
        · rw [if_neg feed, if_neg feed, ih]
  exact go s []

theorem strip_cr_of_last {l : Text} (last : l.getLast? ≠ some '\r') : strip_cr l = l := if_neg last

/-- A line that keeps its carriage return had none before its line feed. -/
theorem last_of_strip_cr {l : Text} (kept : strip_cr l = l) : l.getLast? ≠ some '\r' := by
  intro last
  have shorter := congrArg List.length kept
  unfold strip_cr at shorter
  rw [if_pos last, List.length_dropLast] at shorter
  have some_text : l ≠ [] := by
    rintro rfl
    cases last
  have := List.length_pos_iff.2 some_text
  omega

end HomeConnect.Text
