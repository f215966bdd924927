/-
# Onboard.Repoint -- a device that is onboarded again

A device is moved to another server, or onto the tailnet, by running the onboarding script once
more, with other values.  What it finds in `continue.sh` are the lines of the earlier runs.

The last run counts, as if it had been the only one, and none of the lines that are not
onboarding's is ever lost, added or moved (`last_onboarding_counts`).
-/
import HomeConnect.Onboard.Patch

namespace HomeConnect.Onboard

open HomeConnect.Theory.LineEdit

set_option autoImplicit false

/-- A host of one line, and values that awk takes as they are. -/
structure Plain (awk_value : Text → Text) (args : Args) : Prop where
  one_line : '\n' ∉ args.host
  literal : ∀ t ∈ [args.host, ws_of args.host, tsline args.tailscale], awk_value t = t

/-- There is a line of the script's own to put the block before, or the script ends in a line
feed or with a line of onboarding's. -/
def Placed (cont : Text) : Prop :=
  (lines cont).any (fun l => !managed l && is_exec l) = true ∨ (parts cont).2 = [] ∨
    managed (parts cont).2 = true

instance (cont : Text) : Decidable (Placed cont) :=
  inferInstanceAs (Decidable (_ ∨ _ ∨ _))

/-- The lines of a script that are not onboarding's. -/
def own_lines (cont : Text) : List Line := (lines cont).filter fun l => !managed l

section Again

variable {awk_value : Text → Text}

theorem Plain.own {args : Args} (plain : Plain awk_value args) :
    OwnLines (awk_block awk_value args) ∧ OwnLines (echo_block args) := by
  have one_line' : '\n' ∉ ws_of args.host := by
    intro inside
    rcases ws_of_subset args.host _ inside with old | new
    · exact plain.one_line old
    · revert new
      decide
  have own := own_lines_of_clean plain.one_line one_line' args.tailscale
  have literal := plain.literal
  simp only [List.forall_mem_cons] at literal
  refine ⟨?_, own⟩
  unfold awk_block
  rw [literal.1, literal.2.1, literal.2.2.1]
  exact own

theorem placed_iff (cont : Text) :
    Placed cont ↔
      (others managed (lines cont)).any is_exec = true ∨ kept_rest managed cont = [] := by
  rw [Placed, kept_rest_eq_nil, others, List.any_filter]

/-- What an onboarding leaves, and that the next one finds its place in it. -/
theorem own_lines_patch {args : Args} (plain : Plain awk_value args) {cont : Text} (placed : Placed cont) :
    own_lines (patch awk_value args cont) = own_lines cont ∧ Placed (patch awk_value args cont) := by
  obtain ⟨awk, echo⟩ := plain.own
  obtain ⟨ls, made, clean, rest⟩ :=
    maintain_lines (clean_texts _) (clean_texts _) awk echo ((placed_iff cont).1 placed)
  rw [patch_eq_maintain, made]
  constructor
  · rw [own_lines, lines_whole clean]
    exact rest
  · refine .inr (.inl ?_)
    rw [parts_whole clean]

/-- Any onboarding that comes after a plain one. -/
theorem patch_again {args : Args} (plain : Plain awk_value args) {cont : Text} (placed : Placed cont)
    (later : Args) : patch awk_value later (patch awk_value args cont) = patch awk_value later cont := by
  obtain ⟨awk, echo⟩ := plain.own
  have first := @patch_eq_maintain awk_value args cont
  rw [first, patch_eq_maintain, patch_eq_maintain]
  exact maintain_again (clean_texts _) (clean_texts _) awk echo ((placed_iff cont).1 placed) _ _

end Again

/-- **The last onboarding counts.**  After any number of onboardings, with whatever servers and
with or without tailscale, one more leaves the script as it would have left the first one; and
the script's own lines are what they were. -/
theorem last_onboarding_counts (awk_value : Text → Text) (cont : Text) (earlier : List Args) (last : Args)
    (plain : ∀ args ∈ last :: earlier, Plain awk_value args) (placed : Placed cont) :
    patch awk_value last (earlier.foldl (fun script args => patch awk_value args script) cont) =
        patch awk_value last cont ∧
      own_lines (patch awk_value last cont) = own_lines cont := by
  rw [List.forall_mem_cons] at plain
  refine ⟨?_, (own_lines_patch plain.1 placed).1⟩
  induction earlier generalizing cont with
  | nil => rfl
  | cons args earlier ih =>
      obtain ⟨first, rest⟩ := plain.2 |> List.forall_mem_cons.1
      rw [List.foldl_cons, ih _ ⟨plain.1, rest⟩ (own_lines_patch first placed).2]
      exact patch_again first placed last

/-! ## Poles -/

private def old_server : Args := ⟨"http://a", true⟩

private def new_server : Args := ⟨"https://b", false⟩

/-- The device moves from one server to another and leaves the tailnet. -/
theorem last_onboarding_counts_moved :
    patch id new_server (patch id old_server "x\nexec y\n") = patch id new_server "x\nexec y\n" ∧
      own_lines (patch id new_server "x\nexec y\n") = ["x", "exec y"] := by
  obtain ⟨same, own⟩ := last_onboarding_counts id "x\nexec y\n" [old_server] new_server
    (by
      intro args member
      have either : args = new_server ∨ args = old_server := by simpa using member
      rcases either with rfl | rfl
      · exact ⟨by decide, fun _ _ => rfl⟩
      · exact ⟨by decide, fun _ _ => rfl⟩)
    (by decide +kernel)
  exact ⟨same, own.trans (by decide +kernel)⟩

end HomeConnect.Onboard
