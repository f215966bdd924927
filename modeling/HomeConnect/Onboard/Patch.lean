/-
# Onboard.Patch -- the lines onboarding keeps in a device's boot script

The onboarding script deletes its lines from `continue.sh` and puts them in again, before the
line that starts openpilot.  Without such a line it appends them with `>>`, which goes on where
the file ends: if the last line has no line feed, the first of its own is glued to it, and the
next onboarding deletes both (`only_own_lines_iff`).
-/
import HomeConnect.Base.Text
import HomeConnect.Theory.LineEdit

namespace HomeConnect.Onboard

open HomeConnect.Theory.LineEdit

set_option autoImplicit false

/-! ## The script -/

/-- `${HOST/http/ws}` -/
def ws_of : Text → Text
  | [] => []
  | c :: s => if ("http" : Text) <+: c :: s then ("ws" : Text) ++ (c :: s).drop 4 else c :: ws_of s

/-- What the patterns of the deletion look for. -/
def MARKS : List Text :=
  ["export API_HOST=", "export ATHENA_HOST=", "export MAPS_HOST=", "homeconnect-ssh", "homeconnect-tailscale"]

def managed (l : Line) : Bool := MARKS.any fun mark => Text.contains l mark

/-- `[[:space:]]` -/
def space (c : Char) : Bool := decide (c ∈ [' ', '\t', '\n', '\x0b', '\x0c', '\r'])

/-- `^[[:space:]]*exec ` -/
def is_exec (l : Line) : Bool := decide (("exec " : Text) <+: l.dropWhile space)

/-- The line for tailscale, when it has been set up. -/
def tsline (tailscale : Bool) : Text :=
  if tailscale then "sudo /data/tailscale/boot.sh # homeconnect-tailscale" else []

def ssh_line : Text :=
  ("cat /data/homeconnect_authorized_key >> /tmp/authorized_keys 2>/dev/null; " : Text) ++
    "chmod 600 /tmp/authorized_keys 2>/dev/null # homeconnect-ssh"

def export_line (name value : Text) : Text :=
  (("export " : Text) ++ name ++ "=") ++ (("\"" : Text) ++ value ++ "\"")

def later_lines (h w : Text) : List Text :=
  [export_line "ATHENA_HOST" w, export_line "MAPS_HOST" h, ssh_line]

/-- What is printed, one text a line. -/
def block (h w ts : Text) : List Text :=
  (if ts = [] then [] else [ts]) ++ export_line "API_HOST" h :: later_lines h w

structure Args where
  host : Text
  tailscale : Bool

section Patch

-- What awk makes of a value given with `-v`, where it reads escapes.
variable (awk_value : Text → Text) (args : Args)

def awk_block : List Text :=
  block (awk_value args.host) (awk_value (ws_of args.host)) (awk_value (tsline args.tailscale))

def echo_block : List Text := block args.host (ws_of args.host) (tsline args.tailscale)

/-- The patch of `continue.sh`. -/
def patch (cont : Text) : Text :=
  let kept := delete managed cont
  if (lines kept).any is_exec then insert_before is_exec (whole (awk_block awk_value args)) (lines kept)
  else kept ++ whole (echo_block args)

/-- Onboarding touches its own lines only. -/
structure OnlyOwnLines (cont : Text) : Prop where
  /-- The other lines are there, in order. -/
  keeps : ((lines cont).filter fun l => !managed l).Sublist (lines (patch awk_value args cont))
  /-- The managed lines are before the first exec line. -/
  first : ∀ a e b, lines (patch awk_value args cont) = a ++ e :: b → (∀ l ∈ a, is_exec l = false) →
    is_exec e = true → ∀ l ∈ e :: b, managed l = false
  again : patch awk_value args (patch awk_value args cont) = patch awk_value args cont

/-- Every line that printing these texts makes is managed, and none is an exec line. -/
def OwnLines (texts : List Text) : Prop := OwnBlock managed is_exec (texts.flatMap printed)

/-- Before an exec line, the lines printed are onboarding's own.  Without one, they are too, and
the script ended in a line feed or with a line of onboarding's. -/
def Untangled (cont : Text) : Prop :=
  if (lines cont).any (fun l => !managed l && is_exec l) then OwnLines (awk_block awk_value args)
  else OwnLines (echo_block args) ∧ ((parts cont).2 = [] ∨ managed (parts cont).2 = true)

end Patch

/-! ## The printed lines -/

theorem whole_texts (texts : List Text) : whole (texts.flatMap printed) = whole texts := by
  induction texts with
  | nil => rfl
  | cons t texts ih =>
      rw [List.flatMap_cons, whole_append, whole_printed, ih]
      rfl

theorem clean_texts (texts : List Text) : ∀ l ∈ texts.flatMap printed, '\n' ∉ l := by
  intro l member
  obtain ⟨t, _, inside⟩ := List.mem_flatMap.1 member
  exact clean_printed t l inside

theorem managed_of_contains {l mark : Text} (listed : mark ∈ MARKS) (inside : mark <:+: l) :
    managed l = true :=
  List.any_eq_true.2 ⟨mark, listed, decide_eq_true inside⟩

/-- Everything printed ends with the line of the key. -/
theorem block_lines_last (h w ts : Text) :
    ∃ before, (block h w ts).flatMap printed = before ++ [ssh_line] := by
  have one_line : printed ssh_line = [ssh_line] := printed_line (by decide)
  have apart : block h w ts = ((if ts = [] then [] else [ts]) ++
      [export_line "API_HOST" h, export_line "ATHENA_HOST" w, export_line "MAPS_HOST" h]) ++ [ssh_line] := by
    rw [List.append_assoc]
    rfl
  rw [apart, List.flatMap_append, List.flatMap_singleton, one_line]
  exact ⟨_, rfl⟩

/-- The first line is managed, whatever it is glued to. -/
theorem echo_block_first (args : Args) :
    ∃ b bs, (echo_block args).flatMap printed = b :: bs ∧ ∀ t, managed (t ++ b) = true := by
  obtain ⟨later, later_is⟩ : ∃ later, later_lines args.host (ws_of args.host) = later := ⟨_, rfl⟩
  unfold echo_block block
  rw [later_is]
  cases args.tailscale with
  | true =>
      have one_line : printed (tsline true) = [tsline true] := printed_line (by decide)
      have set : tsline true ≠ [] := by decide
      have marked : ("homeconnect-tailscale" : Text) <:+: tsline true := by decide
      rw [if_neg set, List.flatMap_append, List.flatMap_singleton, one_line]
      refine ⟨tsline true, _, rfl, fun t => ?_⟩
      exact managed_of_contains (by decide) (marked.trans (List.suffix_append t _).isInfix)
  | false =>
      obtain ⟨mark, mark_is⟩ : ∃ mark : Text, ("export " : Text) ++ ("API_HOST" : Text) ++ "=" = mark :=
        ⟨_, rfl⟩
      have clean : '\n' ∉ mark := by
        rw [← mark_is]
        decide
      have listed : mark ∈ MARKS := by
        rw [← mark_is]
        decide
      obtain ⟨l, ls, first⟩ := printed_prefix clean (("\"" : Text) ++ args.host ++ "\"")
      have unset : tsline false = [] := rfl
      have line_is : export_line "API_HOST" args.host = mark ++ (("\"" : Text) ++ args.host ++ "\"") := by
        rw [← mark_is]
        rfl
      rw [if_pos unset, List.nil_append, List.flatMap_cons, line_is, first]
      refine ⟨_, _, List.cons_append, fun t => ?_⟩
      exact managed_of_contains listed ((List.prefix_append _ l).isInfix.trans (List.suffix_append t _).isInfix)

theorem echo_block_lines (args : Args) :
    ∃ b bs, (echo_block args).flatMap printed = b :: bs ∧ (∀ t, managed (t ++ b) = true) ∧
      ∀ l, bs.getLast? = some l → managed l = true := by
  obtain ⟨b, bs, lines_are, absorbs⟩ := echo_block_first args
  refine ⟨b, bs, lines_are, absorbs, fun l ends => ?_⟩
  obtain ⟨before, apart⟩ := block_lines_last args.host (ws_of args.host) (tsline args.tailscale)
  have same := congrArg List.getLast? (lines_are.symm.trans apart)
  rw [List.getLast?_cons, ends, List.getLast?_concat, Option.getD_some, Option.some_inj] at same
  rw [same]
  decide +kernel

variable {awk_value : Text → Text} {args : Args}

theorem patch_eq_maintain (cont : Text) :
    patch awk_value args cont =
      maintain managed is_exec (whole ((awk_block awk_value args).flatMap printed))
        (whole ((echo_block args).flatMap printed)) cont := by
  rw [whole_texts, whole_texts]
  rfl

theorem only_own_lines_iff_maintained (cont : Text) :
    OnlyOwnLines awk_value args cont ↔
      Maintained managed is_exec (whole ((awk_block awk_value args).flatMap printed))
        (whole ((echo_block args).flatMap printed)) cont := by
  constructor
  · intro own
    refine ⟨?_, ?_, ?_⟩
    · rw [← patch_eq_maintain]
      exact own.keeps
    · rw [← patch_eq_maintain]
      exact own.first
    · rw [← patch_eq_maintain, ← patch_eq_maintain]
      exact own.again
  · intro well
    refine ⟨?_, ?_, ?_⟩
    · rw [patch_eq_maintain]
      exact well.keeps
    · rw [patch_eq_maintain]
      exact well.first
    · rw [patch_eq_maintain, patch_eq_maintain]
      exact well.again

/-! ## A host of one line -/

theorem ws_of_subset (s : Text) : ∀ c ∈ ws_of s, c ∈ s ∨ c ∈ ("ws" : Text) := by
  induction s with
  | nil => exact fun c member => Or.inl member
  | cons x s ih =>
      intro c member
      unfold ws_of at member
      by_cases scheme : ("http" : Text) <+: x :: s
      · rw [if_pos scheme] at member
        rcases List.mem_append.1 member with new | rest
        · exact Or.inr new
        · exact Or.inl (List.mem_of_mem_drop rest)
      · rw [if_neg scheme] at member
        rcases List.mem_cons.1 member with rfl | later
        · exact Or.inl List.mem_cons_self
        · exact (ih c later).imp (List.mem_cons_of_mem x) id

theorem export_line_own {name : Text} (value : Text) (listed : ("export " : Text) ++ name ++ "=" ∈ MARKS) :
    managed (export_line name value) = true ∧ is_exec (export_line name value) = false := by
  refine ⟨managed_of_contains listed (List.prefix_append _ _).isInfix, decide_eq_false fun begins => ?_⟩
  obtain ⟨rest, line_is⟩ : ∃ rest, export_line name value = 'e' :: 'x' :: 'p' :: rest := ⟨_, rfl⟩
  have solid : space 'e' = false := by decide
  rw [line_is, List.dropWhile_cons_of_neg (by simp [solid])] at begins
  obtain ⟨after, same⟩ := begins
  have third := congrArg (fun t => t[2]?) same
  cases third

/-- A host of one line makes lines of onboarding's own. -/
theorem own_lines_of_clean {h w : Text} (one_line : '\n' ∉ h) (one_line' : '\n' ∉ w) (tailscale : Bool) :
    OwnLines (block h w (tsline tailscale)) := by
  have exported : ∀ {name value : Text}, ("export " : Text) ++ name ++ "=" ∈ MARKS → '\n' ∉ value →
      ∀ l ∈ printed (export_line name value), managed l = true ∧ is_exec l = false := by
    intro name value listed clean l member
    have no_feed : ∀ mark ∈ MARKS, '\n' ∉ mark := by decide
    have clean_line : '\n' ∉ export_line name value := by
      unfold export_line
      intro inside
      rcases List.mem_append.1 inside with before | after
      · exact no_feed _ listed before
      · simp [clean] at after
    rw [printed_line clean_line, List.mem_singleton] at member
    rw [member]
    exact export_line_own value listed
  have fixed : ∀ t : Text, '\n' ∉ t → managed t = true ∧ is_exec t = false →
      ∀ l ∈ printed t, managed l = true ∧ is_exec l = false := by
    intro t clean own l member
    rw [printed_line clean, List.mem_singleton] at member
    rw [member]
    exact own
  have later : ∀ l ∈ (export_line "API_HOST" h :: later_lines h w).flatMap printed,
      managed l = true ∧ is_exec l = false := by
    intro l member
    obtain ⟨t, listed, inside⟩ := List.mem_flatMap.1 member
    rcases List.mem_cons.1 listed with rfl | listed
    · exact exported (by decide) one_line l inside
    unfold later_lines at listed
    rcases List.mem_cons.1 listed with rfl | listed
    · exact exported (by decide) one_line' l inside
    rcases List.mem_cons.1 listed with rfl | listed
    · exact exported (by decide) one_line l inside
    rw [List.mem_singleton.1 listed] at inside
    exact fixed ssh_line (by decide) (by decide +kernel) l inside
  intro l member
  cases tailscale with
  | true =>
      have set : tsline true ≠ [] := by decide
      unfold block at member
      rw [if_neg set, List.flatMap_append, List.flatMap_singleton] at member
      rcases List.mem_append.1 member with first | rest
      · exact fixed (tsline true) (by decide) (by decide) l first
      · exact later l rest
  | false => exact later l member

/-- With a host of one line that awk reads as it is, only the end of the script matters. -/
theorem untangled_of_clean {awk_value : Text → Text} {args : Args} (one_line : '\n' ∉ args.host)
    (literal : ∀ t ∈ [args.host, ws_of args.host, tsline args.tailscale], awk_value t = t) (cont : Text) :
    Untangled awk_value args cont ↔
      (lines cont).any (fun l => !managed l && is_exec l) = true ∨ (parts cont).2 = [] ∨
        managed (parts cont).2 = true := by
  have one_line' : '\n' ∉ ws_of args.host := by
    intro inside
    rcases ws_of_subset args.host _ inside with old | new
    · exact one_line old
    · revert new
      decide
  have own := own_lines_of_clean one_line one_line' args.tailscale
  simp only [List.forall_mem_cons] at literal
  unfold Untangled awk_block echo_block
  simp only [literal.1, literal.2.1, literal.2.2.1, own, true_and]
  by_cases starts : ((lines cont).any fun l => !managed l && is_exec l) = true
  · simp [starts]
  · simp [starts]

/-- Onboarding touches its own lines only, if and only if it prints nothing but lines of its own,
and has an exec line to put them before or a script that ends in a line feed.  With a host of
one line that awk reads as it is, only the end of the script matters. -/
theorem only_own_lines_iff (awk_value : Text → Text) (args : Args) (cont : Text) :
    (OnlyOwnLines awk_value args cont ↔ Untangled awk_value args cont) ∧
      ('\n' ∉ args.host → (∀ t ∈ [args.host, ws_of args.host, tsline args.tailscale], awk_value t = t) →
        (Untangled awk_value args cont ↔
          (lines cont).any (fun l => !managed l && is_exec l) = true ∨ (parts cont).2 = [] ∨
            managed (parts cont).2 = true)) := by
  refine ⟨?_, fun one_line literal => untangled_of_clean one_line literal cont⟩
  have calls : (others managed (lines cont)).any is_exec =
      (lines cont).any fun l => !managed l && is_exec l := List.any_filter
  rw [only_own_lines_iff_maintained]
  unfold Untangled OwnLines
  by_cases starts : ((lines cont).any fun l => !managed l && is_exec l) = true
  · rw [if_pos starts]
    exact maintained_insert_iff (clean_texts _) _ (calls.trans starts)
  · rw [if_neg starts]
    obtain ⟨b, bs, lines_are, absorbs, ends⟩ := echo_block_lines args
    have clean := clean_texts (echo_block args)
    rw [lines_are] at clean ⊢
    exact maintained_append_iff (clean_texts _) clean absorbs ends (calls.trans (by simpa using starts))

/-! ## Poles -/

private def home : Args := ⟨"http://hc.bam", false⟩

/-- A boot script whose one line has no line feed loses it. -/
theorem unended_line_lost : ¬ ∀ (awk_value : Text → Text) (args : Args) (cont : Text),
    OnlyOwnLines awk_value args cont := by
  intro claim
  have kept := (claim id home "./launch").keeps
  revert kept
  decide +kernel

end HomeConnect.Onboard
