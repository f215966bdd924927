/-
# Params.Status -- the update status of a device

`status` has the device print the first 4000 bytes of fifteen params, a separator after each,
and then whether the updater runs; `parse_status` splits the output at the separators.  Only
the separator tells where a param ends, so the values are right as long as no param holds it
(`status_decodes`).
-/
import HomeConnect.Base.Utf8
import HomeConnect.Params.Update

namespace HomeConnect.Params

open HomeConnect.Theory
open HomeConnect.Utf8 (from_utf8_lossy ascii)

set_option autoImplicit false

/-- Delimiter between param dumps. -/
def SEP : Text := "__HCupdsep__"

/-- Params read for the status view. -/
def STATUS_KEYS : List Text :=
  ["IsOffroad", "IsOnroad", "DisableUpdates", "UpdaterState", "UpdaterFetchAvailable", "UpdateAvailable",
    "UpdaterCurrentDescription", "UpdaterNewDescription", "UpdaterTargetBranch", "UpdaterAvailableBranches",
    "UpdateFailedCount", "LastUpdateException", "LastUpdateTime", "GitBranch", "GitCommitDate"]

/-! ## The dump -/

/-- The bytes of a device's params; a param that is unset has none. -/
abbrev ParamFiles := Text → List UInt8

/-- `cat /data/params/d/{key} 2>/dev/null | head -c 4000` -/
def snippet (files : ParamFiles) (key : Text) : List UInt8 := (files key).take 4000

/-- What `printf '\n{SEP}\n'` prints. -/
def separator : Text := '\n' :: SEP ++ ['\n']

def param_dump (files : ParamFiles) (key : Text) : List UInt8 := snippet files key ++ ascii separator

/-- `pgrep -f '{UPDATED_PROC}' >/dev/null && echo running || echo stopped` -/
def daemon_state (running : Bool) : Text := if running then "running\n" else "stopped\n"

/-- The output of the command that `status` runs. -/
def status_output (files : ParamFiles) (running : Bool) : List UInt8 :=
  STATUS_KEYS.flatMap (param_dump files) ++ ascii (daemon_state running)

/-! ## parse_status -/

/-- Give the keys their parts; also says which parts are left. -/
def assign : List Text → List Text → List (Text × Text) × List Text
  | [], parts => ([], parts)
  | key :: keys, parts =>
      let (vals, rest) := assign keys parts.tail
      ((key, parts.headD []) :: vals, rest)

/-- The value of a key, of which there is one. -/
def get (vals : List (Text × Text)) (key : Text) : Text :=
  ((vals.find? fun v => decide (v.1 = key)).map Prod.snd).getD []

structure Status where
  offroad : Bool
  updates_disabled : Bool
  updater_running : Bool
  state : Text
  fetch_available : Bool
  update_ready : Bool
  current : Text
  new : Text
  branch : Text
  target_branch : Text
  branches : List Text
  commit_date : Text
  failed_count : Int
  last_error : Text
  last_checked : Text
deriving DecidableEq, Repr

/-- The values, and what comes after them. -/
def parse_values (out : Text) : List (Text × Text) × List Text :=
  assign STATUS_KEYS ((Text.split_str separator out).map Text.trim)

/-- Parse the delimited param dump produced by `status`. -/
def parse_status (out : Text) : Status :=
  let (vals, rest) := parse_values out
  let running := Text.contains (rest.headD []) "running"
  let flag (key : Text) : Bool := decide (get vals key = "1")
  { offroad := flag "IsOffroad"
    updates_disabled := flag "DisableUpdates"
    updater_running := running
    state := get vals "UpdaterState"
    fetch_available := flag "UpdaterFetchAvailable"
    update_ready := flag "UpdateAvailable"
    current := get vals "UpdaterCurrentDescription"
    new := get vals "UpdaterNewDescription"
    branch := get vals "GitBranch"
    target_branch := get vals "UpdaterTargetBranch"
    branches := (Text.split ',' (get vals "UpdaterAvailableBranches")).filter fun b => decide (b ≠ [])
    commit_date := get vals "GitCommitDate"
    failed_count := (Text.parse_i64 (get vals "UpdateFailedCount")).getD 0
    last_error := get vals "LastUpdateException"
    last_checked := get vals "LastUpdateTime" }

/-- `status`, when the command can be run. -/
def status (files : ParamFiles) (running : Bool) : Status :=
  parse_status (from_utf8_lossy (status_output files running))

/-! ## Separators -/

/-- What is read of a param. -/
def seen_of (files : ParamFiles) (key : Text) : Text := from_utf8_lossy (snippet files key)

/-- No separator token in it. -/
def Clean (t : Text) : Prop := ¬ SEP <:+: t

instance (t : Text) : Decidable (Clean t) := inferInstanceAs (Decidable (¬ SEP <:+: t))

theorem ascii_plain : (∀ c ∈ separator, c.toNat < 128) ∧ ∀ running, ∀ c ∈ daemon_state running, c.toNat < 128 := by
  decide

/-- A separator does not begin in a text without the token, even with another after it. -/
theorem first_separator {t : Text} (clean : Clean t) :
    ∀ u, u ≠ [] → u <:+ t → ¬ separator <+: u ++ separator := by
  intro u some_text within begins
  obtain ⟨c, u, rfl⟩ := List.exists_cons_of_ne_nil some_text
  obtain ⟨rest, same⟩ := begins
  have no_feed : '\n' ∉ SEP := by decide
  have tails : SEP ++ '\n' :: rest = u ++ '\n' :: (SEP ++ ['\n']) := by
    have whole : '\n' :: (SEP ++ '\n' :: rest) = c :: (u ++ '\n' :: (SEP ++ ['\n'])) := by
      simpa [separator, List.append_assoc] using same
    exact (List.cons.inj whole).2
  -- the token ends at the first line feed
  have split := congrArg (Text.split_once '\n') tails
  rw [Text.split_once_append no_feed] at split
  have token : SEP <+: u := by
    by_cases feed : '\n' ∈ u
    · obtain ⟨⟨pre, post⟩, found⟩ := Text.split_once_of_mem feed
      obtain ⟨is, no_feed'⟩ := Text.split_once_eq_some found
      rw [is, List.append_assoc, List.cons_append, Text.split_once_append no_feed', Option.some_inj, Prod.mk.injEq]
        at split
      rw [is, split.1]
      exact List.prefix_append _ _
    · rw [Text.split_once_append feed, Option.some_inj, Prod.mk.injEq] at split
      rw [split.1]
  apply clean
  exact token.isInfix.trans ((List.suffix_cons c u).trans within).isInfix

/-- A text without the token is the first part. -/
theorem split_clean {t : Text} (clean : Clean t) (rest : Text) :
    Text.split_str separator (t ++ separator ++ rest) = t :: Text.split_str separator rest :=
  Text.split_str_append (by decide) (first_separator clean) rest

/-- The output, read as text. -/
theorem read_dumps (files : ParamFiles) (keys : List Text) (rest : List UInt8) :
    from_utf8_lossy (keys.flatMap (param_dump files) ++ rest) =
      keys.flatMap (fun key => seen_of files key ++ separator) ++ from_utf8_lossy rest := by
  induction keys with
  | nil => rfl
  | cons key keys ih =>
      rw [List.flatMap_cons, List.flatMap_cons, List.append_assoc, List.append_assoc, ← ih, param_dump,
        Utf8.decode_between _ (by decide) ascii_plain.1]
      rfl

theorem read_output (files : ParamFiles) (running : Bool) :
    from_utf8_lossy (status_output files running) =
      STATUS_KEYS.flatMap (fun key => seen_of files key ++ separator) ++ daemon_state running := by
  have last := Utf8.decode_ascii (ascii_plain.2 running) []
  rw [List.append_nil] at last
  unfold status_output
  rw [read_dumps]
  show _ ++ from_utf8_lossy (ascii (daemon_state running)) = _
  unfold from_utf8_lossy
  rw [last]
  exact congrArg _ (List.append_nil _)

/-- The parts of the output are the params in order. -/
theorem split_dumps (files : ParamFiles) {keys : List Text} (clean : ∀ key ∈ keys, Clean (seen_of files key))
    (rest : Text) :
    Text.split_str separator (keys.flatMap (fun key => seen_of files key ++ separator) ++ rest) =
      keys.map (seen_of files) ++ Text.split_str separator rest := by
  induction keys with
  | nil => rfl
  | cons key keys ih =>
      rw [List.forall_mem_cons] at clean
      rw [List.flatMap_cons, List.append_assoc, split_clean clean.1, ih clean.2]
      rfl

/-! ## Values -/

theorem assign_map (keys : List Text) (value : Text → Text) (rest : List Text) :
    assign keys (keys.map value ++ rest) = (keys.map fun key => (key, value key), rest) := by
  induction keys with
  | nil => rfl
  | cons key keys ih =>
      rw [List.map_cons, List.cons_append, assign, List.tail_cons, ih]
      rfl

theorem get_map {keys : List Text} {key : Text} (listed : key ∈ keys) (value : Text → Text) :
    get (keys.map fun key => (key, value key)) key = value key := by
  induction keys with
  | nil => cases listed
  | cons k keys ih =>
      by_cases same : k = key
      · unfold get
        rw [List.map_cons, List.find?_cons_of_pos (by simpa using same), same]
        rfl
      · have later := ih ((List.mem_cons.1 listed).resolve_left (Ne.symm same))
        unfold get at later ⊢
        rw [List.map_cons, List.find?_cons_of_neg (by simpa using same)]
        exact later

theorem parse_values_output (files : ParamFiles) (running : Bool)
    (clean : ∀ key ∈ STATUS_KEYS, Clean (seen_of files key)) :
    parse_values (from_utf8_lossy (status_output files running)) =
      (STATUS_KEYS.map fun key => (key, Text.trim (seen_of files key)), [Text.trim (daemon_state running)]) := by
  have last : Text.split_str separator (daemon_state running) = [daemon_state running] := by
    revert running
    decide
  unfold parse_values
  rw [read_output, split_dumps files clean, last, List.map_append, List.map_map]
  exact assign_map STATUS_KEYS (fun key => Text.trim (seen_of files key)) _

/-- **The status decodes.**  Every value is that of its own param, trimmed, and every field of
the status is made of its own param alone. -/
theorem status_decodes (files : ParamFiles) (running : Bool)
    (clean : ∀ key ∈ STATUS_KEYS, Clean (seen_of files key)) :
    (∀ key ∈ STATUS_KEYS, get (parse_values (from_utf8_lossy (status_output files running))).1 key =
      Text.trim (seen_of files key)) ∧
    status files running =
      { offroad := decide (Text.trim (seen_of files "IsOffroad") = "1")
        updates_disabled := decide (Text.trim (seen_of files "DisableUpdates") = "1")
        updater_running := running
        state := Text.trim (seen_of files "UpdaterState")
        fetch_available := decide (Text.trim (seen_of files "UpdaterFetchAvailable") = "1")
        update_ready := decide (Text.trim (seen_of files "UpdateAvailable") = "1")
        current := Text.trim (seen_of files "UpdaterCurrentDescription")
        new := Text.trim (seen_of files "UpdaterNewDescription")
        branch := Text.trim (seen_of files "GitBranch")
        target_branch := Text.trim (seen_of files "UpdaterTargetBranch")
        branches := (Text.split ',' (Text.trim (seen_of files "UpdaterAvailableBranches"))).filter
          fun b => decide (b ≠ [])
        commit_date := Text.trim (seen_of files "GitCommitDate")
        failed_count := (Text.parse_i64 (Text.trim (seen_of files "UpdateFailedCount"))).getD 0
        last_error := Text.trim (seen_of files "LastUpdateException")
        last_checked := Text.trim (seen_of files "LastUpdateTime") } := by
  have values := parse_values_output files running clean
  have each : ∀ key ∈ STATUS_KEYS, get (parse_values (from_utf8_lossy (status_output files running))).1 key =
      Text.trim (seen_of files key) := by
    intro key listed
    rw [values]
    exact get_map listed fun key => Text.trim (seen_of files key)
  have daemon : Text.contains (((parse_values (from_utf8_lossy (status_output files running))).2).headD [])
      "running" = running := by
    rw [values]
    show Text.contains (Text.trim (daemon_state running)) "running" = running
    cases running <;> decide
  refine ⟨each, ?_⟩
  rw [STATUS_KEYS] at each
  simp only [List.forall_mem_cons] at each
  obtain ⟨is_offroad, -, disabled, state, fetch, ready, current, new, target, branches, failed, error, time,
    branch, date, -⟩ := each
  simp only [status, parse_status, daemon, is_offroad, disabled, state, fetch, ready, current, new, target,
    branches, failed, error, time, branch, date]

/-! ## Pole -/

private def parked_files : ParamFiles := fun key =>
  if key = "IsOffroad" then ascii "1\n"
  else if key = "UpdaterState" then ascii "\n\nidle\n"
  else if key = "LastUpdateException" then ascii "a\n__HC\nb"
  else []

/-- Blank lines around a value, a value of two lines, and params that are unset. -/
theorem status_decodes_parked : status parked_files true =
    { offroad := true
      updates_disabled := false
      updater_running := true
      state := "idle"
      fetch_available := false
      update_ready := false
      current := []
      new := []
      branch := []
      target_branch := []
      branches := []
      commit_date := []
      failed_count := 0
      last_error := "a\n__HC\nb"
      last_checked := [] } := by
  rw [(status_decodes parked_files true (by decide)).2]
  decide

end HomeConnect.Params
