/-
# Ssh.Commands -- the shell commands run on a device

Five functions put paths, param keys and values into a command for `device_ssh::run`.  A
`Call` is one call of such a function, `Call.command` what it runs once its checks have let
it, and `Call.intended` the words and operators the command is meant to be.

Each relies on a check of its own: `safe_component` on a route's timestamp and a file's name,
the param allowlist, the characters of a branch, an integer's type.  Only `maybe_prune` puts a
text in that it hasn't checked, the timestamp off the device's listing; its command is what
it should be if and only if there is no quote in that (`as_intended_iff`).
-/
import HomeConnect.Manage.Delete
import HomeConnect.Params.Offroad
import HomeConnect.Theory.Shell

namespace HomeConnect.Ssh

open HomeConnect.Theory HomeConnect.Theory.Shell HomeConnect.Params HomeConnect.Sync
open HomeConnect.Storage HomeConnect.Drives

set_option autoImplicit false

/-! ## The commands -/

/-- `[ -e '{p}' ] && rm -f '{p}' && echo '{p}'`. -/
def removal (p : Text) : Text :=
  ("[ -e " : Text) ++ quote p ++ " ] && rm -f " ++ quote p ++ " && echo " ++ quote p

/-- The paths `delete_on_device` removes. -/
def delete_paths (ts : Text) (files : List (Int × Text)) : List Text :=
  (files.filter fun f => safe_component f.2).map fun f => remote_path ts f.1 f.2

def delete_script (paths : List Text) : Text := Text.join "; " (paths.map removal) ++ "; true"

def prune_command (path : Text) : Text := ("rm -f " : Text) ++ quote path

/-- The atomic write of a param. -/
def put_command (key value : Text) : Text :=
  ("T=$(mktemp /data/params/.tmp_value_XXXXXX) && printf '%s' " : Text) ++ quote value ++
    " > \"$T\" && flock /data/params/.lock mv \"$T\" " ++ ("/data/params/d/" ++ key) ++
    " && chmod 600 " ++ ("/data/params/d/" ++ key)

/-! ## The functions that run them -/

inductive Call
  | delete_on_device (device : Accounts.Device) (ts : Text) (files : List (Int × Text))
  /-- `enabled` and `held`: auto-prune is on, and the blob is stored. -/
  | maybe_prune (enabled held : Bool) (ts : Text) (seg : Int) (file : Text)
  /-- `device_params::write` -/
  | write (key value : Text)
  /-- `device_update::write_param`, whose keys are literals. -/
  | write_param (key : {key : Text // key ∈ SOFTWARE_PARAMS}) (value : Text)
  /-- `model_select::select` -/
  | select (index : Int)

namespace Call

/-- The command a call runs; none where a check refuses it, or there is nothing to do. -/
def command : Call → Option Text
  | .delete_on_device device ts files =>
      if device.last_addr = [] then none
      else if !safe_component ts then none
      else if delete_paths ts files = [] then none
      else some (delete_script (delete_paths ts files))
  | .maybe_prune enabled held ts seg file =>
      if !enabled || !held || !safe_component file then none
      else some (prune_command (remote_path ts seg file))
  | .write key value => if is_writable key value then some (put_command key value) else none
  | .write_param key value =>
      if value.all fun c => c.isAlphanum || decide (c ∈ ['-', '_', '.', '/']) then
        some (put_command key.1 value)
      else none
  | .select index =>
      if index < 0 then none
      else some (put_command "ModelManager_DownloadIndex" (Text.decimal index))

end Call

/-! ## What they are meant to be -/

def word (text : Text) : Piece := .literal text

def op (text : Text) : Piece := .operator text

def removal_pieces (p : Text) : List Piece :=
  [word "[", word "-e", word p, word "]", op "&&", word "rm", word "-f", word p, op "&&",
    word "echo", word p]

def delete_pieces (paths : List Text) : List Piece :=
  paths.flatMap (fun p => removal_pieces p ++ [op ";"]) ++ [word "true"]

def prune_pieces (path : Text) : List Piece := [word "rm", word "-f", word path]

/-- `T=$(mktemp …)`: the assignment is the one word of its command. -/
def temp_file : Piece :=
  .expanded (("T=" : Text).map .bare ++
    [.expansion false ("$(mktemp /data/params/.tmp_value_XXXXXX)" : Text)])

def its_name : Piece := .expanded [.expansion true ("$T" : Text)]

def put_pieces (key value : Text) : List Piece :=
  [temp_file, op "&&", word "printf", word "%s", word value, op ">", its_name, op "&&",
    word "flock", word "/data/params/.lock", word "mv", its_name,
    word ("/data/params/d/" ++ key), op "&&", word "chmod", word "600",
    word ("/data/params/d/" ++ key)]

namespace Call

def intended : Call → List Piece
  | .delete_on_device _ ts files => delete_pieces (delete_paths ts files)
  | .maybe_prune _ _ ts seg file => prune_pieces (remote_path ts seg file)
  | .write key value => put_pieces key value
  | .write_param key value => put_pieces key.1 value
  | .select index => put_pieces "ModelManager_DownloadIndex" (Text.decimal index)

end Call

/-! ## The commands are read as intended -/

def bare (text : Text) : Token := .word (text.map .bare)

def quoted (text : Text) : Token := .word (text.map .quoted)

/-- A command that only puts its path between single quotes. -/
theorem read_prune_iff (path : Text) :
    Shell.read (prune_command path) = some (prune_pieces path) ↔ '\'' ∉ path := by
  have start : Clean ("rm -f " : Text) [bare "rm", bare "-f"] := by decide +kernel
  have words : [bare "rm", bare "-f"].map Token.read = [word "rm", word "-f"] := by decide +kernel
  have whole := read_quoted_iff start path
  rw [words] at whole
  exact whole

def removal_tokens (p : Text) : List Token :=
  [bare "[", bare "-e"] ++ ([quoted p, bare "]", .operator ("&&" : Text), bare "rm", bare "-f"] ++
    ([quoted p, .operator ("&&" : Text), bare "echo"] ++ [quoted p, .operator (";" : Text)]))

theorem clean_removal {p : Text} (free : '\'' ∉ p) :
    Clean (removal p ++ ("; " : Text)) (removal_tokens p) := by
  have parts : removal p ++ ("; " : Text) = ("[ -e " : Text) ++
      ((quote p ++ (" ] && rm -f " : Text)) ++
        ((quote p ++ (" && echo " : Text)) ++ (quote p ++ ("; " : Text)))) := by
    unfold removal
    simp only [List.append_assoc]
  have exists_ : Clean ("[ -e " : Text) [bare "[", bare "-e"] := by decide +kernel
  have remove : Clean (quote p ++ (" ] && rm -f " : Text))
      [quoted p, bare "]", .operator ("&&" : Text), bare "rm", bare "-f"] :=
    .quoted free (by decide +kernel) (by decide +kernel)
  have echo : Clean (quote p ++ (" && echo " : Text))
      [quoted p, .operator ("&&" : Text), bare "echo"] :=
    .quoted free (by decide +kernel) (by decide +kernel)
  have next : Clean (quote p ++ ("; " : Text)) [quoted p, .operator (";" : Text)] :=
    .quoted free (by decide +kernel) (by decide +kernel)
  rw [parts]
  exact exists_.append (remove.append (echo.append next))

theorem read_removal (p : Text) :
    (removal_tokens p).map Token.read = removal_pieces p ++ [op ";"] := by
  have itself : Token.read (quoted p) = word p := read_quoted p
  simp only [removal_tokens, List.map_append, List.map_cons, itself]
  rfl

theorem join_true (f : Text → Text) (p : Text) (paths : List Text) :
    Text.join "; " ((p :: paths).map f) ++ ("; true" : Text) =
      ((p :: paths).flatMap fun p => f p ++ ("; " : Text)) ++ ("true" : Text) := by
  have last : ("; true" : Text) = ("; " : Text) ++ ("true" : Text) := by decide +kernel
  induction paths generalizing p with
  | nil =>
      rw [last]
      show f p ++ _ = f p ++ _ ++ [] ++ _
      rw [List.append_nil, List.append_assoc]
  | cons q paths ih =>
      have joined : Text.join "; " ((p :: q :: paths).map f) =
          f p ++ ("; " : Text) ++ Text.join "; " ((q :: paths).map f) := rfl
      rw [joined, List.append_assoc, ih q]
      simp only [List.flatMap_cons, List.append_assoc]

theorem read_delete {paths : List Text} (some_path : paths ≠ [])
    (free : ∀ p ∈ paths, '\'' ∉ p) :
    Shell.read (delete_script paths) = some (delete_pieces paths) := by
  have removals : Clean (paths.flatMap fun p => removal p ++ ("; " : Text))
      (paths.flatMap removal_tokens) :=
    .flatMap fun p member => clean_removal (free p member)
  have last : tokens ("true" : Text) = some [bare "true"] := by decide +kernel
  have script : delete_script paths =
      (paths.flatMap fun p => removal p ++ ("; " : Text)) ++ ("true" : Text) := by
    cases paths with
    | nil => exact absurd rfl some_path
    | cons p paths => exact join_true removal p paths
  have end_word : [bare "true"].map Token.read = [word "true"] := by decide +kernel
  rw [script, Shell.read, tokens_append removals, last, delete_pieces]
  simp only [Option.map_some, List.map_append, List.map_flatMap, read_removal, end_word]

def put_start : List Token :=
  [.word (("T=" : Text).map .bare ++
      [.expansion false ("$(mktemp /data/params/.tmp_value_XXXXXX)" : Text)]),
    .operator ("&&" : Text), bare "printf", quoted "%s"]

def put_middle : List Token :=
  [.operator (">" : Text), .word [.expansion true ("$T" : Text)], .operator ("&&" : Text),
    bare "flock", bare "/data/params/.lock", bare "mv", .word [.expansion true ("$T" : Text)]]

def put_end : List Token := [.operator ("&&" : Text), bare "chmod", bare "600"]

/-- Quoting the value is enough, and the key needs none. -/
theorem read_put {key value : Text} (plain : ∀ c ∈ key, ordinary c) (free : '\'' ∉ value) :
    Shell.read (put_command key value) = some (put_pieces key value) := by
  let path : Text := ("/data/params/d/" : Text) ++ key
  have some_path : path ≠ [] := by simp [path]
  have path_plain : ∀ c ∈ path, ordinary c := by
    intro c member
    rcases List.mem_append.1 member with fixed | of_key
    · have each : ∀ c ∈ ("/data/params/d/" : Text), ordinary c := by decide +kernel
      exact each c fixed
    · exact plain c of_key
  have start : Clean
      ("T=$(mktemp /data/params/.tmp_value_XXXXXX) && printf '%s' " : Text) put_start := by
    decide +kernel
  have middle : Clean
      (quote value ++ (" > \"$T\" && flock /data/params/.lock mv \"$T\" " : Text))
      (quoted value :: put_middle) :=
    .quoted free (by decide +kernel) (by decide +kernel)
  have moved : Clean (path ++ (" && chmod 600 " : Text))
      (bare path :: put_end) :=
    .bare some_path path_plain (by decide +kernel) (by decide +kernel)
  have parts : put_command key value =
      (("T=$(mktemp /data/params/.tmp_value_XXXXXX) && printf '%s' " : Text) ++
        ((quote value ++ (" > \"$T\" && flock /data/params/.lock mv \"$T\" " : Text)) ++
          (path ++ (" && chmod 600 " : Text)))) ++ path := by
    unfold put_command
    simp only [List.append_assoc]
    rfl
  rw [parts, Shell.read, tokens_append (start.append (middle.append moved)),
    tokens_bare some_path path_plain]
  have first : put_start.map Token.read = [temp_file, op "&&", word "printf", word "%s"] := by
    decide +kernel
  have second : put_middle.map Token.read = [op ">", its_name, op "&&", word "flock",
      word "/data/params/.lock", word "mv", its_name] := by
    decide +kernel
  have third : put_end.map Token.read = [op "&&", word "chmod", word "600"] := by
    decide +kernel
  have path_word : Token.read (bare path) = word path := read_bare path_plain
  have value_word : Token.read (quoted value) = word value := read_quoted value
  show some (List.map Token.read ((put_start ++ (quoted value :: put_middle ++
    bare path :: put_end)) ++ [bare path])) = _
  simp only [List.map_append, List.map_cons, List.map_nil, first, second, third, path_word,
    value_word]
  rfl

/-! ## What the checks rule out -/

theorem free_of_digits {s : Text} (digits : s.all Char.isDigit) : '\'' ∉ s := by
  intro member
  exact absurd (List.all_eq_true.1 digits _ member) (by decide)

theorem free_of_toDigits (n : Nat) : '\'' ∉ Nat.toDigits 10 n := by
  intro member
  have digit := Nat.isDigit_of_mem_toDigits (by omega) (by omega) member
  exact absurd digit (by decide)

theorem free_of_decimal (n : Int) : '\'' ∉ Text.decimal n := by
  cases n with
  | ofNat n => exact free_of_toDigits n
  | negSucc n =>
      intro member
      rcases List.mem_cons.1 member with same | digit
      · exact absurd same (by decide)
      · exact free_of_toDigits (n + 1) digit

theorem free_of_parse_digits {s : Text} {n : Nat} (parsed : Text.parse_digits s = some n) :
    '\'' ∉ s := by
  unfold Text.parse_digits at parsed
  split at parsed
  · rename_i digits
    exact free_of_digits digits.2
  · cases parsed

theorem free_of_parse_i64 {s : Text} {n : Int} (parsed : Text.parse_i64 s = some n) :
    '\'' ∉ s := by
  have behind {c : Char} {ds : Text} (other : '\'' ≠ c) (free : '\'' ∉ ds) : '\'' ∉ c :: ds := by
    intro member
    rcases List.mem_cons.1 member with same | later
    · exact other same
    · exact free later
  unfold Text.parse_i64 at parsed
  split at parsed
  · obtain ⟨n, digits, -⟩ := Option.bind_eq_some_iff.1 parsed
    exact behind (by decide) (free_of_parse_digits digits)
  · obtain ⟨n, digits, -⟩ := Option.bind_eq_some_iff.1 parsed
    exact behind (by decide) (free_of_parse_digits digits)
  · obtain ⟨n, digits, -⟩ := Option.bind_eq_some_iff.1 parsed
    exact free_of_parse_digits digits

theorem free_of_safe {s : Text} (safe : safe_component s) : '\'' ∉ s := by
  intro member
  simp only [safe_component, Bool.and_eq_true] at safe
  exact absurd (List.all_eq_true.1 safe.2 _ member) (by decide)

theorem quote_mem_remote_path (ts : Text) (seg : Int) {file : Text} (safe : safe_component file) :
    '\'' ∈ remote_path ts seg file ↔ '\'' ∈ ts := by
  have dir : '\'' ∉ REALDATA_DIR := by decide +kernel
  have slash : '\'' ∉ ("/" : Text) := by decide +kernel
  have dashes : '\'' ∉ ("--" : Text) := by decide +kernel
  have number := free_of_decimal seg
  have name := free_of_safe safe
  unfold remote_path
  simp only [List.mem_append, dir, slash, dashes, number, name, false_or, or_false]

/-- Every key of the allowlist is plain, and so is every choice. -/
theorem specs_plain : ∀ s ∈ SPECS,
    (∀ c ∈ s.key, ordinary c) ∧ ∀ v ∈ s.options, '\'' ∉ v := by
  decide +kernel

theorem plain_of_writable {key value : Text} (writable : is_writable key value) :
    (∀ c ∈ key, ordinary c) ∧ '\'' ∉ value := by
  unfold is_writable at writable
  split at writable
  · rename_i s found
    have listed : s ∈ SPECS := List.mem_of_find?_eq_some found
    have same : s.key = key := by simpa using List.find?_some found
    obtain ⟨plain, choices⟩ := specs_plain s listed
    refine ⟨same ▸ plain, ?_⟩
    split at writable
    · rcases (Bool.or_eq_true _ _).mp writable with zero | one
      · rw [of_decide_eq_true zero]
        decide
      · rw [of_decide_eq_true one]
        decide
    · split at writable
      · rename_i v parsed
        exact free_of_parse_i64 parsed
      · cases writable
    · obtain ⟨v, choice, is⟩ := List.any_eq_true.1 writable
      exact of_decide_eq_true is ▸ choices v choice
    · cases writable
  · cases writable

theorem software_plain : ∀ key ∈ SOFTWARE_PARAMS, ∀ c ∈ key, ordinary c := by decide +kernel

/-! ## When a command is as intended -/

/-- The call checks every text that it puts between quotes, or there is no quote in the one
it doesn't check. -/
def Call.checked : Call → Prop
  | .maybe_prune _ _ ts _ _ => '\'' ∉ ts
  | _ => True

/-- A command is read as the words it is meant to be, every path and value one of them as it
is, unless it is for auto-pruning a route whose timestamp has a quote in it. -/
theorem as_intended_iff (call : Call) {command : Text} (runs : call.command = some command) :
    Shell.read command = some call.intended ↔ call.checked := by
  cases call with
  | delete_on_device device ts files =>
      obtain ⟨-, runs⟩ := Option.ite_none_left_eq_some.1 runs
      obtain ⟨safe, runs⟩ := Option.ite_none_left_eq_some.1 runs
      obtain ⟨some_path, is⟩ := Option.ite_none_left_eq_some.1 runs
      cases is
      refine iff_of_true (read_delete some_path ?_) trivial
      intro path member
      obtain ⟨file, kept, is⟩ := List.mem_map.1 member
      have route : '\'' ∉ ts := free_of_safe (by simpa using safe)
      have name : safe_component file.2 := (List.mem_filter.1 kept).2
      rw [← is, quote_mem_remote_path ts file.1 name]
      exact route
  | maybe_prune enabled held ts seg file =>
      obtain ⟨allowed, is⟩ := Option.ite_none_left_eq_some.1 runs
      cases is
      have name : safe_component file := by
        cases safe : safe_component file with
        | false => simp [safe] at allowed
        | true => rfl
      show Shell.read (prune_command _) = some (prune_pieces _) ↔ '\'' ∉ ts
      rw [read_prune_iff, quote_mem_remote_path ts seg name]
  | write key value =>
      obtain ⟨writable, is⟩ := Option.ite_none_right_eq_some.1 runs
      cases is
      obtain ⟨plain, free⟩ := plain_of_writable writable
      exact iff_of_true (read_put plain free) trivial
  | write_param key value =>
      obtain ⟨valid, is⟩ := Option.ite_none_right_eq_some.1 runs
      cases is
      refine iff_of_true (read_put (software_plain key.1 key.2) ?_) trivial
      intro member
      exact absurd (List.all_eq_true.1 valid _ member) (by decide)
  | select index =>
      obtain ⟨-, is⟩ := Option.ite_none_left_eq_some.1 runs
      cases is
      have plain : ∀ c ∈ ("ModelManager_DownloadIndex" : Text), ordinary c := by decide +kernel
      exact iff_of_true (read_put plain (free_of_decimal index)) trivial

/-- A model's index is one word, between its quotes. -/
theorem as_intended_select :
    (Call.select 7).command = some (put_command "ModelManager_DownloadIndex" "7") ∧
      Shell.read (put_command "ModelManager_DownloadIndex" "7") = some (Call.select 7).intended :=
  ⟨by decide +kernel, (as_intended_iff (.select 7) (by decide +kernel)).2 trivial⟩

/-- A directory of a device's listing whose name ends a quote and begins another. -/
private def hostile_line : Text := "/data/media/0/realdata/x'; reboot; '--0/qcamera.ts"

private def hostile_ts : Text := "x'; reboot; '"

/-- Pruning its camera file reboots the device. -/
theorem prune_runs_listed_command :
    Sync.parse_remote_path hostile_line = some (hostile_ts, (0 : Int), ("qcamera.ts" : Text)) ∧
      ∃ command, (Call.maybe_prune true true hostile_ts 0 "qcamera.ts").command = some command ∧
        Shell.read command = some [word "rm", word "-f", word "/data/media/0/realdata/x", op ";",
          word "reboot", op ";", word "--0/qcamera.ts"] ∧
        Shell.read command ≠ some (Call.maybe_prune true true hostile_ts 0 "qcamera.ts").intended :=
  ⟨by decide +kernel, prune_command (remote_path hostile_ts 0 "qcamera.ts"), by decide +kernel,
    by decide +kernel, by decide +kernel⟩

/-! ## The models' operations are these commands -/

/-- The paths a command removes: the words that `rm -f` comes before. -/
def removed : List Piece → List Text
  | .literal a :: .literal b :: .literal p :: rest =>
      if a = ("rm" : Text) ∧ b = ("-f" : Text) then p :: removed rest
      else removed (.literal b :: .literal p :: rest)
  | _ :: rest => removed rest
  | [] => []

theorem removed_removal (p : Text) (rest : List Piece) :
    removed (removal_pieces p ++ op ";" :: rest) = p :: removed rest := by
  rfl

theorem removed_delete (paths : List Text) : removed (delete_pieces paths) = paths := by
  induction paths with
  | nil => rfl
  | cons p paths ih =>
      have parts : delete_pieces (p :: paths) = removal_pieces p ++ op ";" :: delete_pieces paths := by
        simp [delete_pieces]
      rw [parts, removed_removal, ih]

/-- Processing a queue item removes what its prune command is meant to. -/
theorem writes_removed_of_prune (env : Env) (it : QueueItem) :
    Writes (fun w => ∃ path ∈ removed (Call.maybe_prune true true it.ts it.seg it.file).intended,
      w = .rm it.dongle path) (maybe_prune env it) := by
  refine .bind (writes_toggle _ _) fun enabled => .ite ?_ (.pure _)
  refine .bind (.blob_exists env _) fun found => .ite (.ite (.attempt ?_) (.pure _)) (.pure _)
  exact ⟨_, List.mem_singleton.2 rfl, rfl⟩

/-- And so does deleting a drive's files. -/
theorem writes_removed_of_delete (device : Accounts.Device) (ts : Text) (files : List (Int × Text)) :
    Writes (fun w => ∃ path ∈ removed (Call.delete_on_device device ts files).intended,
      w = .rm device.dongle_id path) (Manage.delete_on_device device ts files) := by
  show Writes (fun w => ∃ path ∈ removed (delete_pieces (delete_paths ts files)), _) _
  rw [removed_delete]
  refine .bind (.err_if _ _) fun _ => .bind (.err_if _ _) fun _ => .bind ?_ fun _ => .pure _
  apply Manage.writes_total
  intro path member
  refine .bind (.select _) fun _ => .ite (.bind (.execute ?_) fun _ => .pure _) (.pure _)
  exact ⟨path, member, rfl⟩

end HomeConnect.Ssh
