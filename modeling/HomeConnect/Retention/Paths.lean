/-
# Retention.Paths -- where cached files and blobs lie

A blob's name is sanitised before it becomes a path.  The names of cached transcodes and
audio extracts are not: they are joined to the transcode directory as they are, with the
dongle and the timestamp that a request, an upload or a route's name holds.  A slash in
either names other directories.

So every blob lies two shards below its directory, and a cached file lies in the transcode
directory if and only if what is before the last slash of `{dongle}_{ts}` names no other
(`contained_iff`); for a dongle without a slash that is a timestamp without one
(`own_directory_iff_no_slash`).
-/
import HomeConnect.Base.Paths
import HomeConnect.Drives.Poles
import HomeConnect.Media.Footprint
import HomeConnect.Retention.DeleteRoute

namespace HomeConnect.Retention

open HomeConnect.Theory HomeConnect.Storage HomeConnect.Drives HomeConnect.Media

set_option autoImplicit false

/-! ## The directories -/

structure Config where
  data_dir : Text
  /-- The first two bytes of a text's sha256. -/
  digest : Text → UInt8 × UInt8

namespace Config

variable (config : Config)

def transcode_dir : Text := Path.join config.data_dir "transcode"

def blobs_dir : Text := Path.join config.data_dir "blobs"

/-- Two hex digits of a byte. -/
def hex (b : UInt8) : Text := [Nat.digitChar (b.toNat / 16), Nat.digitChar (b.toNat % 16)]

def shard (key : Text) : Text × Text := (hex (config.digest key).1, hex (config.digest key).2)

/-- `BlobStore::path_for`. -/
def blob_path (key : Text) : Text :=
  let path := path_for config.shard key
  Path.join (Path.join (Path.join config.blobs_dir path.shard.1) path.shard.2) path.name

/-- A file of the transcode directory. -/
def cached (name : TsName) : Text := Path.join config.transcode_dir name.file

/-- `out.with_extension("tmp.ts")`. -/
def temp (name : TsName) : Text := Path.with_extension (config.cached name) "tmp.ts"

end Config

/-! ## The calls -/

/-- What the blob store is asked for. -/
inductive BlobKey
  | named (name : BlobName)
  /-- `upload_boot` -/
  | boot (dongle file : Text)
  /-- `upload_crash` -/
  | crash (dongle log_id commit name : Text)
deriving DecidableEq, Repr

def BlobKey.text : BlobKey → Text
  | .named name => name.key
  | .boot dongle file => dongle ++ "_boot_" ++ file
  | .crash dongle log_id commit name =>
      dongle ++ "_crash_" ++ log_id ++ "_" ++ commit ++ "_" ++ name

inductive Call
  | ensure_transcode (dongle ts : Text) (seg : Int) (cam : Text)
  | ensure_audio (dongle ts : Text) (seg : Int)
  /-- With the numbers of the route's segments. -/
  | delete_route (name : Text) (segs : List Int)
  /-- An operation of the blob store. -/
  | blob (key : BlobKey)
deriving DecidableEq, Repr

namespace Call

/-- The cached files a call may make or remove. -/
def names : Call → List TsName
  | .ensure_transcode dongle ts seg cam =>
      match camera_source cam with
      | none => []
      | some _ => [cache_path dongle ts seg cam]
  | .ensure_audio dongle ts seg => [audio_path dongle ts seg]
  | .delete_route name segs =>
      match Text.split_once '|' name with
      | none => []
      | some (dongle, ts) => segs.flatMap fun seg => TRANSCODED.map fun cam => ⟨dongle, ts, seg, cam⟩
  | .blob _ => []

/-- The paths that are created, renamed or removed: a route's deletion knows of no temporary
files. -/
def paths (config : Config) (call : Call) : List Text :=
  match call with
  | .delete_route .. => call.names.map config.cached
  | _ => call.names.flatMap fun name => [config.cached name, config.temp name]

/-- Every cached file has the transcode directory itself as its parent, and a blob is one
normal component two shards below its own. -/
def Contained (config : Config) (call : Call) : Prop :=
  (∀ path ∈ call.paths config,
    Path.parent path = some (Path.components config.transcode_dir)) ∧
  ∀ key, call = .blob key →
    Path.components (config.blob_path key.text) = Path.components config.blobs_dir ++
      [.normal (config.shard key.text).1, .normal (config.shard key.text).2,
        .normal (sanitize key.text)]

end Call

/-! ## The condition -/

/-- What is before the last slash of `{dongle}_{ts}` names no directory: it is nothing, or
dots and slashes; or it is the transcode directory, in full. -/
def OwnDirectory (config : Config) (dongle ts : Text) : Prop :=
  let named := Path.dir_part (dongle ++ "_" ++ ts)
  if Path.is_absolute named then Path.components named = Path.components config.transcode_dir
  else ∀ part ∈ Text.split '/' named, part = [] ∨ part = ['.']

/-! ## Cached files -/

section Cached

variable (config : Config) {name : TsName}

/-- The part of a cached file's name that nobody has checked. -/
def unchecked (dongle ts : Text) : Text := dongle ++ "_" ++ ts

/-- The rest of it, without the extension. -/
def suffix (seg : Int) (stem : Text) : Text := "--" ++ Text.decimal seg ++ "--" ++ stem

theorem file_eq (name : TsName) :
    name.file = unchecked name.dongle name.ts ++ (suffix name.seg name.stem ++ ".ts") := by
  simp only [TsName.file, unchecked, suffix, List.append_assoc]

theorem slash_not_mem_toDigits (n : Nat) : '/' ∉ Nat.toDigits 10 n := by
  intro member
  have digit := Nat.isDigit_of_mem_toDigits (by omega) (by omega) member
  exact absurd digit (by decide)

theorem slash_not_mem_suffix (seg : Int) {stem : Text} (plain : '/' ∉ stem) :
    '/' ∉ suffix seg stem := by
  have number : '/' ∉ Text.decimal seg := by
    cases seg with
    | ofNat n => exact slash_not_mem_toDigits n
    | negSucc n =>
        intro member
        rcases List.mem_cons.1 member with same | digit
        · exact absurd same (by decide)
        · exact slash_not_mem_toDigits (n + 1) digit
  unfold suffix
  simp [number, plain]

theorem slash_not_mem_rest (seg : Int) {stem : Text} (plain : '/' ∉ stem) :
    '/' ∉ suffix seg stem ++ (".ts" : Text) := by
  intro member
  rcases List.mem_append.1 member with in_suffix | in_extension
  · exact slash_not_mem_suffix seg plain in_suffix
  · revert in_extension
    decide

theorem dash_mem_suffix (seg : Int) (stem : Text) : '-' ∈ suffix seg stem := by
  have dash : '-' ∈ ("--" : Text) := by decide
  exact List.mem_append_left _ (List.mem_append_left _ (List.mem_append_left _ dash))

/-- What a file of the directory is called: the last part, and the extension it is given. -/
theorem isFile_last (text : Text) (seg : Int) {stem ext : Text} (plain : '/' ∉ stem)
    (plain_ext : '/' ∉ ext) :
    Path.IsFile (Path.file_part text ++ (suffix seg stem ++ ext)) := by
  have suffix_plain := slash_not_mem_suffix seg plain
  have last_plain := Path.slash_not_mem_file_part text
  refine Path.isFile_of_mem (c := '-') ?_ ?_ (by decide)
  · simp [last_plain, suffix_plain, plain_ext]
  · exact List.mem_append_right _ (List.mem_append_left _ (dash_mem_suffix seg stem))

theorem ownDirectory_iff (dongle ts : Text) : OwnDirectory config dongle ts ↔
    (if Path.is_absolute (unchecked dongle ts) then Path.components (Path.dir_part (unchecked dongle ts))
      else Path.components config.transcode_dir ++ Path.names (Path.dir_part (unchecked dongle ts))) =
    Path.components config.transcode_dir := by
  unfold OwnDirectory
  show (if Path.is_absolute (Path.dir_part (unchecked dongle ts)) = true then _ else _) ↔ _
  rw [Path.is_absolute_dir_part]
  split
  · rfl
  · rw [← Path.names_eq_nil_iff, List.append_right_eq_self]
    rfl

theorem transcode_dir_ne_nil : config.transcode_dir ≠ [] := by
  obtain ⟨pre, joined⟩ := Path.exists_join_eq config.data_dir "transcode"
  rw [Config.transcode_dir, joined]
  exact List.append_ne_nil_of_right_ne_nil _ (by decide)

theorem is_absolute_file (name : TsName) :
    Path.is_absolute name.file = Path.is_absolute (unchecked name.dongle name.ts) := by
  have some_text : unchecked name.dongle name.ts ≠ [] := by
    rw [unchecked, List.append_assoc]
    exact List.append_ne_nil_of_right_ne_nil _ (List.cons_ne_nil _ _)
  unfold Path.is_absolute
  rw [file_eq, List.head?_append_of_ne_nil _ some_text]

/-- The directory a cached file is in. -/
theorem parent_cached (plain : '/' ∉ name.stem) :
    Path.parent (config.cached name) = some
      (if Path.is_absolute (unchecked name.dongle name.ts) then
        Path.components (Path.dir_part (unchecked name.dongle name.ts))
      else Path.components config.transcode_dir ++
        Path.names (Path.dir_part (unchecked name.dongle name.ts))) := by
  have rest := slash_not_mem_rest name.seg plain
  have dirs : Path.dir_part name.file = Path.dir_part (unchecked name.dongle name.ts) := by
    rw [file_eq, Path.dir_part_append rest]
  have file : Path.IsFile (Path.file_part name.file) := by
    rw [file_eq, Path.file_part_append rest]
    exact isFile_last _ name.seg plain (by decide)
  rw [Config.cached]
  split
  · rename_i absolute
    have joined : Path.join config.transcode_dir name.file = name.file := by
      rw [Path.join, is_absolute_file, if_pos absolute]
    have whole := Path.parent_file (Path.dir_part_cases name.file) file
    rw [Path.dir_part_append_file_part] at whole
    rw [joined, whole, dirs]
  · rename_i relative
    rw [Bool.not_eq_true, ← is_absolute_file] at relative
    rw [Path.parent_join (transcode_dir_ne_nil config) relative file, dirs]

/-- The temporary file is the one that ffmpeg is given. -/
theorem temp_eq (plain : '/' ∉ name.stem) : config.temp name = config.cached name.temp := by
  have some_text : unchecked name.dongle name.ts ≠ [] := by
    rw [unchecked, List.append_assoc]
    exact List.append_ne_nil_of_right_ne_nil _ (List.cons_ne_nil _ _)
  obtain ⟨pre, joined⟩ := Path.exists_join_append config.transcode_dir some_text
  let text := pre ++ unchecked name.dongle name.ts
  let stem := Path.file_part text ++ suffix name.seg name.stem
  have rest := slash_not_mem_rest name.seg plain
  have cached : config.cached name = text ++ (suffix name.seg name.stem ++ (".ts" : Text)) := by
    rw [Config.cached, file_eq, joined]
  have parts : Path.file_part (config.cached name) = stem ++ "." ++ ("ts" : Text) := by
    rw [cached, Path.file_part_append rest]
    simp only [stem, List.append_assoc]
    rfl
  have some_stem : stem ≠ [] :=
    List.append_ne_nil_of_right_ne_nil _ (List.ne_nil_of_mem (dash_mem_suffix _ _))
  calc config.temp name
      = Path.dir_part text ++ (stem ++ "." ++ ("tmp.ts" : Text)) := by
        rw [Config.temp, Path.with_extension, parts, Text.with_extension,
          Text.file_stem_append (by decide) some_stem, cached, Path.dir_part_append rest]
    _ = text ++ (suffix name.seg name.stem ++ (".tmp.ts" : Text)) := by
        simp only [stem, List.append_assoc]
        rw [← List.append_assoc, Path.dir_part_append_file_part]
        rfl
    _ = config.cached name.temp := by
        rw [Config.cached, file_eq]
        simp only [TsName.temp, suffix]
        rw [joined]
        simp only [text, List.append_assoc]
        rfl

/-- It is in the same directory. -/
theorem parent_temp (plain : '/' ∉ name.stem) :
    Path.parent (config.temp name) = Path.parent (config.cached name) := by
  have plain_temp : '/' ∉ name.temp.stem := by
    intro member
    rcases List.mem_append.1 member with in_stem | in_extension
    · exact plain in_stem
    · revert in_extension
      decide
  rw [temp_eq config plain, parent_cached config plain_temp, parent_cached config plain]
  rfl

end Cached

theorem cached_mem_paths (config : Config) {call : Call} {name : TsName} (member : name ∈ call.names) :
    config.cached name ∈ call.paths config := by
  unfold Call.paths
  split
  · exact List.mem_map.2 ⟨name, member, rfl⟩
  · exact List.mem_flatMap.2 ⟨name, member, List.mem_cons_self⟩

/-- A path of a call is one of its files', or a temporary one's. -/
theorem exists_of_mem_paths {config : Config} {call : Call} {path : Text}
    (member : path ∈ call.paths config) :
    ∃ name ∈ call.names, path = config.cached name ∨ path = config.temp name := by
  unfold Call.paths at member
  split at member
  · obtain ⟨name, listed, rfl⟩ := List.mem_map.1 member
    exact ⟨name, listed, .inl rfl⟩
  · obtain ⟨name, listed, either⟩ := List.mem_flatMap.1 member
    refine ⟨name, listed, ?_⟩
    rcases List.mem_cons.1 either with out | tmp
    · exact .inl out
    · exact .inr (List.mem_singleton.1 tmp)

theorem transcoded_of_source {cam src : Text} (found : camera_source cam = some src) :
    cam ∈ TRANSCODED := by
  unfold camera_source at found
  split at found
  · rename_i is
    rw [is]
    decide
  split at found
  · rename_i is
    rw [is]
    decide
  split at found
  · rename_i is
    rw [is]
    decide
  · cases found

theorem plain_stem {call : Call} {name : TsName} (member : name ∈ call.names) : '/' ∉ name.stem := by
  have cams : ∀ cam ∈ TRANSCODED, '/' ∉ cam := by decide
  cases call with
  | ensure_transcode dongle ts seg cam =>
      simp only [Call.names] at member
      split at member
      · cases member
      · rename_i src found
        rw [List.mem_singleton.1 member]
        exact cams cam (transcoded_of_source found)
  | ensure_audio dongle ts seg =>
      rw [List.mem_singleton.1 member]
      show '/' ∉ ("audio" : Text)
      decide
  | delete_route name segs =>
      simp only [Call.names] at member
      split at member
      · cases member
      · obtain ⟨seg, -, of_seg⟩ := List.mem_flatMap.1 member
        obtain ⟨cam, listed, rfl⟩ := List.mem_map.1 of_seg
        exact cams cam listed
  | blob key => cases member

/-! ## Blobs -/

theorem isFile_hex (b : UInt8) : Path.IsFile (Config.hex b) := by
  have digits : ∀ n < 16, Nat.digitChar n ≠ '/' ∧ Nat.digitChar n ≠ '.' := by decide
  have high := digits (b.toNat / 16) (by have := b.toNat_lt; omega)
  have low := digits (b.toNat % 16) (by omega)
  refine Path.isFile_of_mem ?_ List.mem_cons_self high.2
  intro member
  rcases List.mem_cons.1 member with first | second
  · exact high.1 first.symm
  · exact low.1 (List.mem_singleton.1 second).symm

theorem slash_not_mem_sanitize (key : Text) : '/' ∉ sanitize key := by
  intro member
  obtain ⟨c, -, is⟩ := List.mem_map.1 member
  split at is
  · exact absurd is (by decide)
  · rename_i plain
    exact plain (.inl is)

/-- Every key holds an underscore. -/
theorem underscore_mem_text (key : BlobKey) : '_' ∈ key.text := by
  cases key with
  | named name =>
      cases name with
      | segment dongle ts seg file => simp [BlobKey.text, BlobName.key, blob_key]
      | movie dongle ts cam => simp [BlobKey.text, BlobName.key, movie_key]
      | subs dongle ts => simp [BlobKey.text, BlobName.key, subs_key]
  | boot dongle file => simp [BlobKey.text]
  | crash dongle log_id commit name => simp [BlobKey.text]

theorem isFile_sanitize (key : BlobKey) : Path.IsFile (sanitize key.text) := by
  have kept : '_' ∈ sanitize key.text := List.mem_map.2 ⟨'_', underscore_mem_text key, rfl⟩
  exact Path.isFile_of_mem (slash_not_mem_sanitize key.text) kept (by decide)

theorem components_blob_path (config : Config) (key : BlobKey) :
    Path.components (config.blob_path key.text) = Path.components config.blobs_dir ++
      [.normal (config.shard key.text).1, .normal (config.shard key.text).2,
        .normal (sanitize key.text)] := by
  have first : Path.IsFile (config.shard key.text).1 := isFile_hex _
  have second : Path.IsFile (config.shard key.text).2 := isFile_hex _
  rw [Config.blob_path]
  simp only [path_for]
  rw [Path.components_join_file _ (isFile_sanitize key), Path.components_join_file _ second,
    Path.components_join_file _ first]
  simp only [List.append_assoc, List.cons_append, List.nil_append]

/-! ## When everything stays where it belongs -/

/-- Blobs lie where they should, and so do the cached files of a call exactly when their
names lead to no other directory. -/
theorem contained_iff (config : Config) (call : Call) :
    call.Contained config ↔ ∀ name ∈ call.names, OwnDirectory config name.dongle name.ts := by
  have own {name : TsName} (member : name ∈ call.names) :
      Path.parent (config.cached name) = some (Path.components config.transcode_dir) ↔
        OwnDirectory config name.dongle name.ts := by
    rw [parent_cached config (plain_stem member), ownDirectory_iff, Option.some_inj]
  constructor
  · intro contained name member
    exact (own member).1 (contained.1 _ (cached_mem_paths config member))
  · intro each
    refine ⟨fun path member => ?_, fun key _ => components_blob_path config key⟩
    obtain ⟨name, listed, rfl | rfl⟩ := exists_of_mem_paths member
    · exact (own listed).2 (each name listed)
    · rw [parent_temp config (plain_stem listed)]
      exact (own listed).2 (each name listed)

/-! ## Timestamps with a slash -/

/-- For a dongle without a slash it takes a timestamp without one. -/
theorem own_directory_iff_no_slash (config : Config) {dongle ts : Text} (plain : '/' ∉ dongle) :
    OwnDirectory config dongle ts ↔ '/' ∉ ts := by
  have start : '/' ∉ dongle ++ ("_" : Text) := by
    intro member
    rcases List.mem_append.1 member with in_dongle | mark
    · exact plain in_dongle
    · exact absurd (List.mem_singleton.1 mark) (by decide)
  have mark : '_' ∈ dongle ++ ("_" : Text) := List.mem_append_right _ List.mem_cons_self
  have relative : Path.is_absolute (Path.dir_part (unchecked dongle ts)) = false := by
    rw [Path.is_absolute_dir_part]
    refine decide_eq_false fun starts => ?_
    rw [unchecked, List.head?_append_of_ne_nil _ (List.ne_nil_of_mem mark)] at starts
    exact start (List.mem_of_mem_head? starts)
  have shape : OwnDirectory config dongle ts ↔
      ∀ part ∈ Text.split '/' (Path.dir_part (unchecked dongle ts)), part = [] ∨ part = ['.'] := by
    show (if Path.is_absolute (Path.dir_part (unchecked dongle ts)) = true then _ else _) ↔ _
    rw [if_neg (by simp [relative])]
    exact Iff.rfl
  rw [shape]
  constructor
  · intro dots slash
    obtain ⟨first, rest, parts, free⟩ := List.eq_append_cons_of_mem slash
    have named : Path.dir_part (unchecked dongle ts) =
        dongle ++ "_" ++ first ++ '/' :: Path.dir_part rest := by
      rw [unchecked, parts, ← List.append_assoc, Path.dir_part_append_slash]
    have clean : '/' ∉ dongle ++ "_" ++ first := by
      intro member
      exact (List.mem_append.1 member).elim start free
    have part := dots (dongle ++ "_" ++ first) (by
      rw [named, Text.split_append clean]
      exact List.mem_cons_self)
    have inside : '_' ∈ dongle ++ "_" ++ first := List.mem_append_left _ mark
    rcases part with empty | dot
    · rw [empty] at inside
      cases inside
    · rw [dot] at inside
      exact absurd (List.mem_singleton.1 inside) (by decide)
  · intro no_slash part member
    have whole : '/' ∉ unchecked dongle ts := by
      intro slash
      exact (List.mem_append.1 slash).elim start no_slash
    rw [Path.dir_part_of_plain whole] at member
    exact .inl (List.mem_singleton.1 member)

/-! ## The requests touch no other cached files -/

/-- The files of the transcode directory that a write makes, renames or removes. -/
def touched : Write → List TsName
  | .ts_write name _ | .ts_remove name => [name]
  | .ts_rename tmp out => [tmp, out]
  | _ => []

section Writes

variable (env : Env) (config : Config) (dongle ts : Text) (seg : Int)

/-- Caching an output touches its path and that of its temporary file. -/
theorem touched_of_caches {call : Call} {out : TsName} (member : out ∈ call.names)
    (both : call.paths config = call.names.flatMap fun name => [config.cached name, config.temp name])
    {s : Write} (caches : Caches out s) : ∀ name ∈ touched s, config.cached name ∈ call.paths config := by
  have own := cached_mem_paths config member
  have temp : config.cached out.temp ∈ call.paths config := by
    rw [both, ← temp_eq config (plain_stem member)]
    exact List.mem_flatMap.2 ⟨out, member, List.mem_cons_of_mem _ List.mem_cons_self⟩
  intro name named
  rcases caches with ⟨bytes, rfl⟩ | rfl | rfl
  · rwa [List.mem_singleton.1 named]
  · rcases List.mem_cons.1 named with rfl | is_out
    · exact temp
    · rwa [List.mem_singleton.1 is_out]
  · rwa [List.mem_singleton.1 named]

theorem touches_ensure_transcode (cam : Text) :
    Writes (fun s => ∀ name ∈ touched s,
        config.cached name ∈ (Call.ensure_transcode dongle ts seg cam).paths config)
      (Media.ensure_transcode env dongle ts seg cam) := by
  unfold Media.ensure_transcode
  cases source : camera_source cam with
  | none => exact .throw _
  | some src =>
      refine (writes_ensure_cached env _ _ _ _ (writes_run_transcode env _ _)).mono fun s caches => ?_
      refine touched_of_caches config ?_ rfl caches
      rw [Call.names, source]
      exact List.mem_singleton.2 rfl

theorem touches_ensure_audio :
    Writes (fun s => ∀ name ∈ touched s,
        config.cached name ∈ (Call.ensure_audio dongle ts seg).paths config)
      (Media.ensure_audio env dongle ts seg) :=
  (writes_ensure_audio env dongle ts seg).mono fun _ =>
    touched_of_caches config (List.mem_singleton.2 rfl) rfl

theorem touches_delete_route (route : Text) :
    Writes (fun s => ∀ name ∈ touched s, ∃ segs,
        config.cached name ∈ (Call.delete_route route segs).paths config)
      (delete_route route) := by
  unfold delete_route
  cases parts : Text.split_once '|' route with
  | none => exact .pure ()
  | some p =>
      obtain ⟨dongle, ts⟩ := p
      refine .bind (.select _) fun segs => .bind (.bind ?_ fun _ => .bind ?_ fun _ => ?_) fun _ => ?_
      · refine Request.Uses.forM fun seg listed => Writes.bind ?_ fun _ => ?_
        · exact Request.Uses.forM fun f _ => Writes.attempt fun name named => by cases named
        · refine Request.Uses.forM fun cam transcoded => Writes.attempt fun name named => ?_
          rw [List.mem_singleton.1 named]
          refine ⟨segs, cached_mem_paths config ?_⟩
          simp only [Call.names, parts]
          exact List.mem_flatMap.2 ⟨seg, listed, List.mem_map.2 ⟨cam, transcoded, rfl⟩⟩
      · refine Request.Uses.forM fun cam _ => Writes.bind (.attempt ?_) fun _ => .attempt ?_
        all_goals exact fun name named => by cases named
      · refine .bind (.attempt ?_) fun _ => .attempt ?_
        all_goals exact fun name named => by cases named
      · refine .bind (.execute ?_) fun _ => .execute ?_
        all_goals exact fun name named => by cases named

end Writes

/-! ## Poles -/

private def default_config : Config where
  data_dir := "./data"
  digest := fun _ => (0, 0)

private def dash_cam : Accounts.Device := { dongle_id := "d" }

private def paths_env : Env := { plain_env with shard := default_config.shard }

private def one_dash_cam : World := one_device dash_cam

/-- Sent as `x%2F..%2F..%2Fy`. -/
private def climbing : Text := "x/../../y"

private def uploaded_climbing : AppResult (AppResult Unit) × World :=
  alone paths_env (upload_driving paths_env { identity := "d", device := some dash_cam } "d" climbing
    0 "fcamera.hevc" [1]) one_dash_cam

/-- Every ffmpeg run succeeds. -/
private def transcoded_climbing : AppResult TsName × World :=
  (Media.ensure_transcode paths_env "d" climbing 0 "fcamera").run.run
    (fun f w => f.exec paths_env (.encoded [9]) w) uploaded_climbing.2

/-- A camera file uploaded under such a timestamp is accepted, and its transcode is put next
to the database. -/
theorem transcode_climbs_out :
    uploaded_climbing.1 = .ok (.ok ()) ∧
      transcoded_climbing.1 = .ok (cache_path "d" climbing 0 "fcamera") ∧
      (transcoded_climbing.2.transcode.read (cache_path "d" climbing 0 "fcamera").file).isSome = true ∧
      default_config.cached (cache_path "d" climbing 0 "fcamera") =
        ("./data/transcode/d_x/../../y--0--fcamera.ts" : Text) ∧
      ¬ (Call.ensure_transcode "d" climbing 0 "fcamera").Contained default_config := by
  refine ⟨by decide, by decide, by decide, by decide, ?_⟩
  intro contained
  have parent := contained.1 (default_config.cached (cache_path "d" climbing 0 "fcamera"))
    (by decide)
  exact absurd parent (by decide)

end HomeConnect.Retention
