/-
# Storage.Names -- how blobs and cached transcodes are named

Every uploaded file and every derived artifact is addressed by a string key and stored
at the path the key maps to; transcodes and audio extracts are cached by file name.  A
`BlobName` says what a blob was made for, and `BlobName.key` is the key the code
formats for it.
-/
import HomeConnect.Base.Request
import HomeConnect.Theory.Table

namespace HomeConnect.Storage

open HomeConnect.Theory

set_option autoImplicit false

abbrev Bytes := List UInt8

/-- Build the canonical blob key from its parts. -/
def blob_key (dongle timestamp : Text) (segment : Int) (file : Text) : Text :=
  dongle ++ "_" ++ timestamp ++ "--" ++ Text.decimal segment ++ "--" ++ file

/-- Route-level blob key for a camera's movie. -/
def movie_key (dongle ts cam : Text) : Text :=
  dongle ++ "_" ++ ts ++ "--movie--" ++ cam ++ ".mp4"

/-- Route-level blob key for a drive's subtitles. -/
def subs_key (dongle ts : Text) : Text := dongle ++ "_" ++ ts ++ "--subs--en.vtt"

/-- The name of a route in the database. -/
def fullname (dongle ts : Text) : Text := dongle ++ "|" ++ ts

/-- The name of a segment in the database. -/
def canonical (dongle ts : Text) (segment : Int) : Text :=
  dongle ++ "|" ++ ts ++ "--" ++ Text.decimal segment

/-- Split a route `fullname` into `(dongle, ts)`. -/
def split_fullname (name : Text) : AppResult (Text × Text) :=
  match Text.split_once '|' name with
  | some p => .ok p
  | none => .error (.BadRequest "bad route name")

/-- Replace path-hostile characters so the key is safe as a single filename. -/
def sanitize (key : Text) : Text :=
  key.map fun c => if c = '/' ∨ c = '\\' ∨ c = '\x00' then '_' else c

/-- Where a key is stored: two shard directories and the sanitised key. -/
structure BlobPath where
  shard : Text × Text
  name : Text
deriving DecidableEq, Repr

/-- The path of a key; `shard` gives the first two pairs of hex digits of its sha256. -/
def path_for (shard : Text → Text × Text) (key : Text) : BlobPath := ⟨shard key, sanitize key⟩

/-- What a blob was made for. -/
inductive BlobName
  | segment (dongle ts : Text) (seg : Int) (file : Text)
  | movie (dongle ts cam : Text)
  | subs (dongle ts : Text)
deriving DecidableEq, Repr

namespace BlobName

def key : BlobName → Text
  | .segment dongle ts seg file => blob_key dongle ts seg file
  | .movie dongle ts cam => movie_key dongle ts cam
  | .subs dongle ts => subs_key dongle ts

/-- The route a blob was made for. -/
def route : BlobName → Text × Text
  | .segment dongle ts _ _ => (dongle, ts)
  | .movie dongle ts _ => (dongle, ts)
  | .subs dongle ts => (dongle, ts)

end BlobName

/-- What a file of the transcode directory was made for: a camera of a segment, or its
audio, or the temporary file of either. -/
structure TsName where
  dongle : Text
  ts : Text
  seg : Int
  stem : Text
deriving DecidableEq, Repr

def TsName.file (n : TsName) : Text :=
  n.dongle ++ "_" ++ n.ts ++ "--" ++ Text.decimal n.seg ++ "--" ++ n.stem ++ ".ts"

def TsName.route (n : TsName) : Text × Text := (n.dongle, n.ts)

/-- `out.with_extension("tmp.ts")`. -/
def TsName.temp (n : TsName) : TsName := { n with stem := n.stem ++ ".tmp" }

@[simp] theorem TsName.temp_route (n : TsName) : n.temp.route = n.route := rfl

@[simp] theorem TsName.temp_dongle (n : TsName) : n.temp.dongle = n.dongle := rfl

/-! ## Directories -/

structure File (π : Type) where
  path : π
  bytes : Bytes
deriving DecidableEq, Repr

/-- The files of a directory tree, by path. -/
abbrev Dir (π : Type) := Table (File π) File.path

namespace Dir

variable {π : Type} [DecidableEq π]

def read (d : Dir π) (path : π) : Option Bytes := (d.get? path).map File.bytes

def write (d : Dir π) (path : π) (bytes : Bytes) : Dir π :=
  d.upsert ⟨path, bytes⟩ (fun f => { f with bytes }) fun _ => rfl

def remove (d : Dir π) (path : π) : Dir π := d.delete fun f => decide (f.path = path)

/-- The total size of the files. -/
def size (d : Dir π) : Nat := (d.rows.map fun f => f.bytes.length).sum

@[simp] theorem read_write (d : Dir π) (path p : π) (bytes : Bytes) :
    (d.write path bytes).read p = if p = path then some bytes else d.read p := by
  rw [read, write, Table.get?_upsert]
  split
  · cases d.get? p <;> rfl
  · rfl

/-- Writing a file as it is. -/
theorem write_read {d : Dir π} {path : π} {bytes : Bytes} (there : d.read path = some bytes) :
    d.write path bytes = d := by
  obtain ⟨f, found, rfl⟩ := Option.map_eq_some_iff.1 there
  exact Table.upsert_settled _ found rfl

@[simp] theorem read_remove (d : Dir π) (path p : π) :
    (d.remove path).read p = if p = path then none else d.read p := by
  rw [read, remove, Table.get?_delete, read]
  cases found : d.get? p with
  | none => simp
  | some f =>
      have same := Table.key_of_get? found
      by_cases here : p = path <;> simp [same, here]

end Dir

/-! ## Names of one route -/

theorem fullname_split {dongle : Text} (clean : '|' ∉ dongle) (ts : Text) :
    Text.split_once '|' (fullname dongle ts) = some (dongle, ts) := by
  rw [fullname, List.append_assoc]
  exact Text.split_once_append clean ts

theorem fullname_of_split {name dongle ts : Text} (split : split_fullname name = .ok (dongle, ts)) :
    name = fullname dongle ts ∧ '|' ∉ dongle := by
  unfold split_fullname at split
  cases found : Text.split_once '|' name with
  | none =>
      rw [found] at split
      cases split
  | some p =>
      rw [found] at split
      cases split
      obtain ⟨whole, clean⟩ := Text.split_once_eq_some found
      rw [fullname, List.append_assoc]
      exact ⟨whole, clean⟩

/-- Within a route, a segment's name determines its number. -/
theorem canonical_injective {dongle ts : Text} {m n : Int}
    (same : canonical dongle ts m = canonical dongle ts n) : m = n := by
  simp only [canonical, List.append_cancel_left_eq] at same
  exact Text.decimal_injective same

end HomeConnect.Storage
