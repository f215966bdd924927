/-
# Sync.Reparse -- parsing what is stored again

`reparse_all` goes over the segment rows as it found them and parses each segment's stored
qlog again, for when the parser has changed.  It is run beside everything else.
-/
import HomeConnect.Sync.Footprint

namespace HomeConnect.Sync

open HomeConnect.Theory HomeConnect.Storage HomeConnect.Drives

set_option autoImplicit false

/-- The names a segment's qlog may be stored under, in the order they are tried. -/
def QLOG_FILES : List Text := ["qlog.zst", "qlog.bz2"]

/-- Parse the first of the files that can be read; was it parsed? -/
def reparse_segment (env : Env) (dongle ts : Text) (seg : Int) : List Text → Request Op Bool
  | [] => pure false
  | file :: files => do
      match ← Request.capture (blob_get env (.segment dongle ts seg file)) with
      | .ok bytes =>
          match ← Request.capture (parse_and_store env dongle ts seg file bytes) with
          | .ok () => pure true
          | .error _ => pure false
      | .error _ => reparse_segment env dongle ts seg files

/-- `ORDER BY canonical_route_name, number`. -/
def reparse_order (db : Storage.Db) : List (Text × Int) :=
  (db.segments.rows.map fun s => (s.canonical_route_name, s.number)).insertionSort fun a b =>
    a.1 < b.1 ∨ a.1 = b.1 ∧ a.2 ≤ b.2

/-- One round of the loop, for the row of a segment: was it parsed? -/
def reparse_row (env : Env) (row : Text × Int) : Request Op Bool :=
  match Text.split_once '|' row.1 with
  | none => pure false
  | some (dongle, ts) => reparse_segment env dongle ts row.2 QLOG_FILES

/-- How many of the rows were parsed. -/
def reparse_each (env : Env) : List (Text × Int) → Request Op Nat
  | [] => pure 0
  | row :: rows => do
      let done ← reparse_row env row
      let n ← reparse_each env rows
      pure (if done then n + 1 else n)

/-- Re-parse every stored segment's qlog. -/
def reparse_all (env : Env) : Request Op Nat := do
  reparse_each env (← select fun w => reparse_order w.db)

end HomeConnect.Sync
