/-
# Storage.Keys -- when a key stands for one file

Access is decided on a route and a file of it; storage is addressed by a key that joins
them with `_` and `--`.  Timestamps and file names come from a request's path and may hold
either, so one key can stand for files of two routes: `t` with the file `x--1--qcamera.ts`
in segment 0, and `t--0--x` with `qcamera.ts` in segment 1 (`one_key_two_routes`).

A key is a head (device and timestamp), a middle (a number, `movie` or `subs`) and a last
part, joined by `--`.  `Theory.Joined` says when two such ways of joining give one text;
from it comes exactly which pairs of files are kept apart (`key_guards_iff`).  Names without
`--` in their last parts, as openpilot's are, always are (`unambiguous_of_plain`).
-/
import HomeConnect.Storage.Names
import HomeConnect.Theory.Joined

namespace HomeConnect.Storage

open HomeConnect.Theory

set_option autoImplicit false

namespace BlobName

/-- Device and timestamp. -/
def head (b : BlobName) : Text := b.route.1 ++ "_" ++ b.route.2

def mid : BlobName → Text
  | .segment _ _ seg _ => Text.decimal seg
  | .movie .. => "movie"
  | .subs .. => "subs"

def last : BlobName → Text
  | .segment _ _ _ file => file
  | .movie _ _ cam => cam ++ ".mp4"
  | .subs .. => "en.vtt"

theorem key_eq (b : BlobName) : b.key = joined '-' b.head b.mid b.last := by
  cases b <;> simp [key, joined, head, mid, last, route, blob_key, movie_key, subs_key]

/-- Only the sign of a number is a dash. -/
theorem middle_decimal (n : Int) : Middle '-' (Text.decimal n) := by
  have digits : ∀ n : Nat, Nat.toDigits 10 n ≠ [] := fun n => Nat.toDigits_ne_nil
  cases n with
  | ofNat n =>
      refine ⟨digits n, fun member => ?_, fun one => ?_⟩
      · exact Text.dash_not_digit (List.mem_of_mem_tail member)
      · exact Text.dash_not_digit (one ▸ List.mem_cons_self)
  | negSucc n =>
      refine ⟨List.cons_ne_nil _ _, Text.dash_not_digit, fun one => ?_⟩
      exact digits (n + 1) (List.cons.inj one).2

theorem middle (b : BlobName) : Middle '-' b.mid := by
  cases b with
  | segment dongle ts seg file => exact middle_decimal seg
  | movie dongle ts cam =>
      have plain : Middle '-' ("movie" : Text) := ⟨by decide, by decide, by decide⟩
      exact plain
  | subs dongle ts =>
      have plain : Middle '-' ("subs" : Text) := ⟨by decide, by decide, by decide⟩
      exact plain

end BlobName

/-! ## Paths within a route -/

/-- A text that sanitising leaves without `_` has nothing it replaces. -/
theorem eq_of_sanitize {f g : Text} (plain : '_' ∉ sanitize g) (same : sanitize f = sanitize g) :
    f = g := by
  have kept : ∀ t : Text, '_' ∉ sanitize t → sanitize t = t := by
    intro t clean
    rw [sanitize]
    refine (List.map_congr_left fun c member => ?_).trans (List.map_id t)
    split
    · rename_i replaced
      refine absurd (List.mem_map.2 ⟨c, member, ?_⟩) clean
      rw [if_pos replaced]
    · rfl
  rw [← kept g plain, ← same, kept f (same ▸ plain)]

theorem sanitize_decimal (n : Int) : sanitize (Text.decimal n) = Text.decimal n := by
  have digits : ∀ n : Nat, sanitize (Nat.toDigits 10 n) = Nat.toDigits 10 n := by
    intro n
    rw [sanitize]
    refine (List.map_congr_left fun c member => ?_).trans (List.map_id _)
    have digit := Nat.isDigit_of_mem_toDigits (by omega) (by omega) member
    have other : ¬ (c = '/' ∨ c = '\\' ∨ c = '\x00') := by
      rintro (rfl | rfl | rfl) <;> exact absurd digit (by decide)
    rw [if_neg other]
    rfl
  cases n with
  | ofNat n => exact digits n
  | negSucc n =>
      show sanitize ('-' :: Nat.toDigits 10 (n + 1)) = '-' :: Nat.toDigits 10 (n + 1)
      rw [sanitize, List.map_cons, ← sanitize, digits]
      rfl

/-- Within a route, a file whose name sanitising keeps is stored at a path of its own. -/
theorem segment_of_path {shard : Text → Text × Text} {dongle ts f g : Text} {m n : Int}
    (plain : '_' ∉ sanitize g)
    (same : path_for shard (blob_key dongle ts m f) = path_for shard (blob_key dongle ts n g)) :
    m = n ∧ f = g := by
  have names : sanitize (blob_key dongle ts m f) = sanitize (blob_key dongle ts n g) :=
    congrArg BlobPath.name same
  have parts : ∀ n f, sanitize (blob_key dongle ts n f) =
      sanitize (dongle ++ "_" ++ ts) ++
        '-' :: '-' :: (Text.decimal n ++ '-' :: '-' :: sanitize f) := by
    intro n f
    conv_rhs => rw [← sanitize_decimal n]
    simp [sanitize, blob_key]
  rw [parts, parts, List.append_cancel_left_eq, List.cons_inj_right, List.cons_inj_right] at names
  obtain ⟨numbers, files⟩ :=
    (BlobName.middle_decimal m).unique (BlobName.middle_decimal n) names
  exact ⟨Text.decimal_injective numbers, eq_of_sanitize plain files⟩

/-- Within a route, the path of a blob settles the middle of its name, and the last part up
to what sanitising replaces. -/
theorem parts_of_path {shard : Text → Text × Text} {a b : BlobName} (route : a.route = b.route)
    (same : path_for shard a.key = path_for shard b.key) :
    a.mid = b.mid ∧ sanitize a.last = sanitize b.last := by
  have kept (b : BlobName) : sanitize b.mid = b.mid := by
    cases b with
    | segment dongle ts seg file => exact sanitize_decimal seg
    | movie dongle ts cam => exact (by decide : sanitize ("movie" : Text) = ("movie" : Text))
    | subs dongle ts => exact (by decide : sanitize ("subs" : Text) = ("subs" : Text))
  have parts (b : BlobName) : sanitize b.key =
      sanitize b.head ++ '-' :: '-' :: (b.mid ++ '-' :: '-' :: sanitize b.last) := by
    conv_rhs => rw [← kept b]
    simp [BlobName.key_eq, joined, sanitize]
  have names : sanitize a.key = sanitize b.key := congrArg BlobPath.name same
  have heads : a.head = b.head := by rw [BlobName.head, BlobName.head, route]
  rw [parts, parts, heads, List.append_cancel_left_eq, List.cons_inj_right, List.cons_inj_right] at names
  exact a.middle.unique b.middle names

/-- Within a route, a cached file's name settles its segment and its stem. -/
theorem TsName.of_file {dongle ts stem stem' : Text} {seg seg' : Int}
    (same : (⟨dongle, ts, seg, stem⟩ : TsName).file = (⟨dongle, ts, seg', stem'⟩ : TsName).file) :
    seg = seg' ∧ stem = stem' := by
  have parts (seg : Int) (stem : Text) : (⟨dongle, ts, seg, stem⟩ : TsName).file =
      (dongle ++ "_" ++ ts) ++ '-' :: '-' :: (Text.decimal seg ++ '-' :: '-' :: (stem ++ ".ts")) := by
    simp [TsName.file]
  rw [parts, parts, List.append_cancel_left_eq, List.cons_inj_right, List.cons_inj_right] at same
  obtain ⟨numbers, stems⟩ :=
    (BlobName.middle_decimal seg).unique (BlobName.middle_decimal seg') same
  exact ⟨Text.decimal_injective numbers, List.append_cancel_right stems⟩

/-! ## Files kept apart -/

/-- A file's key is no other file's, and no movie's or transcript's of another route. -/
def KeyGuards (a : BlobName) : BlobName → Prop
  | .segment dongle ts seg file => a.key = (BlobName.segment dongle ts seg file).key →
      a = .segment dongle ts seg file
  | b => a.key = b.key → a.route = b.route

/-- The names of two blobs cannot be taken for each other. -/
structure Unambiguous (a b : BlobName) : Prop where
  routes : a.head = b.head → a.mid = b.mid → a.last = b.last → a.route = b.route
  inside : ¬ Inside '-' a.head a.mid a.last b.head b.mid b.last
  around : ¬ Inside '-' b.head b.mid b.last a.head a.mid a.last

/-- Keys are the same when the names are, or when one lies inside the other. -/
theorem key_eq_iff (a b : BlobName) :
    a.key = b.key ↔ (a.head = b.head ∧ a.mid = b.mid ∧ a.last = b.last) ∨
      Inside '-' a.head a.mid a.last b.head b.mid b.last ∨
      Inside '-' b.head b.mid b.last a.head a.mid a.last := by
  rw [a.key_eq, b.key_eq]
  exact joined_eq_iff a.middle b.middle

/-- A name that lies inside another's head has a shorter head. -/
theorem head_lt_of_inside {a b : BlobName}
    (inside : Inside '-' a.head a.mid a.last b.head b.mid b.last) :
    a.head.length < b.head.length := by
  rcases inside with ⟨longer, _⟩ | ⟨z, longer, _⟩
  · rw [longer, List.length_append, List.length_singleton]
    omega
  · rw [longer, List.length_append, List.length_cons, List.length_cons]
    omega

theorem head_of_route {a b : BlobName} (same : a.route = b.route) : a.head = b.head := by
  rw [BlobName.head, BlobName.head, same]

theorem not_inside_of_route {a b : BlobName} (same : a.route = b.route) :
    ¬ Inside '-' a.head a.mid a.last b.head b.mid b.last := by
  intro inside
  have shorter := head_lt_of_inside inside
  rw [head_of_route same] at shorter
  exact Nat.lt_irrefl _ shorter

/-- **What a key stands for.**  A file is kept apart from another file, and from the movies
and transcripts of other routes, exactly when their names are unambiguous. -/
theorem key_guards_iff (dongle ts : Text) (seg : Int) (file : Text) (b : BlobName) :
    KeyGuards (.segment dongle ts seg file) b ↔ Unambiguous (.segment dongle ts seg file) b := by
  -- being kept apart is to have one's route in common with whatever has the same key
  have common : KeyGuards (.segment dongle ts seg file) b ↔
      ((BlobName.segment dongle ts seg file).key = b.key →
        (BlobName.segment dongle ts seg file).route = b.route) := by
    cases b with
    | segment dongle' ts' seg' file' =>
        constructor
        · intro guards same
          rw [guards same]
        · intro routes same
          have route := routes same
          rcases (key_eq_iff _ _).1 same with ⟨_, mids, lasts⟩ | inside | around
          · cases route
            rw [Text.decimal_injective mids, show file = file' from lasts]
          · exact (not_inside_of_route route inside).elim
          · exact (not_inside_of_route route.symm around).elim
    | movie dongle' ts' cam => exact Iff.rfl
    | subs dongle' ts' => exact Iff.rfl
  rw [common, key_eq_iff]
  constructor
  · intro guards
    refine ⟨fun heads mids lasts => ?_, fun inside => ?_, fun around => ?_⟩
    · exact guards (.inl ⟨heads, mids, lasts⟩)
    · exact not_inside_of_route (guards (.inr (.inl inside))) inside
    · exact not_inside_of_route (guards (.inr (.inr around))).symm around
  · rintro ⟨routes, inside, around⟩ (⟨heads, mids, lasts⟩ | is | is)
    · exact routes heads mids lasts
    · exact (inside is).elim
    · exact (around is).elim

/-- A last part that holds a whole name is parted by two dashes itself. -/
theorem dashes_of_inside {last z mid last' : Text}
    (tails : '-' :: '-' :: last = z ++ '-' :: '-' :: (mid ++ '-' :: '-' :: last')) :
    ("--" : Text) <:+: last := by
  have longer : '-' :: '-' :: last = (z ++ '-' :: '-' :: mid) ++ ('-' :: '-' :: last') := by
    rw [tails, List.append_assoc]
    rfl
  rcases List.append_eq_append_iff.1 (show ['-', '-'] ++ last = _ from longer) with
    ⟨u, _, rest⟩ | ⟨u, short, rest⟩
  · exact ⟨u, last', by rw [rest]; simp⟩
  · have size := congrArg List.length short
    simp only [List.length_append, List.length_cons, List.length_nil] at size
    have none : u = [] := List.length_eq_zero_iff.1 (by omega)
    subst none
    exact ⟨[], last', rest⟩

/-- Names of devices without `_` and last parts without `--`, as openpilot's are, are never
ambiguous. -/
theorem unambiguous_of_plain {a b : BlobName} (deviceA : '_' ∉ a.route.1) (deviceB : '_' ∉ b.route.1)
    (midA : '-' ∉ a.mid) (midB : '-' ∉ b.mid) (lastA : ¬ ("--" : Text) <:+: a.last)
    (lastB : ¬ ("--" : Text) <:+: b.last) : Unambiguous a b := by
  refine ⟨fun heads _ _ => ?_, ?_, ?_⟩
  · have parts := congrArg (Text.split_once '_') heads
    unfold BlobName.head at parts
    simp only [List.append_assoc] at parts
    have partsA := Text.split_once_append deviceA a.route.2
    have partsB := Text.split_once_append deviceB b.route.2
    exact Option.some.inj (partsA.symm.trans (parts.trans partsB))
  · rintro (⟨_, signed, _⟩ | ⟨z, _, tails⟩)
    · exact midA (signed ▸ List.mem_cons_self)
    · exact lastA (dashes_of_inside tails)
  · rintro (⟨_, signed, _⟩ | ⟨z, _, tails⟩)
    · exact midB (signed ▸ List.mem_cons_self)
    · exact lastB (dashes_of_inside tails)

/-- Two drives of a device, one file of each, and one key. -/
theorem one_key_two_routes : ¬ ∀ (dongle ts : Text) (seg : Int) (file : Text) (b : BlobName),
    KeyGuards (.segment dongle ts seg file) b := by
  intro claim
  have guards := claim "0123456789abcdef" "t" 0 "x--1--qcamera.ts"
    (.segment "0123456789abcdef" "t--0--x" 1 "qcamera.ts")
  have same : (BlobName.segment "0123456789abcdef" "t" 0 "x--1--qcamera.ts").key =
      (BlobName.segment "0123456789abcdef" "t--0--x" 1 "qcamera.ts").key := by
    decide
  cases guards same

end HomeConnect.Storage
