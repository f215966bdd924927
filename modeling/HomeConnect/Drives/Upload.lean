/-
# Drives.Upload -- the way from a device's path to a key

A device asks where to upload the file at a path, and is handed a URL whose tail is the path
with some of its separators turned into slashes.  The router takes the tail apart at the
slashes, and the handler it belongs to joins the parts to a key.

On the paths that devices have, all this comes to replacing slashes
(`upload_paths_round_trip`).  A part must not be empty, and a segment must be a number that
the handler reads.
-/
import HomeConnect.Drives.Ingest

namespace HomeConnect.Drives.Upload

open HomeConnect.Storage

set_option autoImplicit false

/-! ## The URL handed out -/

/-- `replacen(c, r, n)`: replace the first `n`. -/
def replacen (c : Char) (r : Text) : Nat → Text → Text
  | 0, s => s
  | _, [] => []
  | n + 1, x :: s => if x = c then r ++ replacen c r n s else x :: replacen c r (n + 1) s

/-- Transform the device's path into the slash-separated tail of a URL. -/
def transform_route_string (path : Text) : Text :=
  match Text.strip_prefix "boot/" path with
  | some rest => ("boot/" : Text) ++ rest
  | none =>
      match Text.strip_prefix "crash/" path with
      | some rest => ("crash/" : Text) ++ replacen '_' "/" 2 rest
      | none =>
          -- The timestamp holds dashes itself, so the split is from the right.
          match Text.rsplit_once_dashes path with
          | some (head, file) =>
              match Text.rsplit_once_dashes head with
              | some (ts, seg) => ts ++ '/' :: seg ++ '/' :: file
              | none => path
          | none => path

def incoming (public_url dongle tail : Text) : Text :=
  let connectincoming : Text := "/connectincoming/"
  public_url ++ connectincoming ++ dongle ++ '/' :: tail

/-- `upload_url`: a single URL; the token goes into a header. -/
def upload_url (public_url : Text) (auth : Auth) (dongle path : Text) : AppResult Text := do
  Accounts.require_device auth.device dongle
  pure (incoming public_url dongle (transform_route_string path))

/-- `upload_urls`: many, each with the token in it. -/
def upload_urls (public_url : Text) (auth : Auth) (dongle token : Text) (paths : List Text) :
    AppResult (List Text) := do
  Accounts.require_device auth.device dongle
  let sig : Text := "?sig="
  pure (paths.map fun p => incoming public_url dongle (transform_route_string p) ++ sig ++ token)

/-! ## The router -/

/-- A part of a route: a text, or a capture. -/
inductive Part where
  | text (t : Text)
  | capture
deriving DecidableEq, Repr

/-- A capture takes a whole part between slashes, which is not empty. -/
def captures : List Part → List Text → Option (List Text)
  | [], [] => some []
  | .text t :: parts, segment :: rest => if segment = t then captures parts rest else none
  | .capture :: parts, segment :: rest =>
      if segment = [] then none else (captures parts rest).map (segment :: ·)
  | _, _ => none

/-- The handler of an upload with what it is called with. -/
inductive Handler where
  | upload_driving (dongle timestamp : Text) (segment : Int) (file : Text)
  | upload_boot (dongle file : Text)
  | upload_crash (dongle log_id commit name : Text)
deriving DecidableEq, Repr

def driving_route : List Part :=
  [.text [], .text "connectincoming", .capture, .capture, .capture, .capture]

def boot_route : List Part := [.text [], .text "connectincoming", .capture, .text "boot", .capture]

def crash_route : List Part :=
  [.text [], .text "connectincoming", .capture, .text "crash", .capture, .capture, .capture]

/-- The extractors; the segment is read as an `i64`, and the request refused if it is
none. -/
def extract_driving : List Text → Option Handler
  | [dongle, timestamp, segment, file] =>
      (Text.parse_i64 segment).map fun segment => .upload_driving dongle timestamp segment file
  | _ => none

def extract_boot : List Text → Option Handler
  | [dongle, file] => some (.upload_boot dongle file)
  | _ => none

def extract_crash : List Text → Option Handler
  | [dongle, log_id, commit, name] => some (.upload_crash dongle log_id commit name)
  | _ => none

/-- The routes for uploads.  The captures would be percent-decoded, which leaves the
characters that need no encoding as they are. -/
def ROUTES : List (List Part × (List Text → Option Handler)) :=
  [(driving_route, extract_driving), (boot_route, extract_boot), (crash_route, extract_crash)]

/-- The handler a path is routed to, if its captures can be extracted. -/
def route (path : Text) : Option Handler :=
  (ROUTES.findSome? fun r => (captures r.1 (Text.split '/' path)).map r.2).join

/-- The path that is requested with a URL of the server. -/
def request_path (public_url url : Text) : Option Text :=
  (Text.strip_prefix public_url url).map fun rest => rest.takeWhile fun c => decide (c ≠ '?')

/-! ## The handlers -/

namespace Handler

def dongle : Handler → Text
  | .upload_driving dongle .. => dongle
  | .upload_boot dongle _ => dongle
  | .upload_crash dongle .. => dongle

def key : Handler → Text
  | .upload_driving dongle timestamp segment file => blob_key dongle timestamp segment file
  | .upload_boot dongle file =>
      let boot : Text := "_boot_"
      dongle ++ boot ++ file
  | .upload_crash dongle log_id commit name =>
      let crash : Text := "_crash_"
      dongle ++ crash ++ log_id ++ '_' :: commit ++ '_' :: name

end Handler

/-- `store`, of the blobs: an upload is not overwritten. -/
def store (shard : Text → Text × Text) (written : Bool) (key : Text) (body : Bytes)
    (blobs : Dir BlobPath) : AppResult (Dir BlobPath) :=
  if (blobs.read (path_for shard key)).isSome then .error (.Forbidden "file already uploaded")
  else if written then .ok (blobs.write (path_for shard key) body)
  else .error (.Other "blob write")

/-- What becomes of the body, up to the registration of a driving segment. -/
def Handler.run (h : Handler) (shard : Text → Text × Text) (written : Bool) (auth : Auth)
    (body : Bytes) (blobs : Dir BlobPath) : AppResult (Dir BlobPath) := do
  require_device auth h.dongle
  store shard written h.key body blobs

/-! ## The paths devices have -/

/-- A character that a URL holds as it is. -/
def url_safe (c : Char) : Bool := c.isAlphanum || c = '-' || c = '.' || c = '_' || c = '~'

def Safe (t : Text) : Prop := ∀ c ∈ t, url_safe c = true

instance (t : Text) : Decidable (Safe t) := inferInstanceAs (Decidable (∀ c ∈ t, url_safe c = true))

inductive DevicePath where
  | driving (ts : Text) (seg : Nat) (file : Text)
  | boot (file : Text)
  | crash (log_id commit name : Text)
deriving DecidableEq, Repr

namespace DevicePath

def text : DevicePath → Text
  | .driving ts seg file => ts ++ '-' :: '-' :: Text.decimal seg ++ '-' :: '-' :: file
  | .boot file => ("boot/" : Text) ++ file
  | .crash log_id commit name => ("crash/" : Text) ++ (log_id ++ '_' :: commit ++ '_' :: name)

theorem text_driving (ts : Text) (seg : Nat) (file : Text) :
    text (.driving ts seg file) = ts ++ '-' :: '-' :: Text.decimal seg ++ '-' :: '-' :: file := rfl

theorem text_boot (file : Text) : text (.boot file) = ("boot/" : Text) ++ file := rfl

theorem text_crash (log_id commit name : Text) :
    text (.crash log_id commit name) = ("crash/" : Text) ++ (log_id ++ '_' :: commit ++ '_' :: name) := rfl

/-- The parts of a path that are names. -/
def names : DevicePath → List Text
  | .driving ts _ file => [ts, file]
  | .boot file => [file]
  | .crash log_id commit name => [log_id, commit, name]

/-- The parts of the URL's tail. -/
def parts : DevicePath → List Text
  | .driving ts seg file => [ts, Text.decimal seg, file]
  | .boot file => ["boot", file]
  | .crash log_id commit name => ["crash", log_id, commit, name]

def handler (dongle : Text) : DevicePath → Handler
  | .driving ts seg file => .upload_driving dongle ts seg file
  | .boot file => .upload_boot dongle file
  | .crash log_id commit name => .upload_crash dongle log_id commit name

/-- The documented grammar. -/
structure Documented (p : DevicePath) : Prop where
  safe : ∀ name ∈ p.names, Safe name
  file : ∀ ts seg file, p = .driving ts seg file →
    Text.contains file "--" = false ∧ file.head? ≠ some '-'
  log : ∀ log_id commit name, p = .crash log_id commit name → '_' ∉ log_id ∧ '_' ∉ commit

/-- Every part is there, and the segment is a number of 64 bits. -/
structure Routable (p : DevicePath) : Prop where
  nonempty : ∀ name ∈ p.names, name ≠ []
  number : ∀ ts seg file, p = .driving ts seg file → seg < 2 ^ 63

/-- A driving timestamp has no underscore in it. -/
def Plain (p : DevicePath) : Prop := ∀ ts seg file, p = .driving ts seg file → '_' ∉ ts

end DevicePath

/-- Every slash an underscore. -/
def flat (path : Text) : Text := path.map fun c => if c = '/' then '_' else c

structure RoundTrips (public_url dongle : Text) (p : DevicePath) : Prop where
  single : ∀ auth url, upload_url public_url auth dongle p.text = .ok url →
    (request_path public_url url).bind route = some (p.handler dongle)
  batch : ∀ auth token paths urls, upload_urls public_url auth dongle token paths = .ok urls →
    ∀ i : Nat, paths[i]? = some p.text →
      ∃ url : Text, urls[i]? = some url ∧ (request_path public_url url).bind route = some (p.handler dongle)
  /-- The handler stores the body of this device under this key. -/
  stored : ∀ shard auth body blobs, require_device auth dongle = .ok () →
    Dir.read blobs (path_for shard (dongle ++ '_' :: flat p.text)) = none →
      (p.handler dongle).run shard true auth body blobs =
        .ok (Dir.write blobs (path_for shard (dongle ++ '_' :: flat p.text)) body)

/-! ## Characters -/

theorem Safe.not_mem {t : Text} (safe : Safe t) {c : Char} (odd : url_safe c = false) : c ∉ t := by
  intro inside
  rw [safe c inside] at odd
  cases odd

theorem safe_decimal (n : Nat) : Safe (Text.decimal n) := by
  intro c inside
  have digit := Nat.isDigit_of_mem_toDigits (b := 10) (n := n) (by omega) (by omega) inside
  unfold url_safe Char.isAlphanum
  rw [digit]
  simp

theorem safe_parts {p : DevicePath} (documented : p.Documented) : ∀ part ∈ p.parts, Safe part := by
  have safe := documented.safe
  cases p with
  | driving ts seg file =>
      intro part listed
      simp only [DevicePath.parts, List.mem_cons, List.not_mem_nil, or_false] at listed
      rcases listed with rfl | rfl | rfl
      · exact safe _ (by simp [DevicePath.names])
      · exact safe_decimal seg
      · exact safe _ (by simp [DevicePath.names])
  | boot file =>
      intro part listed
      rcases List.mem_cons.1 listed with rfl | listed
      · intro c inside
        revert c
        decide
      · exact safe part listed
  | crash log_id commit name =>
      intro part listed
      rcases List.mem_cons.1 listed with rfl | listed
      · intro c inside
        revert c
        decide
      · exact safe part listed

/-! ## The tail -/

theorem strip_prefix_append (pre s : Text) : Text.strip_prefix pre (pre ++ s) = some s := by
  unfold Text.strip_prefix
  rw [if_pos (List.prefix_append _ _), List.drop_left]

theorem strip_prefix_none {pre s : Text} {c : Char} (inside : c ∈ pre) (clean : c ∉ s) :
    Text.strip_prefix pre s = none := by
  unfold Text.strip_prefix
  exact if_neg fun begins => clean (begins.subset inside)

theorem replacen_append {c : Char} {pre : Text} (clean : c ∉ pre) (r : Text) (n : Nat) (rest : Text) :
    replacen c r (n + 1) (pre ++ c :: rest) = pre ++ r ++ replacen c r n rest := by
  induction pre with
  | nil => exact if_pos rfl
  | cons x pre ih =>
      have other : x ≠ c := fun same => clean (same ▸ List.mem_cons_self)
      have later := ih fun member => clean (List.mem_cons_of_mem _ member)
      rw [List.cons_append, replacen, if_neg other, later]
      rfl

theorem rsplit_none {t : Text} (single : Text.contains t "--" = false) : Text.rsplit_once_dashes t = none := by
  induction t with
  | nil => rfl
  | cons c t ih =>
      unfold Text.contains at single ih
      rw [decide_eq_false_iff_not] at single ih
      have later := ih fun inside => single (inside.trans (List.suffix_cons c t).isInfix)
      rw [Text.rsplit_cons, later]
      refine if_neg fun both => single ?_
      obtain ⟨rest, rfl⟩ := List.head?_eq_some_iff.1 both.2
      rw [both.1]
      exact (List.prefix_append ("--" : Text) rest).isInfix

/-- The last two dashes are before a file's name. -/
theorem rsplit_file {pre file : Text} (single : Text.contains file "--" = false)
    (no_dash : file.head? ≠ some '-') :
    Text.rsplit_once_dashes (pre ++ '-' :: '-' :: file) = some (pre, file) := by
  induction pre with
  | nil =>
      have one : Text.rsplit_once_dashes ('-' :: file) = none := by
        rw [Text.rsplit_cons, rsplit_none single]
        exact if_neg fun both => no_dash both.2
      rw [List.nil_append, Text.rsplit_cons, one]
      rfl
  | cons c pre ih => rw [List.cons_append, Text.rsplit_cons, ih]

theorem join_one (sep t : Text) : Text.join sep [t] = t := rfl

theorem join_two (sep t u : Text) (rest : List Text) :
    Text.join sep (t :: u :: rest) = t ++ sep ++ Text.join sep (u :: rest) := rfl

/-- The tail has the parts of the path between slashes. -/
theorem transform_text {p : DevicePath} (documented : p.Documented) :
    transform_route_string p.text = Text.join "/" p.parts := by
  cases p with
  | driving ts seg file =>
      obtain ⟨single, no_dash⟩ := documented.file ts seg file rfl
      have safe := safe_parts documented
      have clean : '/' ∉ DevicePath.text (.driving ts seg file) := by
        have no_slash : ∀ part ∈ DevicePath.parts (.driving ts seg file), '/' ∉ part :=
          fun part listed => (safe part listed).not_mem (by decide)
        simp only [DevicePath.parts, List.forall_mem_cons] at no_slash
        simp [DevicePath.text_driving, no_slash]
      have dash : '-' ∉ Text.decimal seg := Text.dash_not_digit
      unfold transform_route_string
      rw [strip_prefix_none (by decide) clean, strip_prefix_none (by decide) clean]
      simp only [DevicePath.text_driving, rsplit_file single no_dash]
      rw [Text.rsplit_append dash]
      simp [DevicePath.parts, join_two, join_one, List.append_assoc]
  | boot file =>
      unfold transform_route_string
      rw [DevicePath.text_boot, strip_prefix_append]
      rfl
  | crash log_id commit name =>
      obtain ⟨id_clean, commit_clean⟩ := documented.log log_id commit name rfl
      have no_boot : Text.strip_prefix "boot/" (DevicePath.text (.crash log_id commit name)) = none := by
        unfold Text.strip_prefix
        refine if_neg fun begins => ?_
        obtain ⟨rest, same⟩ := begins
        have first := congrArg List.head? same
        cases first
      unfold transform_route_string
      rw [no_boot, DevicePath.text_crash, strip_prefix_append]
      simp only [List.append_assoc, List.cons_append]
      rw [replacen_append id_clean, replacen_append commit_clean]
      simp [DevicePath.parts, join_two, join_one, replacen, List.append_assoc]

/-! ## The way back -/

theorem split_join {c : Char} {parts : List Text} (some_part : parts ≠ [])
    (clean : ∀ part ∈ parts, c ∉ part) : Text.split c (Text.join [c] parts) = parts := by
  induction parts with
  | nil => exact (some_part rfl).elim
  | cons part parts ih =>
      rw [List.forall_mem_cons] at clean
      cases parts with
      | nil => exact Text.split_of_not_mem clean.1
      | cons part' parts =>
          show Text.split c (part ++ [c] ++ Text.join [c] (part' :: parts)) = _
          rw [List.append_assoc, List.singleton_append, Text.split_append clean.1,
            ih (List.cons_ne_nil _ _) clean.2]

theorem not_mem_join {c : Char} {sep : Text} {parts : List Text} (other : c ∉ sep)
    (clean : ∀ part ∈ parts, c ∉ part) : c ∉ Text.join sep parts := by
  induction parts with
  | nil => exact List.not_mem_nil
  | cons part parts ih =>
      rw [List.forall_mem_cons] at clean
      cases parts with
      | nil => exact clean.1
      | cons part' parts =>
          show c ∉ part ++ sep ++ Text.join sep (part' :: parts)
          simp [clean.1, other, ih clean.2]

/-- The path of an upload, as the router sees it. -/
def incoming_path (dongle : Text) (p : DevicePath) : Text :=
  Text.join "/" ([] :: "connectincoming" :: dongle :: p.parts)

section Incoming

variable {dongle : Text} {p : DevicePath}

theorem incoming_eq (documented : p.Documented) (public_url : Text) :
    incoming public_url dongle (transform_route_string p.text) =
      public_url ++ incoming_path dongle p := by
  rw [transform_text documented]
  cases p <;> simp [incoming, incoming_path, DevicePath.parts, join_two, join_one, List.append_assoc]

theorem incoming_parts_safe (safe : Safe dongle) (documented : p.Documented) :
    ∀ part ∈ ([] :: "connectincoming" :: dongle :: p.parts : List Text), Safe part := by
  rw [List.forall_mem_cons, List.forall_mem_cons, List.forall_mem_cons]
  refine ⟨fun c inside => absurd inside List.not_mem_nil, ?_, safe, safe_parts documented⟩
  intro c inside
  revert c
  decide

/-- What all routes for uploads begin with. -/
theorem captures_incoming (named : dongle ≠ []) (parts : List Part) (rest : List Text) :
    captures (.text [] :: .text "connectincoming" :: .capture :: parts)
      ([] :: "connectincoming" :: dongle :: rest) = (captures parts rest).map (dongle :: ·) := by
  rw [captures, if_pos rfl, captures, if_pos rfl, captures, if_neg named]

theorem captures_driving (named : dongle ≠ []) {ts seg file : Text} (nonempty : ts ≠ []) (digits : seg ≠ [])
    (nonempty' : file ≠ []) :
    captures driving_route ([] :: "connectincoming" :: dongle :: [ts, seg, file]) =
      some [dongle, ts, seg, file] := by
  rw [driving_route, captures_incoming named]
  simp only [captures, nonempty, digits, nonempty', if_false, Option.map_some]

/-- The other routes have another number of parts. -/
theorem captures_other_length {parts : List Part} {segments : List Text}
    (other : parts.length ≠ segments.length) : captures parts segments = none := by
  induction parts generalizing segments with
  | nil =>
      cases segments with
      | nil => exact (other rfl).elim
      | cons segment segments => rfl
  | cons part parts ih =>
      cases segments with
      | nil => cases part <;> rfl
      | cons segment segments =>
          have rest := ih fun same => other (congrArg Nat.succ same)
          cases part with
          | text t =>
              rw [captures, rest]
              split <;> rfl
          | capture =>
              rw [captures, rest]
              split <;> rfl

/-- Every path is routed to its own handler. -/
theorem route_incoming (safe : Safe dongle) (named : dongle ≠ []) (documented : p.Documented)
    (routable : p.Routable) : route (incoming_path dongle p) = some (p.handler dongle) := by
  have parts : Text.split '/' (incoming_path dongle p) = [] :: "connectincoming" :: dongle :: p.parts :=
    split_join (List.cons_ne_nil _ _)
      fun part listed => (incoming_parts_safe safe documented part listed).not_mem (by decide)
  have nonempty := routable.nonempty
  unfold route ROUTES
  rw [parts, List.findSome?_cons, List.findSome?_cons, List.findSome?_cons]
  dsimp only
  cases p with
  | driving ts seg file =>
      simp only [DevicePath.names, List.forall_mem_cons] at nonempty
      have small : ((seg : Nat) : Int) < 2 ^ 63 := by exact_mod_cast routable.number ts seg file rfl
      have digits : Text.decimal seg ≠ [] := Nat.toDigits_ne_nil
      rw [DevicePath.parts, captures_driving named nonempty.1 digits nonempty.2.1]
      show extract_driving [dongle, ts, Text.decimal seg, file] = _
      rw [extract_driving, Text.parse_i64_decimal (Int.natCast_nonneg seg) small]
      rfl
  | boot file =>
      simp only [DevicePath.names, List.forall_mem_cons] at nonempty
      have driving : captures driving_route ([] :: "connectincoming" :: dongle :: ["boot", file]) = none :=
        captures_other_length (Nat.ne_of_gt (Nat.lt_add_one 5))
      rw [DevicePath.parts, driving, boot_route, captures_incoming named, captures, if_pos rfl, captures,
        if_neg nonempty.1]
      rfl
  | crash log_id commit name =>
      simp only [DevicePath.names, List.forall_mem_cons] at nonempty
      have driving : captures driving_route
          ([] :: "connectincoming" :: dongle :: ["crash", log_id, commit, name]) = none :=
        captures_other_length (Nat.ne_of_lt (Nat.lt_add_one 6))
      have boot : captures boot_route
          ([] :: "connectincoming" :: dongle :: ["crash", log_id, commit, name]) = none :=
        captures_other_length (Nat.ne_of_lt (Nat.lt_of_succ_lt (Nat.lt_add_one 6)))
      rw [DevicePath.parts, driving, boot, crash_route, captures_incoming named, captures, if_pos rfl, captures,
        if_neg nonempty.1, captures, if_neg nonempty.2.1, captures, if_neg nonempty.2.2.1]
      rfl

/-- What is requested with a URL of this path, with a query or without. -/
theorem request_path_incoming (safe : Safe dongle) (documented : p.Documented) (public_url query : Text)
    (mark : query = [] ∨ query.head? = some '?') :
    request_path public_url (public_url ++ incoming_path dongle p ++ query) = some (incoming_path dongle p) := by
  have clean : '?' ∉ incoming_path dongle p :=
    not_mem_join (by decide)
      fun part listed => (incoming_parts_safe safe documented part listed).not_mem (by decide)
  have kept : ∀ c ∈ incoming_path dongle p, decide (c ≠ '?') = true := by
    intro c inside
    rw [decide_eq_true_eq]
    rintro rfl
    exact clean inside
  unfold request_path
  rw [List.append_assoc, strip_prefix_append, Option.map_some, List.takeWhile_append_of_pos kept]
  rcases mark with rfl | mark
  · simp
  · obtain ⟨rest, rfl⟩ := List.head?_eq_some_iff.1 mark
    rw [List.takeWhile_cons_of_neg (by simp), List.append_nil]

theorem flat_of_safe {t : Text} (safe : Safe t) : flat t = t := by
  unfold flat
  rw [List.map_congr_left (g := id), List.map_id]
  intro c inside
  refine if_neg fun slash => ?_
  exact safe.not_mem (by decide) (slash ▸ inside)

theorem flat_append (s t : Text) : flat (s ++ t) = flat s ++ flat t := List.map_append

/-- A path with its slash, if it has one, replaced. -/
theorem flat_text (documented : p.Documented) :
    flat p.text =
      match p with
      | .driving .. => p.text
      | .boot file => ("boot_" : Text) ++ file
      | .crash log_id commit name => ("crash_" : Text) ++ (log_id ++ '_' :: commit ++ '_' :: name) := by
  have safe := documented.safe
  cases p with
  | driving ts seg file =>
      simp only [DevicePath.names, List.forall_mem_cons] at safe
      refine flat_of_safe fun c inside => ?_
      simp only [DevicePath.text_driving, List.mem_append, List.mem_cons] at inside
      rcases inside with (inside | rfl | rfl | inside) | rfl | rfl | inside
      · exact safe.1 c inside
      · rfl
      · rfl
      · exact safe_decimal seg c inside
      · rfl
      · rfl
      · exact safe.2.1 c inside
  | boot file =>
      simp only [DevicePath.names, List.forall_mem_cons] at safe
      rw [DevicePath.text_boot, flat_append, flat_of_safe safe.1]
      rfl
  | crash log_id commit name =>
      simp only [DevicePath.names, List.forall_mem_cons] at safe
      have rest : flat (log_id ++ '_' :: commit ++ '_' :: name) = log_id ++ '_' :: commit ++ '_' :: name := by
        refine flat_of_safe fun c inside => ?_
        simp only [List.mem_append, List.mem_cons] at inside
        rcases inside with (inside | rfl | inside) | rfl | inside
        · exact safe.1 c inside
        · rfl
        · exact safe.2.1 c inside
        · rfl
        · exact safe.2.2.1 c inside
      rw [DevicePath.text_crash, flat_append, rest]
      rfl

/-- The key is the path behind the dongle, with underscores for slashes. -/
theorem key_handler (documented : p.Documented) : (p.handler dongle).key = dongle ++ '_' :: flat p.text := by
  rw [flat_text documented]
  cases p <;>
    simp [DevicePath.handler, Handler.key, DevicePath.text_driving, blob_key, List.append_assoc]

end Incoming

/-- A driving path is no other's, once that has lost its slash. -/
theorem driving_ne {ts rest word tail : Text} (plain : '_' ∉ ts) (no_dash : '-' ∉ word) :
    ts ++ '-' :: rest ≠ word ++ '_' :: tail := by
  intro same
  rcases List.append_eq_append_iff.1 same with ⟨m, is, dash⟩ | ⟨m, is, mark⟩
  · -- the word goes on where the timestamp ends
    cases m with
    | nil => cases dash
    | cons c m =>
        cases dash
        exact no_dash (is ▸ by simp)
  · cases m with
    | nil => cases mark
    | cons c m =>
        cases mark
        exact plain (is ▸ by simp)

/-- Replacing the slashes keeps paths apart. -/
theorem text_of_flat {p q : DevicePath} (documented : p.Documented) (documented' : q.Documented)
    (plain : p.Plain) (plain' : q.Plain) (same : flat p.text = flat q.text) : p.text = q.text := by
  have apart : ∀ (word : Text) {ts file tail : Text} {seg : Nat}, '_' ∉ ts → '-' ∉ word →
      DevicePath.text (.driving ts seg file) ≠ word ++ '_' :: tail := by
    intro word ts file tail seg plain no_dash is
    rw [DevicePath.text_driving, List.append_assoc] at is
    exact driving_ne plain no_dash is
  rw [flat_text documented, flat_text documented'] at same
  cases p with
  | driving ts seg file =>
      have no_mark := plain ts seg file rfl
      cases q with
      | driving ts' seg' file' => exact same
      | boot file' => exact (apart "boot" no_mark (by decide) same).elim
      | crash log_id commit name => exact (apart "crash" no_mark (by decide) same).elim
  | boot file =>
      cases q with
      | driving ts seg file' =>
          exact (apart "boot" (plain' ts seg file' rfl) (by decide) same.symm).elim
      | boot file' => rw [DevicePath.text_boot, DevicePath.text_boot, List.append_cancel_left same]
      | crash log_id commit name => cases congrArg List.head? same
  | crash log_id commit name =>
      cases q with
      | driving ts seg file =>
          exact (apart "crash" (plain' ts seg file rfl) (by decide) same.symm).elim
      | boot file => cases congrArg List.head? same
      | crash log_id' commit' name' => rw [DevicePath.text_crash, DevicePath.text_crash, List.append_cancel_left same]

/-! ## The round trip -/

theorem ok_of_guard {α : Type} {r : AppResult Unit} {a b : α} (ran : (do r; pure a : AppResult α) = .ok b) : a = b := by
  cases r with
  | error e => cases ran
  | ok u => exact Except.ok.inj ran

/-- Every documented path with all its parts, and a segment of 64 bits, comes back as a key
of its own. -/
theorem upload_paths_round_trip (public_url dongle : Text) (safe : Safe dongle) (named : dongle ≠ []) :
    (∀ p : DevicePath, p.Documented → p.Routable → RoundTrips public_url dongle p) ∧
    ∀ p q : DevicePath, p.Documented → q.Documented → p.Plain → q.Plain → p.text ≠ q.text →
      (p.handler dongle).key ≠ (q.handler dongle).key := by
  constructor
  · intro p documented routable
    have routed := route_incoming safe named documented routable
    constructor
    · intro auth url handed
      have is := ok_of_guard handed
      have request := request_path_incoming safe documented public_url [] (.inl rfl)
      rw [List.append_nil] at request
      rw [← is, incoming_eq documented, request]
      exact routed
    · intro auth token paths urls handed i listed
      have is := ok_of_guard handed
      refine ⟨_, by rw [← is, List.getElem?_map, listed]; rfl, ?_⟩
      have query : ("?sig=" ++ token : Text).head? = some '?' := rfl
      have request := request_path_incoming safe documented public_url ("?sig=" ++ token) (.inr query)
      show (request_path public_url (incoming public_url dongle (transform_route_string p.text) ++
        ("?sig=" : Text) ++ token)).bind route = _
      rw [incoming_eq documented, List.append_assoc _ _ token, request]
      exact routed
    · intro shard auth body blobs own absent
      have dongle_of : (p.handler dongle).dongle = dongle := by
        cases p <;> rfl
      unfold Handler.run
      rw [dongle_of, own, key_handler documented]
      show store shard true _ body blobs = _
      unfold store
      rw [absent, if_neg (by simp), if_pos rfl]
  · intro p q documented documented' plain plain' apart same
    rw [key_handler documented, key_handler documented'] at same
    have tails := List.append_cancel_left same
    exact apart (text_of_flat documented documented' plain plain' (List.cons_inj_right _ |>.1 tails))

/-! ## Poles -/

private def far_segment : DevicePath := .driving "t" (2 ^ 63) "qlog.bz2"

private theorem far_segment_documented : far_segment.Documented where
  safe := by decide
  file ts seg file is := by
    cases is
    decide
  log log_id commit name is := by cases is

private def unnamed_boot : DevicePath := .boot []

private theorem unnamed_boot_documented : unnamed_boot.Documented where
  safe := by decide
  file ts seg file is := by cases is
  log log_id commit name is := by cases is

private def the_device : Auth := { identity := "d", device := some { dongle_id := "d" } }

/-- A segment past the numbers of a handler has none, and neither has a boot log without a
name. -/
theorem upload_paths_not_routed :
    (¬ ∀ (public_url dongle : Text) (p : DevicePath), Safe dongle → dongle ≠ [] → p.Documented →
      (∀ name ∈ p.names, name ≠ []) → RoundTrips public_url dongle p) ∧
    ¬ ∀ (public_url dongle : Text) (p : DevicePath), Safe dongle → dongle ≠ [] → p.Documented →
      (∀ ts seg file, p = .driving ts seg file → seg < 2 ^ 63) → RoundTrips public_url dongle p := by
  constructor
  · intro claim
    have routed := (claim "u" "d" far_segment (by decide) (by decide) far_segment_documented
      (by decide)).single the_device _ rfl
    exact absurd routed (by decide)
  · intro claim
    have routed := (claim "u" "d" unnamed_boot (by decide) (by decide) unnamed_boot_documented
      (by intro ts seg file is; cases is)).single the_device _ rfl
    exact absurd routed (by decide)

private def one_qlog : DevicePath := .driving "2024-01-02--03-04-05" 0 "qlog.bz2"

private theorem one_qlog_documented : one_qlog.Documented where
  safe := by decide
  file ts seg file is := by
    cases is
    decide
  log log_id commit name is := by cases is

private theorem one_qlog_routable : one_qlog.Routable where
  nonempty := by decide
  number ts seg file is := by
    cases is
    decide

/-- A drive's log comes back, and a boot log has another key. -/
theorem upload_paths_round_trip_qlog :
    RoundTrips "http://test.local" "1d3" one_qlog ∧
      (one_qlog.handler "1d3").key ≠ (DevicePath.handler "1d3" unnamed_boot).key := by
  obtain ⟨round, apart⟩ := upload_paths_round_trip "http://test.local" "1d3" (by decide) (by decide)
  refine ⟨round _ one_qlog_documented one_qlog_routable,
    apart _ _ one_qlog_documented unnamed_boot_documented ?_ ?_ (by decide)⟩
  · intro ts seg file is
    cases is
    decide
  · intro ts seg file is
    cases is

end HomeConnect.Drives.Upload
