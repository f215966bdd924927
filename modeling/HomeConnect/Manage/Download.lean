/-
# Manage.Download -- what can be downloaded, and what a delete takes out of it

`download` packs the selected types of a drive into an archive: of each segment and type the
first candidate file that is stored.  It goes by the same table of types as `delete`, and by
the blobs that are there, not by the rows' URLs.

So the two fit together: after a delete on the server every download has just what it had
before, less the deleted types, byte for byte (`download_leaves_out_deleted`).
-/
import HomeConnect.Drives.Poles
import HomeConnect.Manage.Derived
import Mathlib.Data.List.Find

namespace HomeConnect.Manage

open HomeConnect.Theory HomeConnect.Storage HomeConnect.Drives HomeConnect.Media HomeConnect.Sync

set_option autoImplicit false

/-! ## The request -/

/-- A file that is offered for a segment and a type. -/
structure Offer where
  seg : Int
  type : Text
  file : Text
deriving DecidableEq, Repr

/-- The name in the archive. -/
def entry_name (ts : Text) (o : Offer) : Text := ts ++ "--" ++ Text.decimal o.seg ++ "/" ++ o.file

def first_stored (env : Env) (dongle ts : Text) (seg : Int) : List Text → Request Op (Option Text)
  | [] => pure none
  | file :: rest => do
      if ← blob_exists env (.segment dongle ts seg file) then pure (some file)
      else first_stored env dongle ts seg rest

/-- Put together what a step finds, over a list. -/
def gather {α : Type} (step : α → Request Op (List Offer)) : List α → Request Op (List Offer)
  | [] => pure []
  | x :: rest => do
      let found ← step x
      let more ← gather step rest
      pure (found ++ more)

def collect_type (env : Env) (dongle ts : Text) (seg : Int) (t : Text) : Request Op (List Offer) :=
  match type_spec t with
  | none => pure []
  | some (names, _) => do
      match ← first_stored env dongle ts seg names with
      | some file => pure [⟨seg, t, file⟩]
      | none => pure []

/-- The selected types that exist. -/
def collect_files (env : Env) (dongle ts : Text) (segs : List Int) (types : List Text) :
    Request Op (List Offer) :=
  gather (fun seg => gather (collect_type env dongle ts seg) types) segs

/-- Open and read the files, in order. -/
def read_offers (env : Env) (dongle ts : Text) : List Offer → Request Op (List (Text × Bytes))
  | [] => pure []
  | o :: rest => do
      let bytes ← blob_get env (.segment dongle ts o.seg o.file)
      let more ← read_offers env dongle ts rest
      pure ((entry_name ts o, bytes) :: more)

/-- The types of a query, comma-separated. -/
def asked (q : Text) : List Text := (Text.split ',' q).filter fun t => decide (t ≠ [])

/-- The archive writer's result. -/
def archived (packed : Option Bytes) : AppResult Bytes :=
  match packed with
  | some bytes => .ok bytes
  | none => .error (.Other "zip")

/-- GET /v1/route/:fullname/download.  `zip` is the archive writer, which may refuse. -/
def download (env : Env) (zip : List (Text × Bytes) → Option Bytes) (user : Accounts.User) (name q : Text) :
    Request Op Bytes := do
  let (dongle, ts) ← Request.of_result (split_fullname name)
  let _ ← can_manage_device user dongle
  let segs ← segment_numbers name
  let files ← collect_files env dongle ts segs (asked q)
  Request.err_if (files = []) (.NotFound "no matching files")
  let entries ← read_offers env dongle ts files
  Request.of_result (archived (zip entries))

/-! ## What is offered -/

/-- What is stored of a segment's file. -/
def stored_file (env : Env) (w : World) (dongle ts : Text) (seg : Int) (file : Text) : Option Bytes :=
  w.blobs.read (env.path (.segment dongle ts seg file))

/-- The file of a segment and a type, with what is in it. -/
def offer (env : Env) (w : World) (dongle ts : Text) (seg : Int) (t : Text) : List (Offer × Bytes) :=
  ((files_of t).find? fun file => (stored_file env w dongle ts seg file).isSome).toList.map fun file =>
    (⟨seg, t, file⟩, (stored_file env w dongle ts seg file).getD [])

def offers (env : Env) (w : World) (dongle ts : Text) (segs : List Int) (types : List Text) :
    List (Offer × Bytes) :=
  segs.flatMap fun seg => types.flatMap (offer env w dongle ts seg)

/-- The answer of a download. -/
def answered (zip : List (Text × Bytes) → Option Bytes) (ts : Text) (files : List (Offer × Bytes)) :
    AppResult Bytes :=
  if files = [] then .error (.NotFound "no matching files")
  else archived (zip (files.map fun f => (entry_name ts f.1, f.2)))

section Alone

variable {env : Env} {w : World} {dongle ts : Text}

theorem alone_first_stored (seg : Int) (names : List Text) :
    alone env (first_stored env dongle ts seg names) w =
      (.ok (names.find? fun file => (stored_file env w dongle ts seg file).isSome), w) := by
  induction names with
  | nil => rfl
  | cons file rest ih =>
      rw [first_stored, alone_bind_ok (alone_blob_exists _ w), List.find?_cons]
      unfold stored_file
      cases there : (w.blobs.read (env.path (.segment dongle ts seg file))).isSome with
      | true => rfl
      | false => exact ih

theorem alone_collect_type (seg : Int) (t : Text) :
    alone env (collect_type env dongle ts seg t) w = (.ok ((offer env w dongle ts seg t).map Prod.fst), w) := by
  unfold collect_type offer files_of
  cases spec : type_spec t with
  | none => rfl
  | some p =>
      obtain ⟨names, col⟩ := p
      dsimp only
      rw [alone_bind_ok (alone_first_stored seg names)]
      simp only [Option.map_some, Option.getD_some]
      cases names.find? fun file => (stored_file env w dongle ts seg file).isSome with
      | none => rfl
      | some file => rfl

theorem alone_gather {α : Type} {step : α → Request Op (List Offer)} {found : α → List (Offer × Bytes)}
    (each : ∀ x, alone env (step x) w = (.ok ((found x).map Prod.fst), w)) (xs : List α) :
    alone env (gather step xs) w = (.ok ((xs.flatMap found).map Prod.fst), w) := by
  induction xs with
  | nil => rfl
  | cons x rest ih =>
      rw [gather, alone_bind_ok (each x), alone_bind_ok ih, List.flatMap_cons, List.map_append]
      rfl

theorem alone_collect_files (segs : List Int) (types : List Text) :
    alone env (collect_files env dongle ts segs types) w =
      (.ok ((offers env w dongle ts segs types).map Prod.fst), w) :=
  alone_gather (fun seg => alone_gather (alone_collect_type seg) types) segs

theorem stored_of_offer {seg : Int} {t : Text} {f : Offer × Bytes} (member : f ∈ offer env w dongle ts seg t) :
    f.1.seg = seg ∧ f.1.type = t ∧ stored_file env w dongle ts f.1.seg f.1.file = some f.2 := by
  unfold offer at member
  obtain ⟨file, found, rfl⟩ := List.mem_map.1 member
  have held := List.find?_some (Option.mem_toList.1 found)
  obtain ⟨bytes, there⟩ := Option.isSome_iff_exists.1 held
  refine ⟨rfl, rfl, ?_⟩
  dsimp only
  rw [there]
  rfl

theorem alone_read_offers {files : List (Offer × Bytes)}
    (stored : ∀ f ∈ files, stored_file env w dongle ts f.1.seg f.1.file = some f.2) :
    alone env (read_offers env dongle ts (files.map Prod.fst)) w =
      (.ok (files.map fun f => (entry_name ts f.1, f.2)), w) := by
  induction files with
  | nil => rfl
  | cons f files ih =>
      rw [List.forall_mem_cons] at stored
      have got : alone env (blob_get env (.segment dongle ts f.1.seg f.1.file)) w = (.ok f.2, w) := by
        have read : w.blobs.read (env.path (.segment dongle ts f.1.seg f.1.file)) = some f.2 := stored.1
        rw [blob_get, alone_bind_ok (alone_select _ w), read]
        rfl
      rw [List.map_cons, read_offers, alone_bind_ok got, alone_bind_ok (ih stored.2)]
      rfl

/-- The answer is an archive of what is offered. -/
theorem alone_download (zip : List (Text × Bytes) → Option Bytes) {user : Accounts.User} {name : Text}
    {device : Accounts.Device} (split : split_fullname name = .ok (dongle, ts))
    (may : alone env (can_manage_device user dongle) w = (.ok device, w)) (q : Text) :
    (alone env (download env zip user name q) w).1 =
      answered zip ts (offers env w dongle ts (numbers w name) (asked q)) := by
  have stored : ∀ f ∈ offers env w dongle ts (numbers w name) (asked q),
      stored_file env w dongle ts f.1.seg f.1.file = some f.2 := by
    intro f member
    obtain ⟨seg, _, inside⟩ := List.mem_flatMap.1 member
    obtain ⟨t, _, offered⟩ := List.mem_flatMap.1 inside
    exact (stored_of_offer offered).2.2
  have routed : alone env (Request.of_result (split_fullname name)) w = (.ok (dongle, ts), w) := by
    rw [split]
    rfl
  have listed : alone env (segment_numbers name) w = (.ok (numbers w name), w) := alone_select _ w
  rw [download, alone_bind_ok routed]
  dsimp only
  rw [alone_bind_ok may, alone_bind_ok listed, alone_bind_ok (alone_collect_files _ _), answered]
  by_cases none : offers env w dongle ts (numbers w name) (asked q) = []
  · rw [if_pos none, none]
    rfl
  · have some_file : (offers env w dongle ts (numbers w name) (asked q)).map Prod.fst ≠ [] := by
      simpa using none
    have passed : alone env (Request.err_if ((offers env w dongle ts (numbers w name)
        (asked q)).map Prod.fst = []) (.NotFound "no matching files")) w = (.ok (), w) := by
      rw [Request.err_if, if_neg some_file]
      rfl
    rw [if_neg none, alone_bind_ok passed, alone_bind_ok (alone_read_offers stored)]
    cases zip _ <;> rfl

end Alone

/-! ## After a delete -/

section Deleted

variable {env : Env} {w w' : World} {dongle ts : Text}

/-- No two types share a file. -/
theorem type_of_file {t t' file : Text} (its : file ∈ files_of t) (its' : file ∈ files_of t') : t = t' := by
  have each : ∀ t ∈ FILE_TYPES, ∀ t' ∈ FILE_TYPES, ∀ file ∈ files_of t, file ∈ files_of t' → t = t' := by
    decide
  exact each t (listed_of_file its) t' (listed_of_file its') file its its'

/-- No write of a delete adds, removes or renumbers a segment's row. -/
theorem rows_of_deletes {name : Text} {types : List Text} {s : Write} (deletes : Deletes name types s)
    (done : s.exec env w = some w') :
    w'.db.segments.rows.map (fun r => (r.canonical_route_name, r.number)) =
      w.db.segments.rows.map fun r => (r.canonical_route_name, r.number) := by
  cases s with
  | set_url d t seg col url =>
      cases done
      apply Table.map_update
      all_goals
        intro r
        simp
  | rm => cases done; rfl
  | blob_delete => cases done; rfl
  | ts_remove => cases done; rfl
  | set_aggregates => cases done; rfl
  | delete_movie => cases done; rfl
  | set_sync_types => cases done; rfl
  | _ => exact deletes.elim

theorem numbers_eq (w : World) (name : Text) :
    numbers w name = (((w.db.segments.rows.map fun r => (r.canonical_route_name, r.number)).filter
      fun p => decide (p.1 = name)).insertionSort fun a b => a.2 ≤ b.2).map Prod.snd := by
  have sorted := List.map_insertionSort (fun a b : Segment => a.number ≤ b.number)
    (fun a b : Text × Int => a.2 ≤ b.2) (fun r => (r.canonical_route_name, r.number))
    (w.db.segments.rows.filter fun s => decide (s.canonical_route_name = name)) fun _ _ _ _ => Iff.rfl
  rw [List.filter_map]
  have there := congrArg (List.map Prod.snd) sorted
  rw [List.map_map] at there
  exact there

theorem numbers_of_delete {user : Accounts.User} {name route : Text} {req : DeleteReq} {reply : DeleteReply}
    (ran : alone env (delete env user name req) w = (.ok reply, w')) : numbers w' route = numbers w route := by
  have rows : (alone env (delete env user name req) w).2.db.segments.rows.map
      (fun r => (r.canonical_route_name, r.number)) =
        w.db.segments.rows.map fun r => (r.canonical_route_name, r.number) :=
    WritesOnly.alone (R := fun w w' : World =>
      w'.db.segments.rows.map (fun r => (r.canonical_route_name, r.number)) =
        w.db.segments.rows.map fun r => (r.canonical_route_name, r.number))
    (fun _ => rfl) (fun first second => second.trans first) rows_of_deletes (fun _ _ => rfl)
    (writes_delete env user name req).only w
  rw [ran] at rows
  rw [numbers_eq, numbers_eq, rows]

/-- The files of one segment and type: all as before, or gone. -/
theorem offer_of_cleared {segs : List Int} {types : List Text} {gone_ts : Text → Prop}
    (cleared : Cleared (Goes env dongle ts segs types) gone_ts w w') {seg : Int} (row : seg ∈ segs) (t : Text) :
    offer env w' dongle ts seg t =
      (offer env w dongle ts seg t).filter fun f => decide (f.1.type ∉ types) := by
  by_cases deleted : t ∈ types
  · have none : offer env w' dongle ts seg t = [] := by
      have gone : (files_of t).find? (fun file => (stored_file env w' dongle ts seg file).isSome) = none := by
        apply List.find?_eq_none.2
        intro file its there
        have goes : Goes env dongle ts segs types (env.path (.segment dongle ts seg file)) :=
          (goes_segment_iff seg file).2 ⟨row, t, deleted, its⟩
        rw [stored_file, cleared.blobs _ goes] at there
        cases there
      rw [offer, gone]
      rfl
    rw [none]
    symm
    apply List.filter_eq_nil_iff.2
    intro f member
    rw [(stored_of_offer member).2.1]
    simp [deleted]
  · have same : ∀ file ∈ files_of t, stored_file env w' dongle ts seg file = stored_file env w dongle ts seg file := by
      intro file its
      apply cleared.other_blobs
      intro goes
      obtain ⟨_, t', asked', its'⟩ := (goes_segment_iff seg file).1 goes
      exact deleted (type_of_file its its' ▸ asked')
    have kept : offer env w' dongle ts seg t = offer env w dongle ts seg t := by
      have first : (files_of t).find? (fun file => (stored_file env w' dongle ts seg file).isSome) =
          (files_of t).find? fun file => (stored_file env w dongle ts seg file).isSome := by
        apply List.find?_congr
        intro file its
        rw [same file its]
      rw [offer, offer, first]
      apply List.map_congr_left
      intro file found
      rw [same file (List.mem_of_find?_eq_some (Option.mem_toList.1 found))]
    rw [kept]
    symm
    apply List.filter_eq_self.2
    intro f member
    rw [(stored_of_offer member).2.1]
    simp [deleted]

/-- Who may manage a device is a matter of the accounts. -/
theorem can_manage_of_accounts {user : Accounts.User} {device : Accounts.Device}
    (same : w'.db.accounts = w.db.accounts)
    (may : alone env (can_manage_device user dongle) w = (.ok device, w)) :
    alone env (can_manage_device user dongle) w' = (.ok device, w') := by
  obtain ⟨known, _⟩ := known_of_can_manage may
  obtain ⟨answer, asked, is⟩ := can_manage_alone env w user device
  obtain ⟨answer', asked', is'⟩ := can_manage_alone env w' user device
  have agree : answer' = answer := by
    rw [Bool.eq_iff_iff, is, is', Shared, Shared, same]
  have loaded : alone env (load_device dongle) w = (.ok (some device), w) := by
    rw [← known]
    exact alone_select _ w
  have loaded' : alone env (load_device dongle) w' = (.ok (some device), w') := by
    rw [← known, ← same]
    exact alone_select _ w'
  rw [can_manage_device, alone_bind_ok loaded] at may
  rw [can_manage_device, alone_bind_ok loaded']
  dsimp only at may ⊢
  rw [alone_bind_ok asked] at may
  rw [alone_bind_ok asked', agree]
  cases answer with
  | false => cases may
  | true => rfl

/-- **A delete takes its types out of every download, and nothing else.**  Whatever types are
asked for, and whoever may ask, the archive before the delete is of all files that are offered,
and the archive after it of those, less the deleted types. -/
theorem download_leaves_out_deleted (zip : List (Text × Bytes) → Option Bytes)
    {deleter user : Accounts.User} {name : Text} {req : DeleteReq} {reply : DeleteReply}
    {device : Accounts.Device} (split : split_fullname name = .ok (dongle, ts))
    (server : req.do_server = true) (ran : alone env (delete env deleter name req) w = (.ok reply, w'))
    (may : alone env (can_manage_device user dongle) w = (.ok device, w)) (q : Text) :
    (alone env (download env zip user name q) w).1 =
        answered zip ts (offers env w dongle ts (numbers w name) (asked q)) ∧
      (alone env (download env zip user name q) w').1 =
        answered zip ts ((offers env w dongle ts (numbers w name) (asked q)).filter
          fun f => decide (f.1.type ∉ req.types)) := by
  refine ⟨alone_download zip split may q, ?_⟩
  obtain ⟨_, cleared⟩ := delete_clears split server ran
  have still := can_manage_of_accounts cleared.accounts may
  rw [alone_download zip split still q, numbers_of_delete ran]
  congr 1
  unfold offers
  rw [List.filter_flatMap]
  apply List.flatMap_congr
  intro seg row
  rw [List.filter_flatMap]
  apply List.flatMap_congr
  intro t _
  exact offer_of_cleared cleared row t

end Deleted

/-! ## Poles -/

private def manager : Accounts.User := { id := 1, identity := "u", username := "u", is_admin := 1 }

private def log_and_video : World :=
  { one_drive (.single (drive_segment 0)) with
    blobs := Dir.write (Dir.write Table.empty (plain_env.path (.segment "d" "t" 0 "qcamera.ts")) [1])
      (plain_env.path (.segment "d" "t" 0 "qlog.bz2")) [2] }

/-- An archive that is the files laid end to end. -/
private def end_to_end (entries : List (Text × Bytes)) : Option Bytes := some (entries.flatMap Prod.snd)

private def without_video : DeleteReq := { types := ["qcamera"] }

/-- A segment's video is deleted, and its log can still be downloaded. -/
theorem download_leaves_out_deleted_video :
    (alone plain_env (download plain_env end_to_end manager "d|t" "qlog,qcamera")
        log_and_video).1 = .ok [2, 1] ∧
      (alone plain_env (download plain_env end_to_end manager "d|t" "qlog,qcamera")
        (alone plain_env (delete plain_env manager "d|t" without_video) log_and_video).2).1 = .ok [2] := by
  have replied : (alone plain_env (delete plain_env manager "d|t" without_video) log_and_video).1 =
      .ok ⟨1, 1, 0⟩ := by decide +kernel
  have ran : alone plain_env (delete plain_env manager "d|t" without_video) log_and_video =
      (.ok ⟨1, 1, 0⟩,
        (alone plain_env (delete plain_env manager "d|t" without_video) log_and_video).2) := by
    rw [← replied]
  have split : split_fullname "d|t" = .ok (("d" : Text), ("t" : Text)) := by decide
  have may : alone plain_env (can_manage_device manager "d") log_and_video =
      (.ok { dongle_id := "d" }, log_and_video) := rfl
  obtain ⟨before, after⟩ :=
    download_leaves_out_deleted end_to_end split (by decide) ran may "qlog,qcamera"
  rw [before, after]
  decide +kernel

end HomeConnect.Manage
