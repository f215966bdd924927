/-
# Sync.Retry -- what becomes of an item when one of its writes is refused

A failed write is only logged; the next scan is to find the file again.  A scan goes by the
URL of the file's column, and that is set in the middle: a write refused before it leaves the
file to be taken again, one refused after it does not.  What was left out then stays out: an
artifact, the model, or the sums of the route.

Which writes are carried out when the `n`-th one is refused is `carried_out`, a part of the
plan.  All the file needs is there in the end, or the file is taken again, exactly when the
carried-out writes and what was there before make it so (`there_or_retried_iff`).
-/
import HomeConnect.Drives.Poles
import HomeConnect.Sync.Converge
import HomeConnect.Sync.Plan

namespace HomeConnect.Sync

open HomeConnect.Theory HomeConnect.Storage HomeConnect.Drives

set_option autoImplicit false

/-- Process an item by itself, its `n`-th write to the database or the blob store refused;
`none` when it does not come to that many. -/
def process_but (env : Env) (n : Nat) (it : QueueItem) (w : World) : Option World :=
  match (processing env it).run (process_item env it).run (some n) w with
  | (_, w', none) => some w'
  | (_, _, some _) => none

/-- The file is on the listing and wanted under the settings. -/
def OnListing (env : Env) (device : Accounts.Device) (opts : SyncOpts) (listing : Text)
    (db : Storage.Db) (it : QueueItem) : Prop :=
  ∃ line ∈ Text.lines listing,
    scan_line device opts { scan_state env device.dongle_id db with reg := [] } line = some it

/-- The bytes of the item's file: those in the store, or those on the device. -/
def file_body (env : Env) (it : QueueItem) (w : World) : Option Bytes :=
  match w.blobs.read (env.path it.name) with
  | some body => some body
  | none => pulled it w

/-- What is derived from a file. -/
def derived_files (env : Env) (it : QueueItem) (body : Bytes) : List (Text × Bytes) :=
  (if Text.contains it.file "qlog" then
    match env.parse it.file body with
    | .ok acc => acc.artifacts env
    | .error _ => []
  else []) ++
  (if Text.contains it.file "rlog" then
    match env.extract_model it.file body with
    | some json => [(("model.json" : Text), json)]
    | none => []
  else [])

/-- All that the file is to come to: its blob, what is derived from it, its URL, and the
aggregates of its route, which are the sums of the rows. -/
structure AllThere (env : Env) (it : QueueItem) (body : Bytes) (w : World) : Prop where
  blob : w.blobs.read (env.path it.name) = some body
  derived : ∀ a ∈ derived_files env it body,
    w.blobs.read (env.path (.segment it.dongle it.ts it.seg a.1)) = some a.2
  url : ∃ col, column it.file = some col ∧ HasUrl w.db (canonical it.dongle it.ts it.seg) col
  route : HasRoute w.db it.dongle it.ts
  sums : Summed w.db it.dongle it.ts

/-- The column that a scan looks at for a file. -/
def scan_column (file : Text) : Option UrlCol :=
  if Text.contains file "qlog" then some .qlog
  else if Text.contains file "qcamera" then some .qcam
  else if Text.contains file "fcamera" then some .fcam
  else if Text.contains file "dcamera" then some .dcam
  else if Text.contains file "ecamera" then some .ecam
  else if Text.contains file "rlog" then some .rlog
  else none

/-! ## The condition -/

/-- The writes that are carried out when the `n`-th is refused. -/
def carried_out (env : Env) (it : QueueItem) (w : World) (n : Nat) : List Piece :=
  (processing env it).left (plan env it w) n

/-- The URL that a scan looks at was not set before, and is not among what is carried out. -/
def Unregistered (it : QueueItem) (w : World) (l : List Piece) : Prop :=
  ∀ col, scan_column it.file = some col →
    ¬ HasUrl w.db (canonical it.dongle it.ts it.seg) col ∧ ∀ url, .url col url ∉ l

/-- What the file needs is carried out, or was there before. -/
structure Made (env : Env) (it : QueueItem) (body : Bytes) (w : World) (l : List Piece) : Prop where
  blob : .blob body ∈ l ∨ w.blobs.read (env.path it.name) = some body
  derived : ∀ a ∈ derived_files env it body, .derived a.1 a.2 ∈ l ∨
    w.blobs.read (env.path (.segment it.dongle it.ts it.seg a.1)) = some a.2
  url : ∃ col, column it.file = some col ∧
    ((∃ url, .url col url ∈ l) ∨ HasUrl w.db (canonical it.dongle it.ts it.seg) col)
  route : .route ∈ l ∨ HasRoute w.db it.dongle it.ts
  /-- The sums are written, or the old ones are those of the rows as they are left. -/
  sums : (∃ vital, .sums vital ∈ l) ∨
    let rows := ((processing env it).carried l w).db.route_segments (fullname it.dongle it.ts)
    rows ≠ [] → (route_of w.db it.dongle it.ts).aggregates = aggregate rows

section Carried

variable {env : Env} {it : QueueItem} {w w' s : World} {l : List Piece}

/-! ## What a list of pieces does -/

/-- All that the pieces assign. -/
def effects (it : QueueItem) (l : List Piece) : Effect where
  urls k v := ∃ p ∈ l, (p.effect it).urls k v
  data n d := ∃ p ∈ l, (p.effect it).data n d
  rows n := ∃ p ∈ l, (p.effect it).rows n
  route := ∃ p ∈ l, (p.effect it).route
  sums := ∃ p ∈ l, (p.effect it).sums
  cameras n cam := ∃ p ∈ l, (p.effect it).cameras n cam

theorem registers_carried (goes : (processing env it).Goes l s) :
    Registers env it.dongle it.ts (effects it l) s ((processing env it).carried l s) := by
  induction l generalizing s with
  | nil =>
      have none : Registers env it.dongle it.ts {} s s := .refl s
      exact none.congr (by simp [effects]) (by simp [effects]) (by simp [effects]) (by simp [effects])
        (by simp) (by simp [effects])
  | cons p l ih =>
      have both := (registers_piece goes.1).trans (ih goes.2)
      exact both.congr (by simp [Effect.or, effects]) (by simp [Effect.or, effects])
        (by simp [Effect.or, effects]) (by simp [Effect.or, effects]) (by simp [Effect.or, effects])
        (by simp [Effect.or, effects])

theorem some_url_of_goes (goes : (processing env it).Goes l s) {col : UrlCol} {url : Text}
    (member : .url col url ∈ l) : url ≠ [] := by
  induction l generalizing s with
  | nil => cases member
  | cons p l ih =>
      rcases List.mem_cons.1 member with rfl | later
      · exact (goes.1.rows col url rfl).2
      · exact ih goes.2 later

theorem effects_url (k : Int × UrlCol) (v : Text) :
    (effects it l).urls k v ↔ k.1 = it.seg ∧ .url k.2 v ∈ l := by
  obtain ⟨n, col⟩ := k
  constructor
  · rintro ⟨p, member, is⟩
    cases p with
    | url c u =>
        obtain ⟨same, rfl⟩ : (n, col) = (it.seg, c) ∧ v = u := is
        cases same
        exact ⟨rfl, member⟩
    | _ => exact is.elim
  · rintro ⟨rfl, member⟩
    exact ⟨_, member, rfl, rfl⟩

/-- A URL is set that was set before or is among the pieces. -/
theorem hasUrl_carried (goes : (processing env it).Goes l w) (col : UrlCol) :
    HasUrl ((processing env it).carried l w).db (canonical it.dongle it.ts it.seg) col ↔
      HasUrl w.db (canonical it.dongle it.ts it.seg) col ∨ ∃ url, .url col url ∈ l := by
  rw [hasUrl_iff, hasUrl_iff]
  rcases (registers_carried goes).urls (it.seg, col) with assigned | ⟨unassigned, kept⟩
  · obtain ⟨_, member⟩ := (effects_url _ _).1 assigned
    exact iff_of_true (some_url_of_goes goes member) (.inr ⟨_, member⟩)
  · dsimp only at kept
    rw [kept]
    refine (or_iff_left ?_).symm
    rintro ⟨url, member⟩
    exact unassigned url ((effects_url _ _).2 ⟨rfl, member⟩)

theorem hasRoute_carried (goes : (processing env it).Goes l w) :
    HasRoute ((processing env it).carried l w).db it.dongle it.ts ↔
      .route ∈ l ∨ HasRoute w.db it.dongle it.ts := by
  rw [(registers_carried goes).route, or_comm]
  refine or_congr_left ⟨?_, fun member => ⟨_, member, trivial⟩⟩
  rintro ⟨p, member, is⟩
  cases p with
  | route => exact member
  | _ => exact is.elim

/-- Without the sums among the pieces the aggregates are the old ones. -/
theorem aggregates_carried (goes : (processing env it).Goes l w) (none : ∀ vital, .sums vital ∉ l) :
    (route_of ((processing env it).carried l w).db it.dongle it.ts).aggregates =
      (route_of w.db it.dongle it.ts).aggregates := by
  refine (registers_carried goes).sums ?_
  rintro ⟨p, member, is⟩
  cases p with
  | sums vital => exact none vital member
  | _ => exact is.elim

/-! ### The store -/

/-- Where a piece stores what. -/
def Piece.put (env : Env) (it : QueueItem) : Piece → Option (BlobPath × Bytes)
  | .blob bytes => some (env.path it.name, bytes)
  | .derived file bytes => some (env.path (.segment it.dongle it.ts it.seg file), bytes)
  | _ => none

theorem blobs_carry {p : Piece} (ready : p.Ready env it s) :
    ((processing env it).carry p s).blobs =
      match p.put env it with
      | some (path, bytes) => s.blobs.write path bytes
      | none => s.blobs := by
  rw [Write.exec_blobs ready.exec]
  cases p <;> rfl

/-- A file is stored with these bytes that was so before or is among the pieces, when no piece
stores anything else there. -/
theorem read_carried (goes : (processing env it).Goes l w) {path : BlobPath} {bytes : Bytes}
    (only : ∀ p ∈ l, ∀ b, p.put env it = some (path, b) → b = bytes) :
    ((processing env it).carried l w).blobs.read path = some bytes ↔
      (∃ p ∈ l, p.put env it = some (path, bytes)) ∨ w.blobs.read path = some bytes := by
  induction l generalizing w with
  | nil => simp
  | cons p l ih =>
      rw [Scripting.carried_cons, ih goes.2 fun q later => only q (List.mem_cons_of_mem _ later),
        blobs_carry goes.1, List.exists_mem_cons_iff, or_comm (a := p.put env it = _), or_assoc]
      refine or_congr_right ?_
      cases put : p.put env it with
      | none => simp
      | some at_path =>
          obtain ⟨there, b⟩ := at_path
          dsimp only
          rw [Dir.read_write]
          by_cases here : path = there
          · subst here
            have same := only p List.mem_cons_self b put
            simp [same]
          · rw [if_neg here]
            refine (or_iff_right fun is => here ?_).symm
            exact (congrArg Prod.fst (Option.some.inj is)).symm

/-! ### The sums -/

/-- A piece that touches no row of the segments, and no sum. -/
def Piece.quiet : Piece → Bool
  | .blob _ | .used _ | .derived .. | .info _ | .gps .. => true
  | _ => false

theorem summed_quiet {p : Piece} (quiet : p.quiet = true) (ready : p.Ready env it s)
    (summed : Summed s.db it.dongle it.ts) :
    Summed ((processing env it).carry p s).db it.dongle it.ts := by
  have done := ready.exec
  cases p with
  | info columns => exact summed.set_meta done
  | blob | used | derived | gps =>
      have kept := Write.framed done
      unfold Summed Db.route_segments at summed ⊢
      rwa [kept.segments (by simp [Piece.write, Write.part]),
        kept.routes (by simp [Piece.write, Write.part])]
  | route | data | row | url | sums => cases quiet

theorem summed_sums {vital : Bool} (ready : Piece.Ready env it (.sums vital) s) :
    Summed ((processing env it).carry (.sums vital) s).db it.dongle it.ts := by
  have done := ready.exec
  generalize (processing env it).carry (.sums vital) s = s' at done ⊢
  cases done
  intro _ r found
  rw [Table.get?_update] at found
  obtain ⟨r₀, old, rfl⟩ := Option.map_eq_some_iff.1 found
  rw [if_pos (decide_eq_true (Table.key_of_get? old))]
  rfl

/-- After the sums nothing moves the rows. -/
def Settles (l : List Piece) : Prop :=
  l.Pairwise fun p q => (∃ vital, p = .sums vital) → q.quiet = true

theorem summed_carried (settles : Settles l) (goes : (processing env it).Goes l w) {vital : Bool}
    (member : .sums vital ∈ l) : Summed ((processing env it).carried l w).db it.dongle it.ts := by
  obtain ⟨pre, post, rfl⟩ := List.append_of_mem member
  rw [Scripting.goes_append] at goes
  rw [Scripting.carried_append, Scripting.carried_cons]
  have quiet : ∀ q ∈ post, q.quiet = true := by
    intro q later
    have after := (List.pairwise_cons.1 (List.pairwise_append.1 settles).2.1).1
    exact after q later ⟨vital, rfl⟩
  have summed := summed_sums goes.2.1
  have rest := goes.2.2
  clear goes settles member
  -- what comes after the sums keeps them
  generalize (processing env it).carry (.sums vital) ((processing env it).carried pre w) = s at summed rest ⊢
  induction post generalizing s with
  | nil => exact summed
  | cons q post ih =>
      exact ih (fun p later => quiet p (List.mem_cons_of_mem _ later)) _
        (summed_quiet (quiet q List.mem_cons_self) rest.1 summed) rest.2

end Carried

/-! ## What the plan holds -/

section Planned

variable {env : Env} {it : QueueItem} {w : World} {body : Bytes} {p : Piece}

/-- A piece that only assigns to rows. -/
def Piece.assigns (p : Piece) : Prop := p = .route ∨ p = .row ∨ (∃ values, p = .data values) ∨
  ∃ col url, p = .url col url

theorem mem_file_pieces {file : Text} (member : p ∈ file_pieces env it file) : p.assigns := by
  unfold file_pieces at member
  cases kind : file_kind file with
  | none =>
      rw [kind] at member
      cases member
  | some k =>
      rw [kind] at member
      simp only [List.mem_cons, List.not_mem_nil, or_false] at member
      rcases member with rfl | rfl | rfl
      · exact .inl rfl
      · exact .inr (.inl rfl)
      · exact .inr (.inr (.inr ⟨_, _, rfl⟩))

theorem mem_row_pieces {acc : Accum} (member : p ∈ .route :: .data acc.data ::
    file_pieces env it it.file ++ CAMERA_FILES.flatMap (sibling_pieces env it w)) : p.assigns := by
  rcases List.mem_append.1 member with own | beside
  · rcases List.mem_cons.1 own with rfl | own
    · exact .inl rfl
    · rcases List.mem_cons.1 own with rfl | own
      · exact .inr (.inr (.inl ⟨_, rfl⟩))
      · exact mem_file_pieces own
  · obtain ⟨cam, _, member⟩ := List.mem_flatMap.1 beside
    unfold sibling_pieces at member
    split at member
    · exact mem_file_pieces member
    · cases member

theorem mem_artifact_pieces {acc : Accum} (member : p ∈ artifact_pieces env acc) :
    ∃ a ∈ acc.artifacts env, p = .derived a.1 a.2 := by
  obtain ⟨a, listed, rfl⟩ := List.mem_map.1 member
  exact ⟨a, listed, rfl⟩

theorem mem_model_pieces (member : p ∈ model_pieces env it body) :
    ∃ a ∈ derived_files env it body, p = .derived a.1 a.2 := by
  unfold model_pieces at member
  split at member
  · rename_i rlog
    cases model : env.extract_model it.file body with
    | none =>
        rw [model] at member
        cases member
    | some json =>
        rw [model] at member
        obtain rfl := List.mem_singleton.1 member
        refine ⟨(("model.json" : Text), json), List.mem_append_right _ ?_, rfl⟩
        rw [if_pos rlog, model]
        exact List.mem_singleton.2 rfl
  · cases member

theorem mem_later_pieces (member : p ∈ later_pieces env it body) :
    ∃ a ∈ derived_files env it body, p = .derived a.1 a.2 := by
  unfold later_pieces at member
  cases result : register_result env it body with
  | error e =>
      rw [result] at member
      cases member
  | ok _ =>
      rw [result] at member
      exact mem_model_pieces member

/-- The registration has its rows, then the sums, then what moves no row. -/
structure Shape (env : Env) (it : QueueItem) (body : Bytes) (l rows sums rest : List Piece) : Prop where
  whole : l = rows ++ sums ++ rest
  rows : ∀ p ∈ rows, p.assigns ∨ ∃ a ∈ derived_files env it body, p = .derived a.1 a.2
  sums : sums = [] ∨ ∃ vital, sums = [.sums vital]
  rest : ∀ p ∈ rest, p.quiet = true ∧
    (p.put env it ≠ none → ∃ a ∈ derived_files env it body, p = .derived a.1 a.2)

theorem sum_pieces_cases (vital : Bool) :
    sum_pieces it w vital = [] ∨ ∃ ends, sum_pieces it w vital = [.sums ends] := by
  unfold sum_pieces
  split
  · exact .inr ⟨_, rfl⟩
  · exact .inl rfl

theorem register_shape (env : Env) (it : QueueItem) (w : World) (body : Bytes) :
    ∃ rows sums rest, Shape env it body (register_pieces env it w body) rows sums rest := by
  unfold register_pieces
  split
  · rename_i qlog
    cases parsed : env.parse it.file body with
    | error e =>
        exact ⟨[], [], [], rfl, fun p no => (List.not_mem_nil no).elim, .inl rfl,
          fun p no => (List.not_mem_nil no).elim⟩
    | ok acc =>
        refine ⟨artifact_pieces env acc ++ (.route :: .data acc.data :: file_pieces env it it.file ++
          CAMERA_FILES.flatMap (sibling_pieces env it w)), sum_pieces it w true,
          [.info (info_of acc)] ++ gps_pieces acc, ?_, ?_, sum_pieces_cases true, ?_⟩
        · simp only [qlog_pieces, List.append_assoc]
        · intro p member
          rcases List.mem_append.1 member with artifact | row
          · obtain ⟨a, listed, rfl⟩ := mem_artifact_pieces artifact
            refine .inr ⟨a, List.mem_append_left _ ?_, rfl⟩
            rw [if_pos qlog, parsed]
            exact listed
          · exact .inl (mem_row_pieces row)
        · intro p member
          rcases List.mem_append.1 member with info | gps
          · obtain rfl := List.mem_singleton.1 info
            exact ⟨rfl, fun no => (no rfl).elim⟩
          · unfold gps_pieces at gps
            cases last : acc.last_gps with
            | none =>
                rw [last] at gps
                cases gps
            | some place =>
                rw [last] at gps
                obtain rfl := List.mem_singleton.1 gps
                exact ⟨rfl, fun no => (no rfl).elim⟩
  · exact ⟨_, _, [], (List.append_nil _).symm, fun p member => .inl (mem_file_pieces member),
      sum_pieces_cases false, fun p no => (List.not_mem_nil no).elim⟩

/-- What an item stores is its file and what is derived from it. -/
theorem plan_stores (is : file_body env it w = some body) {path : BlobPath} {bytes : Bytes}
    (member : p ∈ plan env it w) (put : p.put env it = some (path, bytes)) :
    p = .blob body ∨ ∃ a ∈ derived_files env it body, p = .derived a.1 a.2 := by
  have registered : p ∈ register_pieces env it w body →
      ∃ a ∈ derived_files env it body, p = .derived a.1 a.2 := by
    intro member
    obtain ⟨rows, sums, rest, shape⟩ := register_shape env it w body
    rw [shape.whole] at member
    rcases List.mem_append.1 member with first | later
    · rcases List.mem_append.1 first with row | sum
      · rcases shape.rows p row with (rfl | rfl | ⟨_, rfl⟩ | ⟨_, _, rfl⟩) | derived
        · cases put
        · cases put
        · cases put
        · cases put
        · exact derived
      · rcases shape.sums with rfl | ⟨vital, rfl⟩
        · cases sum
        · obtain rfl := List.mem_singleton.1 sum
          cases put
    · exact (shape.rest p later).2 (by rw [put]; exact Option.some_ne_none _)
  unfold file_body at is
  unfold plan at member
  cases stored : w.blobs.read (env.path it.name) with
  | some found =>
      rw [stored] at is member
      cases is
      exact .inr (registered member)
  | none =>
      rw [stored] at is member
      dsimp only at is member
      rw [is] at member
      rcases List.mem_append.1 member with first | model
      · rcases List.mem_cons.1 first with rfl | first
        · exact .inl rfl
        · rcases List.mem_cons.1 first with rfl | first
          · cases put
          · exact .inr (registered first)
      · exact .inr (mem_later_pieces model)

theorem settles_of_shape {rows sums rest : List Piece} (rows_none : ∀ p ∈ rows, ∀ vital, p ≠ .sums vital)
    (one : sums = [] ∨ ∃ vital, sums = [.sums vital]) (quiet : ∀ p ∈ rest, p.quiet = true) :
    Settles (rows ++ sums ++ rest) := by
  refine List.pairwise_append.2 ⟨List.pairwise_append.2 ⟨?_, ?_, ?_⟩, ?_, ?_⟩
  · refine List.pairwise_of_forall_mem_list fun p member q _ => ?_
    rintro ⟨vital, is⟩
    exact (rows_none p member vital is).elim
  · rcases one with rfl | ⟨vital, rfl⟩
    · exact List.Pairwise.nil
    · exact List.pairwise_singleton _ _
  · rintro p member q _ ⟨vital, is⟩
    exact (rows_none p member vital is).elim
  · exact List.pairwise_of_forall_mem_list fun p _ q member _ => quiet q member
  · intro p _ q member _
    exact quiet q member

theorem settles_plan (env : Env) (it : QueueItem) (w : World) : Settles (plan env it w) := by
  have no_sums : ∀ {body rows sums rest l}, Shape env it body l rows sums rest →
      ∀ p ∈ rows, ∀ vital, p ≠ Piece.sums vital := by
    rintro body rows sums rest l shape p member vital rfl
    rcases shape.rows _ member with (no | no | ⟨_, no⟩ | ⟨_, _, no⟩) | ⟨_, _, no⟩ <;> cases no
  unfold plan
  cases w.blobs.read (env.path it.name) with
  | some body =>
      obtain ⟨rows, sums, rest, shape⟩ := register_shape env it w body
      dsimp only
      rw [shape.whole]
      exact settles_of_shape (no_sums shape) shape.sums fun p member => (shape.rest p member).1
  | none =>
      cases pulled it w with
      | none => exact List.Pairwise.nil
      | some body =>
          obtain ⟨rows, sums, rest, shape⟩ := register_shape env it w body
          have parts : ingest_pieces env it w body = (.blob body :: .used body.length :: rows) ++ sums ++
              (rest ++ later_pieces env it body) := by
            rw [ingest_pieces, shape.whole]
            simp only [List.cons_append, List.append_assoc]
          dsimp only
          rw [parts]
          refine settles_of_shape ?_ shape.sums ?_
          · intro p member vital
            rcases List.mem_cons.1 member with rfl | member
            · exact fun no => by cases no
            · rcases List.mem_cons.1 member with rfl | member
              · exact fun no => by cases no
              · exact no_sums shape p member vital
          · intro p member
            rcases List.mem_append.1 member with later | model
            · exact (shape.rest p later).1
            · obtain ⟨a, _, rfl⟩ := mem_later_pieces model
              rfl

/-! ### The names of what is derived -/

theorem artifact_names (env : Env) (acc : Accum) :
    ((acc.artifacts env).map Prod.fst).Sublist ARTIFACTS := by
  have parts : ARTIFACTS = [("coords.json" : Text)] ++ [("events.json" : Text)] ++
      [("telemetry.json" : Text)] ++ [("sprite.jpg" : Text)] := rfl
  have some_or_none : ∀ (c : Prop) [Decidable c] (a : Text × Bytes),
      ((if c then [] else [a]).map Prod.fst).Sublist [a.1] := by
    intro c _ a
    split
    · exact List.nil_sublist _
    · exact List.Sublist.refl _
  rw [parts, Accum.artifacts, List.map_append, List.map_append, List.map_append]
  refine (((some_or_none _ _).append (some_or_none _ _)).append (some_or_none _ _)).append ?_
  split
  · exact List.nil_sublist _
  · cases env.build_sprite acc.thumbnails with
    | none => exact List.nil_sublist _
    | some sprite => exact List.Sublist.refl _

theorem derived_names (env : Env) (it : QueueItem) (body : Bytes) :
    ((derived_files env it body).map Prod.fst).Sublist (ARTIFACTS ++ [("model.json" : Text)]) := by
  rw [derived_files, List.map_append]
  refine List.Sublist.append ?_ ?_
  · split
    · cases env.parse it.file body with
      | error e => exact List.nil_sublist _
      | ok acc => exact artifact_names env acc
    · exact List.nil_sublist _
  · split
    · cases env.extract_model it.file body with
      | none => exact List.nil_sublist _
      | some json => exact List.Sublist.refl _
    · exact List.nil_sublist _

theorem derived_listed {a : Text × Bytes} (member : a ∈ derived_files env it body) :
    a.1 ∈ ("model.json" : Text) :: ARTIFACTS := by
  have listed := (derived_names env it body).subset (List.mem_map_of_mem (f := Prod.fst) member)
  rcases List.mem_append.1 listed with artifact | model
  · exact List.mem_cons_of_mem _ artifact
  · exact List.mem_singleton.1 model ▸ List.mem_cons_self

theorem derived_unique {a b : Text × Bytes} (member : a ∈ derived_files env it body)
    (member' : b ∈ derived_files env it body) (same : a.1 = b.1) : a = b := by
  have distinct : (ARTIFACTS ++ [("model.json" : Text)]).Nodup := by decide
  exact List.inj_on_of_nodup_map (distinct.sublist (derived_names env it body)) member member' same

end Planned

/-! ## A run in which a write is refused -/

section Refused

variable {env : Env} {it : QueueItem} {w w' : World} {n : Nat}

/-- What is left of the database and the store is what the carried-out writes leave. -/
theorem process_but_some (kind : (file_kind it.file).isSome)
    (known : (w.db.accounts.devices.get? it.dongle).isSome) (ran : process_but env n it w = some w') :
    (∃ p, (plan env it w)[n]? = some p) ∧ (processing env it).Goes (carried_out env it w n) w ∧
      w'.db = ((processing env it).carried (carried_out env it w n) w).db ∧
      w'.blobs = ((processing env it).carried (carried_out env it w n) w).blobs := by
  have scripted : ∃ r J, Scripted env it (fun s => s = w) J _ r (plan env it w) :=
    script_processing kind known
  generalize is : (if (w.blobs.read (env.path it.name)).isSome then register_on_disk env it
    else pull_and_ingest env it) = first at scripted
  obtain ⟨r, J, script⟩ := scripted
  -- the pruning comes to no write that can be refused
  have plain : ∀ r n s, (processing env it).run (prune_if_ok env it r).run n s =
      ((alone env (prune_if_ok env it r) s).1, (alone env (prune_if_ok env it r) s).2, n) := by
    intro r n s
    refine Scripting.run_plain _ (Prog.Uses.mono (writes_prune_only_rm r) ?_) n s
    intro β f only
    cases f with
    | write s =>
        obtain ⟨d, p, rfl⟩ := only s rfl
        rfl
    | _ => rfl
  have whole : (processing env it).run (process_item env it).run (some n) w =
      (processing env it).run (prune_if_ok env it ((processing env it).run first.run (some n) w).1).run
        ((processing env it).run first.run (some n) w).2.2
        ((processing env it).run first.run (some n) w).2.1 := by
    have then_prune : ∀ p : Request Op Unit,
        (Request.capture p >>= prune_if_ok env it).run =
          p.run >>= fun r => (prune_if_ok env it r).run := by
      intro p
      rw [Request.run_bind, Request.run_capture, Prog.bind_assoc]
      rfl
    have looked : ∀ n, (processing env it).run (blob_exists env it.name).run n w =
        (.ok (w.blobs.read (env.path it.name)).isSome, w, n) := fun n => rfl
    rw [process_item, Request.run_bind, Scripting.run_bind, looked, ← is]
    dsimp only
    split
    · rw [then_prune, Scripting.run_bind]
    · rw [then_prune, Scripting.run_bind]
  unfold process_but at ran
  rw [whole, plain] at ran
  cases refused : (processing env it).run first.run (some n) w with
  | mk r' rest =>
      obtain ⟨s', left⟩ := rest
      rw [refused] at ran
      cases left with
      | some m => cases ran
      | none =>
          cases ran
          obtain ⟨p, at_n, rfl, goes⟩ := script.of_refused rfl refused
          refine ⟨⟨p, at_n⟩, goes, ?_⟩
          cases r' with
          | error e => exact ⟨rfl, rfl⟩
          | ok u => exact prune_keeps _

/-- The scan finds a file registered when the URL it looks at is set. -/
theorem registered_iff_column {db : Storage.Db} (named : Named db) {dongle : Text} (clean : '|' ∉ dongle)
    {file : Text} {col : UrlCol} (is : scan_column file = some col) (ts : Text) (seg : Int) :
    registered (lookup (load_registration dongle db) (canonical dongle ts seg)) file = true ↔
      HasUrl db (canonical dongle ts seg) col := by
  have flag : ∀ reg : Reg, registered (some reg) file = reg.flag col := by
    intro reg
    unfold scan_column at is
    unfold registered
    split_ifs at is ⊢ <;> cases is <;> rfl
  rw [lookup_registration named clean, HasUrl]
  cases db.segments.get? (canonical dongle ts seg) with
  | none => simp [registered]
  | some s => simp [flag, flag_of_segment]

/-- A wanted file is looked for in some column. -/
theorem scan_column_of_wanted {file : Text} {types : List Text} (want : wanted file types = true) :
    ∃ col, scan_column file = some col := by
  unfold wanted at want
  unfold scan_column
  split_ifs with qlog qcam fcam dcam ecam rlog
  case neg =>
    -- no token is in it
    rw [if_neg qlog] at want
    cases type : file_type file with
    | none =>
        rw [type] at want
        cases want
    | some t =>
        have holds : Text.contains file t = true := by simpa using List.find?_some type
        have listed := List.mem_of_find?_eq_some type
        simp only [OPTIONAL_TYPES, List.mem_cons, List.not_mem_nil, or_false] at listed
        rcases listed with rfl | rfl | rfl | rfl | rfl
        · exact (qcam holds).elim
        · exact (fcam holds).elim
        · exact (dcam holds).elim
        · exact (ecam holds).elim
        · exact (rlog holds).elim
  all_goals exact ⟨_, rfl⟩

theorem scans_carried {l : List Piece} (goes : (processing env it).Goes l w) :
    Scans w ((processing env it).carried l w) := by
  induction l generalizing w with
  | nil => exact .refl w
  | cons p l ih =>
      have syncs : SyncWrite it (p.write it w.db) := by
        cases p with
        | blob bytes => exact .inl (.inr ⟨it.file, bytes, rfl, .inl rfl⟩)
        | derived file bytes =>
            rcases List.mem_cons.1 (goes.1.listed file bytes rfl) with rfl | artifact
            · exact .inl (.inr ⟨_, bytes, rfl, .inr rfl⟩)
            · exact .inl (.inl ⟨file, artifact, rfl⟩)
        | used | gps => exact .inl (.inl trivial)
        | route => exact .inl (.inl ⟨rfl, rfl⟩)
        | data | row | url => exact .inl (.inl ⟨rfl, rfl, rfl⟩)
        | sums | info => exact .inl (.inl rfl)
      exact (Scans.exec syncs goes.1.exec).trans (ih goes.2)

end Refused

/-! ## The scan that follows -/

section Next

variable {env : Env} {device : Accounts.Device} {opts : SyncOpts} {listing : Text} {it : QueueItem}
  {w w' : World}

theorem scan_line_listed {st : ScanState} {line : Text} : scan_line device opts st line = some it ↔
    scan_line device opts { st with reg := [] } line = some it ∧
      registered (lookup st.reg (canonical it.dongle it.ts it.seg)) it.file = false := by
  have none_known : ∀ name file, registered (lookup ([] : List (Text × Reg)) name) file = false :=
    fun _ _ => rfl
  rw [scan_line_some, scan_line_some]
  constructor
  · rintro ⟨ts, seg, file, parsed, route, want, unknown, rfl⟩
    exact ⟨⟨ts, seg, file, parsed, route, want, none_known _ _, rfl⟩, unknown⟩
  · rintro ⟨⟨ts, seg, file, parsed, route, want, _, rfl⟩, unknown⟩
    exact ⟨ts, seg, file, parsed, route, want, unknown, rfl⟩

/-- What is known of an item that a scan can take. -/
theorem of_listed {db : Storage.Db} (listed : OnListing env device opts listing db it) :
    it.dongle = device.dongle_id ∧ (file_kind it.file).isSome ∧ ∃ col, scan_column it.file = some col := by
  obtain ⟨line, _, takes⟩ := listed
  obtain ⟨ts, seg, file, _, _, want, _, rfl⟩ := scan_line_some.1 takes
  obtain ⟨col, is⟩ := column_of_wanted want
  obtain ⟨p, kind, _⟩ := Option.map_eq_some_iff.1 is
  exact ⟨rfl, Option.isSome_iff_exists.2 ⟨p, kind⟩, scan_column_of_wanted want⟩

/-- With the settings as they are the file is on the listing as before, so that it is taken
unless it is registered. -/
theorem taken_iff (named : Named w.db) (clean : '|' ∉ device.dongle_id) (scans : Scans w w')
    (listed : OnListing env device opts listing w.db it) {col : UrlCol} (is : scan_column it.file = some col) :
    it ∈ taken env device opts listing w'.db ↔ ¬ HasUrl w'.db (canonical it.dongle it.ts it.seg) col := by
  have own := (of_listed listed).1
  rw [← registered_iff_column (scans.named named) (own ▸ clean) is it.ts it.seg, Bool.not_eq_true, mem_taken]
  constructor
  · rintro ⟨line, _, takes⟩
    rw [own]
    rw [scan_line_listed, own] at takes
    exact takes.2
  · intro unknown
    obtain ⟨line, member, takes⟩ := listed
    refine ⟨line, member, scan_line_listed.2 ⟨?_, ?_⟩⟩
    · rw [scan_line_some] at takes ⊢
      obtain ⟨ts, seg, file, parsed, route, want, unknown', same⟩ := takes
      refine ⟨ts, seg, file, parsed, route, ?_, unknown', same⟩
      rw [← want]
      exact congrArg (wanted file) (types_kept named clean scans opts.types ts)
    · rw [own] at unknown ⊢
      exact unknown

end Next

/-! ## There, or taken again -/

section There

variable {env : Env} {it : QueueItem} {body : Bytes} {w : World} {l : List Piece}

theorem blob_there (kind : (file_kind it.file).isSome) (is : file_body env it w = some body)
    (planned : ∀ p ∈ l, p ∈ plan env it w) (goes : (processing env it).Goes l w) :
    ((processing env it).carried l w).blobs.read (env.path it.name) = some body ↔
      .blob body ∈ l ∨ w.blobs.read (env.path it.name) = some body := by
  have own : ∀ p ∈ l, ∀ b, p.put env it = some (env.path it.name, b) → p = .blob body := by
    intro p member b put
    rcases plan_stores is (planned p member) put with blob | ⟨a, derived, rfl⟩
    · exact blob
    · have same := congrArg Prod.fst (Option.some.inj put)
      exact (derived_apart kind (derived_listed derived) same.symm).elim
  rw [read_carried goes fun p member b put => ?_]
  · refine or_congr_left ⟨?_, fun member => ⟨_, member, rfl⟩⟩
    rintro ⟨p, member, put⟩
    rwa [own p member body put] at member
  · rw [own p member b put] at put
    exact (congrArg Prod.snd (Option.some.inj put)).symm

theorem derived_there (kind : (file_kind it.file).isSome) (is : file_body env it w = some body)
    (planned : ∀ p ∈ l, p ∈ plan env it w) (goes : (processing env it).Goes l w) {a : Text × Bytes}
    (derived : a ∈ derived_files env it body) :
    ((processing env it).carried l w).blobs.read (env.path (.segment it.dongle it.ts it.seg a.1)) = some a.2 ↔
      .derived a.1 a.2 ∈ l ∨
        w.blobs.read (env.path (.segment it.dongle it.ts it.seg a.1)) = some a.2 := by
  have own : ∀ p ∈ l, ∀ b, p.put env it = some (env.path (.segment it.dongle it.ts it.seg a.1), b) →
      p = .derived a.1 a.2 := by
    intro p member b put
    rcases plan_stores is (planned p member) put with rfl | ⟨a', derived', rfl⟩
    · have same := congrArg Prod.fst (Option.some.inj put)
      exact (derived_apart kind (derived_listed derived) same).elim
    · have same := congrArg Prod.fst (Option.some.inj put)
      rw [derived_unique derived' derived (derived_path (derived_listed derived) same)]
  rw [read_carried goes fun p member b put => ?_]
  · refine or_congr_left ⟨?_, fun member => ⟨_, member, rfl⟩⟩
    rintro ⟨p, member, put⟩
    rwa [own p member a.2 put] at member
  · rw [own p member b put] at put
    exact (congrArg Prod.snd (Option.some.inj put)).symm

/-- The sums are right when they were written last, or were right before. -/
theorem sums_there (settles : Settles l) (goes : (processing env it).Goes l w)
    (route : HasRoute ((processing env it).carried l w).db it.dongle it.ts) :
    Summed ((processing env it).carried l w).db it.dongle it.ts ↔
      (∃ vital, .sums vital ∈ l) ∨
        (((processing env it).carried l w).db.route_segments (fullname it.dongle it.ts) ≠ [] →
          (route_of w.db it.dongle it.ts).aggregates =
            aggregate (((processing env it).carried l w).db.route_segments (fullname it.dongle it.ts))) := by
  by_cases written : ∃ vital, .sums vital ∈ l
  · obtain ⟨vital, member⟩ := written
    exact iff_of_true (summed_carried settles goes member) (.inl ⟨vital, member⟩)
  · rw [or_iff_right written, ← aggregates_carried goes fun vital member => written ⟨vital, member⟩]
    obtain ⟨r, found⟩ := Option.isSome_iff_exists.1 route
    unfold Summed
    rw [route_of, found]
    refine imp_congr_right fun _ => ⟨fun summed => summed r rfl, ?_⟩
    rintro is r' same
    cases same
    exact is

theorem there_iff (kind : (file_kind it.file).isSome) (is : file_body env it w = some body)
    (sublist : l.Sublist (plan env it w)) (goes : (processing env it).Goes l w) :
    AllThere env it body ((processing env it).carried l w) ↔ Made env it body w l := by
  have planned : ∀ p ∈ l, p ∈ plan env it w := fun p member => sublist.subset member
  have settles : Settles l := List.Pairwise.sublist sublist (settles_plan env it w)
  have route := hasRoute_carried goes
  constructor
  · intro there
    refine ⟨(blob_there kind is planned goes).1 there.blob, ?_, ?_, route.1 there.route,
      (sums_there settles goes there.route).1 there.sums⟩
    · intro a derived
      exact (derived_there kind is planned goes derived).1 (there.derived a derived)
    · obtain ⟨col, own, url⟩ := there.url
      exact ⟨col, own, ((hasUrl_carried goes col).1 url).symm⟩
  · intro made
    refine ⟨(blob_there kind is planned goes).2 made.blob, ?_, ?_, route.2 made.route,
      (sums_there settles goes (route.2 made.route)).2 made.sums⟩
    · intro a derived
      exact (derived_there kind is planned goes derived).2 (made.derived a derived)
    · obtain ⟨col, own, url⟩ := made.url
      exact ⟨col, own, (hasUrl_carried goes col).2 url.symm⟩

end There

/-- Nothing is written of an item whose file is nowhere. -/
theorem file_of_plan {env : Env} {it : QueueItem} {w : World} {n : Nat} {p : Piece}
    (at_n : (plan env it w)[n]? = some p) : ∃ body, file_body env it w = some body := by
  unfold plan at at_n
  unfold file_body
  cases stored : w.blobs.read (env.path it.name) with
  | some body => exact ⟨body, rfl⟩
  | none =>
      rw [stored] at at_n
      cases copied : pulled it w with
      | some body => exact ⟨body, rfl⟩
      | none =>
          rw [copied] at at_n
          cases at_n

/-- A file that the scan takes gets on the queue, unless its key is held. -/
theorem queued_of_taken {env : Env} {device : Accounts.Device} {opts : SyncOpts} {listing : Text}
    {it : QueueItem} {w : World} (again : it ∈ taken env device opts listing w.db) {q : SyncQueue}
    (free : q.holds it.key = false) :
    ∃ x ∈ enqueued env device opts listing { w with sync_queue := q }, x.key = it.key := by
  rw [enqueued_eq]
  exact SyncQueue.exists_added again free

/-- **There, or taken again.**  When one write of an item's processing is refused, all that
the file comes to is there afterwards or the next scan of the listing takes it again, exactly
when the URL the scan looks at was neither set before nor is by what is carried out, or what
the file needs is carried out or was there before.  A file that is taken gets on the queue,
unless its key is held. -/
theorem there_or_retried_iff (env : Env) (device : Accounts.Device) (opts : SyncOpts) (listing : Text)
    (it : QueueItem) (w w' : World) (n : Nat) (named : Named w.db)
    (known : device ∈ w.db.accounts.devices.rows) (listed : OnListing env device opts listing w.db it)
    (refused : process_but env n it w = some w') :
    ∃ body, file_body env it w = some body ∧
      (AllThere env it body w' ∨ it ∈ taken env device opts listing w'.db ↔
        Unregistered it w (carried_out env it w n) ∨ Made env it body w (carried_out env it w n)) ∧
      (it ∈ taken env device opts listing w'.db → ∀ q : SyncQueue, q.holds it.key = false →
        ∃ x ∈ enqueued env device opts listing { w' with sync_queue := q }, x.key = it.key) := by
  have clean : '|' ∉ device.dongle_id := named.devices device known
  obtain ⟨own, kind, col, column_is⟩ := of_listed listed
  have row : (w.db.accounts.devices.get? it.dongle).isSome := by
    rw [own, Table.get?_eq_some.2 ⟨known, rfl⟩]
    rfl
  obtain ⟨⟨p, at_n⟩, goes, db, blobs⟩ := process_but_some kind row refused
  obtain ⟨body, is⟩ := file_of_plan at_n
  have part : (carried_out env it w n).Sublist (plan env it w) := Scripting.left_sublist _ _ n
  have there : AllThere env it body w' ↔ Made env it body w (carried_out env it w n) := by
    rw [← there_iff kind is part goes]
    constructor
    · intro all
      exact ⟨blobs ▸ all.blob, blobs ▸ all.derived, db ▸ all.url, db ▸ all.route, db ▸ all.sums⟩
    · intro all
      exact ⟨blobs ▸ all.blob, blobs ▸ all.derived, db ▸ all.url, db ▸ all.route, db ▸ all.sums⟩
  have again : it ∈ taken env device opts listing w'.db ↔ Unregistered it w (carried_out env it w n) := by
    rw [db, taken_iff named clean (scans_carried goes) listed column_is, hasUrl_carried goes col, not_or,
      not_exists]
    constructor
    · intro unset col' is'
      rw [column_is] at is'
      cases is'
      exact unset
    · exact fun unset => unset col column_is
  exact ⟨body, is, by rw [there, again, or_comm], fun taken _ free => queued_of_taken taken free⟩

/-! ## A write refused before the URL, and one after it -/

private def recorder_online : Accounts.Device := { dongle_id := "d", last_addr := "a" }

/-- One camera is on the device and nothing in the database. -/
private def before_pull : World :=
  { one_device recorder_online with
    remote := Dir.write Table.empty ("d", remote_path "t" 0 "qcamera.ts") [1] }

private def awaited : QueueItem := { dongle := "d", addr := "a", ts := "t", seg := 0, file := "qcamera.ts" }

private def wanted_line : Text := "/data/media/0/realdata/t--0/qcamera.ts"

private theorem listed_awaited : OnListing plain_env recorder_online {} wanted_line before_pull.db awaited :=
  ⟨wanted_line, by decide, by decide⟩

/-- The sums are refused: the URL is set and the file is not taken again, and the route's
aggregates are not those of its row. -/
theorem refused_sums_stay_out : ∃ w', process_but plain_env 5 awaited before_pull = some w' ∧
    OnListing plain_env recorder_online {} wanted_line before_pull.db awaited ∧
    file_body plain_env awaited before_pull = some [1] ∧
    ¬ (AllThere plain_env awaited [1] w' ∨ awaited ∈ taken plain_env recorder_online {} wanted_line w'.db) := by
  obtain ⟨w', ran⟩ := Option.isSome_iff_exists.1
    (show (process_but plain_env 5 awaited before_pull).isSome = true by decide)
  have route : (process_but plain_env 5 awaited before_pull).map (fun w =>
      (w.db.routes.get? (fullname "d" "t")).map fun r => r.aggregates.segment_numbers) =
      some (some []) := by decide
  have rows : (process_but plain_env 5 awaited before_pull).map (fun w =>
      (aggregate (w.db.route_segments (fullname "d" "t"))).segment_numbers) = some [0] := by decide
  have none_taken : (process_but plain_env 5 awaited before_pull).map (fun w =>
      taken plain_env recorder_online {} wanted_line w.db) = some [] := by decide
  rw [ran, Option.map_some, Option.some.injEq] at route rows none_taken
  refine ⟨w', ran, listed_awaited, by decide, ?_⟩
  rintro (there | again)
  · obtain ⟨r, found, numbers⟩ := Option.map_eq_some_iff.1 route
    have some_row : w'.db.route_segments (fullname "d" "t") ≠ [] := by
      intro empty
      rw [empty] at rows
      cases rows
    have summed := congrArg Aggregates.segment_numbers (there.sums some_row r found)
    have both : ([] : List Int) = [0] := numbers.symm.trans (summed.trans rows)
    cases both
  · rw [none_taken] at again
    cases again

/-- The URL is refused: the file is taken again. -/
theorem refused_url_retried : ∃ w', process_but plain_env 4 awaited before_pull = some w' ∧
    (AllThere plain_env awaited [1] w' ∨ awaited ∈ taken plain_env recorder_online {} wanted_line w'.db) := by
  have named : Named before_pull.db := by
    have clean : ∀ d ∈ [recorder_online], '|' ∉ d.dongle_id := by decide
    exact ⟨clean, fun _ no => (List.not_mem_nil no).elim, fun _ no => (List.not_mem_nil no).elim⟩
  obtain ⟨w', ran⟩ := Option.isSome_iff_exists.1
    (show (process_but plain_env 4 awaited before_pull).isSome = true by decide)
  obtain ⟨body, is, there_or_retried, _⟩ := there_or_retried_iff plain_env recorder_online {} wanted_line awaited
    before_pull w' 4 named List.mem_cons_self listed_awaited ran
  have own : file_body plain_env awaited before_pull = some [1] := by decide
  rw [own] at is
  cases is
  refine ⟨w', ran, there_or_retried.2 (.inl fun col _ => ⟨?_, fun url member => ?_⟩)⟩
  · rintro ⟨s, found, _⟩
    cases found
  · have before : carried_out plain_env awaited before_pull 4 = [.blob [1], .used 1, .route, .row] := by decide
    rw [before] at member
    simp at member

end HomeConnect.Sync
