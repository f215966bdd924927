/-
# Sync.Plan -- the writes that processing an item comes to

Which statements and blobs an item is written with, and in which order, is known when its
processing begins: `plan`.  A camera or an rlog has its row made and its URL set, then the
route is summed up; a qlog's artifacts come first, then its row, its URL, the URLs of the
cameras that are stored beside it, the sums and the route's metadata.  What is pulled is stored
before and, if it is an rlog, has its model derived at the end.

Any of these writes may be the one that is refused.  The error of a `vital` one ends the
processing, any other is discarded; what is carried out then is `left (plan env it w) n`
(`script_register`, `script_ingest`).
-/
import HomeConnect.Sync.Processed
import HomeConnect.Theory.Script

namespace HomeConnect.Sync

open HomeConnect.Theory HomeConnect.Storage HomeConnect.Drives

set_option autoImplicit false

/-- One write of an item's processing. -/
inductive Piece
  | blob (bytes : Bytes)
  | used (len : Nat)
  | derived (file : Text) (bytes : Bytes)
  | route
  | data (values : SegData)
  | row
  | url (col : UrlCol) (url : Text)
  /-- The sums of the route; whether their error ends the processing. -/
  | sums (vital : Bool)
  | info (columns : RouteMeta)
  | gps (lat lng : Rat) (time : Int)
deriving DecidableEq, Repr

namespace Piece

def write (it : QueueItem) (db : Storage.Db) : Piece → Write
  | .blob bytes => .blob_put it.name bytes
  | .used len => .add_server_storage it.dongle len
  | .derived file bytes => .blob_put (.segment it.dongle it.ts it.seg file) bytes
  | .route => .insert_route it.dongle it.ts
  | .data values => .upsert_segment it.dongle it.ts it.seg values
  | .row => .insert_segment it.dongle it.ts it.seg
  | .url col text => .set_url it.dongle it.ts it.seg col text
  | .sums _ => .set_aggregates (fullname it.dongle it.ts)
      (aggregate (db.route_segments (fullname it.dongle it.ts)))
  | .info columns => .set_meta (fullname it.dongle it.ts) columns
  | .gps lat lng time => .set_last_gps it.dongle lat lng time

def vital : Piece → Bool
  | .used _ | .derived .. | .gps .. => false
  | .sums ends => ends
  | _ => true

/-- What a piece finds when its turn comes: it is carried out, the URL's row is there. -/
structure Ready (env : Env) (it : QueueItem) (p : Piece) (w : World) : Prop where
  accepted : (p.write it w.db).exec env w ≠ none
  listed : ∀ file bytes, p = .derived file bytes → file ∈ ("model.json" : Text) :: ARTIFACTS
  rows : ∀ col url, p = .url col url → HasSegment w.db it.dongle it.ts it.seg ∧ url ≠ []
  route : ∀ vital, p = .sums vital → HasRoute w.db it.dongle it.ts

/-- The cells a piece assigns. -/
def effect (it : QueueItem) : Piece → Effect
  | .blob _ => { cameras := fun n cam => n = it.seg ∧ cam = it.file }
  | .route => { route := True }
  | .data values => { data := fun n d => n = it.seg ∧ d = values, rows := fun n => n = it.seg }
  | .row => { rows := fun n => n = it.seg }
  | .url col text => { urls := fun k v => k = (it.seg, col) ∧ v = text }
  | .sums _ => { sums := True }
  | _ => {}

end Piece

/-- A write to the database or the blob store can be refused. -/
def refusable {β : Type} : Op β → Option β
  | .write s => if s.part = .remote then none else some (.error .Sqlx)
  | _ => none

def processing (env : Env) (it : QueueItem) : Scripting Op World Piece where
  exec f w := f.exec env .ok w
  refuse f := refusable f
  carry p w := applied env w (p.write it w.db)
  vital := Piece.vital
  ready p w := p.Ready env it w

/-! ## The plan -/

def file_pieces (env : Env) (it : QueueItem) (file : Text) : List Piece :=
  match file_kind file with
  | none => []
  | some (ty, col) =>
      [.route, .row, .url col (connectdata_url env.public_url ty it.dongle it.ts it.seg file)]

def sibling_pieces (env : Env) (it : QueueItem) (w : World) (cam : Text) : List Piece :=
  if (w.blobs.read (env.path (.segment it.dongle it.ts it.seg cam))).isSome then
    file_pieces env it cam
  else []

/-- The route has rows once the segment's is made. -/
def has_rows (it : QueueItem) (db : Storage.Db) : Bool :=
  decide (db.route_segments (fullname it.dongle it.ts) ≠ []) ||
    (db.segments.get? (canonical it.dongle it.ts it.seg)).isNone

def sum_pieces (it : QueueItem) (w : World) (vital : Bool) : List Piece :=
  if has_rows it w.db then [.sums vital] else []

def artifact_pieces (env : Env) (acc : Accum) : List Piece :=
  (acc.artifacts env).map fun a => .derived a.1 a.2

def gps_pieces (acc : Accum) : List Piece :=
  match acc.last_gps with
  | some (lat, lng, time) => [.gps lat lng time]
  | none => []

def info_of (acc : Accum) : RouteMeta where
  platform := acc.car_fingerprint
  git_remote := acc.git_remote
  git_branch := acc.git_branch
  git_commit := acc.git_commit

def qlog_pieces (env : Env) (it : QueueItem) (w : World) (acc : Accum) : List Piece :=
  artifact_pieces env acc ++ (.route :: .data acc.data :: file_pieces env it it.file ++
    CAMERA_FILES.flatMap (sibling_pieces env it w)) ++ sum_pieces it w true ++ [.info (info_of acc)] ++
    gps_pieces acc

def register_pieces (env : Env) (it : QueueItem) (w : World) (body : Bytes) : List Piece :=
  if Text.contains it.file "qlog" then
    match env.parse it.file body with
    | .ok acc => qlog_pieces env it w acc
    | .error _ => []
  else file_pieces env it it.file ++ sum_pieces it w false

/-- How the registration ends when nothing is refused. -/
def register_result (env : Env) (it : QueueItem) (body : Bytes) : AppResult Unit :=
  if Text.contains it.file "qlog" then (env.parse it.file body).map fun _ => () else .ok ()

def model_pieces (env : Env) (it : QueueItem) (body : Bytes) : List Piece :=
  if Text.contains it.file "rlog" then
    match env.extract_model it.file body with
    | some json => [.derived "model.json" json]
    | none => []
  else []

/-- A model is derived when the registration went well. -/
def later_pieces (env : Env) (it : QueueItem) (body : Bytes) : List Piece :=
  match register_result env it body with
  | .ok _ => model_pieces env it body
  | .error _ => []

def ingest_pieces (env : Env) (it : QueueItem) (w : World) (body : Bytes) : List Piece :=
  .blob body :: .used body.length :: register_pieces env it w body ++ later_pieces env it body

/-- The file on the device. -/
def pulled (it : QueueItem) (w : World) : Option Bytes :=
  if it.addr = [] then none else w.remote.read (it.dongle, remote_path it.ts it.seg it.file)

/-- The writes of an item's processing. -/
def plan (env : Env) (it : QueueItem) (w : World) : List Piece :=
  match w.blobs.read (env.path it.name) with
  | some body => register_pieces env it w body
  | none =>
      match pulled it w with
      | some body => ingest_pieces env it w body
      | none => []

section Pieces

variable {env : Env} {it : QueueItem} {w w' s s' : World} {p : Piece}

/-! ## What a piece does -/

theorem Piece.Ready.exec (ready : p.Ready env it s) :
    (p.write it s.db).exec env s = some ((processing env it).carry p s) := by
  obtain ⟨s', done⟩ := Option.ne_none_iff_exists'.1 ready.accepted
  show _ = some (applied env s (p.write it s.db))
  rw [applied, done]
  rfl

/-- No derived file is the item's own, which has a kind. -/
theorem derived_apart {f : Text} (kind : (file_kind it.file).isSome)
    (listed : f ∈ ("model.json" : Text) :: ARTIFACTS) :
    env.path it.name ≠ env.path (.segment it.dongle it.ts it.seg f) := by
  intro same
  have plain : ∀ f ∈ ("model.json" : Text) :: ARTIFACTS, '_' ∉ sanitize f ∧ file_kind f = none := by decide
  obtain ⟨_, own⟩ := segment_of_path (plain f listed).1 same
  rw [own, (plain f listed).2] at kind
  cases kind

theorem derived_path {f g : Text} (listed : g ∈ ("model.json" : Text) :: ARTIFACTS)
    (same : env.path (.segment it.dongle it.ts it.seg f) = env.path (.segment it.dongle it.ts it.seg g)) :
    f = g := by
  have plain : ∀ f ∈ ("model.json" : Text) :: ARTIFACTS, '_' ∉ sanitize f := by decide
  exact (segment_of_path (plain g listed) same).2

theorem registers_piece (ready : p.Ready env it s) :
    Registers env it.dongle it.ts (p.effect it) s ((processing env it).carry p s) := by
  have done := ready.exec
  cases p with
  | blob bytes =>
      have plain : ∀ cam ∈ CAMERA_FILES, '_' ∉ sanitize cam := by decide
      have kept := Write.framed done
      refine Registers.same (by rw [kept.segments (by simp [Piece.write, Write.part])])
        (by rw [kept.routes (by simp [Piece.write, Write.part])]) fun n cam listed => ?_
      rw [Stored, Stored, Write.exec_blobs done]
      dsimp only [Piece.write]
      rw [Dir.read_write]
      split
      · rename_i here
        obtain ⟨rfl, rfl⟩ := segment_of_path (plain cam listed) here.symm
        simp
      · rename_i elsewhere
        refine (or_iff_left ?_).symm
        rintro ⟨rfl, rfl⟩
        exact elsewhere rfl
  | derived file bytes =>
      exact Registers.blob_put (fun n cam camera same =>
        derived_not_camera (ready.listed file bytes rfl) camera same.symm) done
  | used len =>
      have kept := Write.framed done
      refine Registers.same (kept.segments (by simp [Piece.write, Write.part]))
        (kept.routes (by simp [Piece.write, Write.part])) fun n cam _ => ?_
      rw [Stored, Stored, (kept.blobs (by simp [Piece.write, Write.part])).1]
      exact (or_iff_left id).symm
  | gps lat lng time =>
      have kept := Write.framed done
      refine Registers.same (kept.segments (by simp [Piece.write, Write.part]))
        (kept.routes (by simp [Piece.write, Write.part])) fun n cam _ => ?_
      rw [Stored, Stored, (kept.blobs (by simp [Piece.write, Write.part])).1]
      exact (or_iff_left id).symm
  | route => exact Registers.insert_route done
  | data values => exact Registers.upsert_segment done
  | row => exact Registers.insert_segment done
  | url col url => exact Registers.set_url (ready.rows col url rfl).1 done
  | sums vital => exact Registers.set_aggregates done
  | info info => exact Registers.set_meta done

/-- The device's row stays. -/
theorem device_kept (dongle : Text) (ready : p.Ready env it s)
    (known : (s.db.accounts.devices.get? dongle).isSome) :
    (((processing env it).carry p s).db.accounts.devices.get? dongle).isSome := by
  have done := ready.exec
  generalize (processing env it).carry p s = s' at done ⊢
  cases p with
  | used len =>
      cases done
      rw [Table.get?_update, Option.isSome_map]
      exact known
  | gps lat lng time =>
      cases done
      rw [Table.get?_update, Option.isSome_map]
      exact known
  | _ =>
      rw [(Write.framed done).accounts (by simp [Piece.write, Write.part])]
      exact known

/-! ## Between the pieces -/

/-- A state the processing comes through, from `w`. -/
structure During (env : Env) (it : QueueItem) (w s : World) : Prop where
  registers : ∃ e, Registers env it.dongle it.ts e w s ∧ (∀ n, e.rows n → n = it.seg) ∧
    ∀ n cam, e.cameras n cam → cam = it.file
  device : (s.db.accounts.devices.get? it.dongle).isSome

theorem During.init (known : (w.db.accounts.devices.get? it.dongle).isSome) : During env it w w :=
  ⟨⟨{}, .refl w, fun _ no => no.elim, fun _ _ no => no.elim⟩, known⟩

theorem During.carry (during : During env it w s) (ready : p.Ready env it s) :
    During env it w ((processing env it).carry p s) := by
  obtain ⟨e, registers, rows, cameras⟩ := during.registers
  refine ⟨⟨e.or (p.effect it), registers.trans (registers_piece ready), ?_, ?_⟩,
    device_kept it.dongle ready during.device⟩
  · rintro n (earlier | now)
    · exact rows n earlier
    · cases p <;> first | exact now.elim | exact now
  · rintro n cam (earlier | now)
    · exact cameras n cam earlier
    · cases p <;> first | exact now.elim | exact now.2

/-- The cameras that count are those stored before: a qlog is none. -/
theorem During.cameras (during : During env it w s) (qlog : Text.contains it.file "qlog" = true)
    {cam : Text} (listed : cam ∈ CAMERA_FILES) :
    (s.blobs.read (env.path (.segment it.dongle it.ts it.seg cam))).isSome =
      (w.blobs.read (env.path (.segment it.dongle it.ts it.seg cam))).isSome := by
  obtain ⟨e, registers, _, cameras⟩ := during.registers
  have camera : ∀ cam ∈ CAMERA_FILES, Text.contains cam "qlog" = false := by decide
  have stays : Stored env it.dongle it.ts s it.seg cam ↔ Stored env it.dongle it.ts w it.seg cam := by
    refine (registers.cameras it.seg cam listed).trans (or_iff_left fun is => ?_)
    rw [← cameras it.seg cam is, camera cam listed] at qlog
    cases qlog
  exact Bool.eq_iff_iff.2 stays

/-- Once the segment's row is made, the route has rows exactly when that was to be expected. -/
theorem During.rows (during : During env it w s) (made : HasSegment s.db it.dongle it.ts it.seg) :
    s.db.route_segments (fullname it.dongle it.ts) ≠ [] ↔ has_rows it w.db = true := by
  obtain ⟨e, registers, rows, _⟩ := during.registers
  rw [has_rows, Bool.or_eq_true, decide_eq_true_eq, Option.isNone_iff_eq_none]
  constructor
  · intro some_row
    by_contra neither
    obtain ⟨no_row, present⟩ := not_or.1 neither
    have empty : w.db.route_segments (fullname it.dongle it.ts) = [] := not_not.1 no_row
    obtain ⟨x, listed⟩ := List.exists_mem_of_ne_nil _ some_row
    obtain ⟨member, of⟩ := mem_route_segments.1 listed
    have found : s.db.segments.get? x.canonical_name = some x := Table.get?_eq_some.2 ⟨member, rfl⟩
    suffices before : ∃ y ∈ w.db.segments.rows, y.canonical_route_name = fullname it.dongle it.ts by
      obtain ⟨y, member', of'⟩ := before
      have listed' := mem_route_segments.2 ⟨member', of'⟩
      rw [empty] at listed'
      cases listed'
    by_cases own : ∃ n, x.canonical_name = canonical it.dongle it.ts n
    · obtain ⟨n, is⟩ := own
      rw [is] at found
      have there : HasSegment w.db it.dongle it.ts n := by
        rcases (registers.rows n).1 (by rw [HasSegment, found]; rfl) with old | new
        · exact old
        · rw [rows n new]
          exact Option.isSome_iff_ne_none.2 present
      obtain ⟨y, found'⟩ := Option.isSome_iff_exists.1 there
      have stem := registers.stem n
      rw [row_of, row_of, found, found'] at stem
      exact ⟨y, (Table.get?_eq_some.1 found').1,
        (Prod.ext_iff.1 (Prod.ext_iff.1 stem).2).1.symm.trans of⟩
    · have kept := registers.others x.canonical_name fun n is => own ⟨n, is⟩
      exact ⟨x, (Table.get?_eq_some.1 (kept.symm.trans found)).1, of⟩
  · rintro (some_row | absent)
    · exact registers.nonempty some_row
    · obtain ⟨x, found⟩ := Option.isSome_iff_exists.1 made
      have stem := registers.stem it.seg
      rw [row_of, row_of, found, absent] at stem
      have of : x.canonical_route_name = fullname it.dongle it.ts :=
        (Prod.ext_iff.1 (Prod.ext_iff.1 stem).2).1
      exact List.ne_nil_of_mem (mem_route_segments.2 ⟨(Table.get?_eq_some.1 found).1, of⟩)

/-- The route's row is made, too. -/
def Routed (env : Env) (it : QueueItem) (w s : World) : Prop :=
  During env it w s ∧ HasRoute s.db it.dongle it.ts

/-- And the segment's. -/
def Rowed (env : Env) (it : QueueItem) (w s : World) : Prop :=
  Routed env it w s ∧ HasSegment s.db it.dongle it.ts it.seg

theorem Routed.carry (routed : Routed env it w s) (ready : p.Ready env it s) :
    Routed env it w ((processing env it).carry p s) :=
  ⟨routed.1.carry ready, (registers_piece ready).route.2 (.inl routed.2)⟩

theorem Rowed.carry (rowed : Rowed env it w s) (ready : p.Ready env it s) :
    Rowed env it w ((processing env it).carry p s) :=
  ⟨rowed.1.carry ready, ((registers_piece ready).rows it.seg).2 (.inl rowed.2)⟩

/-! ### Which pieces are ready -/

theorem ready_route (during : During env it w s) : Piece.Ready env it .route s := by
  refine ⟨?_, fun _ _ no => (by cases no), fun _ _ no => (by cases no), fun _ no => (by cases no)⟩
  obtain ⟨d, known⟩ := Option.isSome_iff_exists.1 during.device
  simp [Piece.write, Write.exec, known]

theorem accepts_segment (routed : Routed env it w s) : s.refuses_segment it.dongle it.ts it.seg = false := by
  obtain ⟨r, found⟩ := Option.isSome_iff_exists.1 routed.2
  simp [World.refuses_segment, found]

theorem ready_row (routed : Routed env it w s) : Piece.Ready env it .row s := by
  refine ⟨?_, fun _ _ no => (by cases no), fun _ _ no => (by cases no), fun _ no => (by cases no)⟩
  simp [Piece.write, Write.exec, accepts_segment routed]

theorem ready_data (routed : Routed env it w s) (values : SegData) :
    Piece.Ready env it (.data values) s := by
  refine ⟨?_, fun _ _ no => (by cases no), fun _ _ no => (by cases no), fun _ no => (by cases no)⟩
  simp [Piece.write, Write.exec, accepts_segment routed]

theorem ready_url (rowed : Rowed env it w s) {col : UrlCol} {url : Text} (some_url : url ≠ []) :
    Piece.Ready env it (.url col url) s := by
  refine ⟨by simp [Piece.write, Write.exec], fun _ _ no => (by cases no), ?_, fun _ no => (by cases no)⟩
  intro _ _ is
  cases is
  exact ⟨rowed.2, some_url⟩

theorem ready_sums (rowed : Rowed env it w s) (vital : Bool) : Piece.Ready env it (.sums vital) s :=
  ⟨by simp [Piece.write, Write.exec], fun _ _ no => (by cases no), fun _ _ no => (by cases no),
    fun _ _ => rowed.1.2⟩

theorem ready_derived {file : Text} (listed : file ∈ ("model.json" : Text) :: ARTIFACTS) (bytes : Bytes)
    (s : World) : Piece.Ready env it (.derived file bytes) s := by
  refine ⟨by simp [Piece.write, Write.exec], ?_, fun _ _ no => (by cases no), fun _ no => (by cases no)⟩
  intro _ _ is
  cases is
  exact listed

/-- The other pieces are always. -/
theorem ready_plain (s : World) :
    (∀ bytes, Piece.Ready env it (.blob bytes) s) ∧ (∀ len, Piece.Ready env it (.used len) s) ∧
      (∀ info, Piece.Ready env it (.info info) s) ∧
      ∀ lat lng time, Piece.Ready env it (.gps lat lng time) s := by
  refine ⟨fun _ => ?_, fun _ => ?_, fun _ => ?_, fun _ _ _ => ?_⟩ <;>
    exact ⟨by simp [Piece.write, Write.exec], fun _ _ no => (by cases no), fun _ _ no => (by cases no),
      fun _ no => (by cases no)⟩

end Pieces

/-! ## The functions are scripts -/

/-- A function carries out the pieces, from where `I` holds to where `J` does. -/
abbrev Scripted (env : Env) (it : QueueItem) {α : Type} (I J : World → Prop) (p : Request Op α)
    (r : AppResult α) (l : List Piece) : Prop :=
  (processing env it).Script I J p.run r l

section Rules

variable {env : Env} {it : QueueItem} {α β : Type} {I J K : World → Prop} {p : Request Op α}
  {r : AppResult β} {l m : List Piece}

theorem Scripted.pure (I : World → Prop) (a : α) : Scripted env it I I (pure a) (.ok a) [] :=
  Scripting.Script.ret I _

theorem Scripted.bind {g : α → Request Op β} {a : α} (first : Scripted env it I J p (.ok a) l)
    (rest : Scripted env it J K (g a) r m) : Scripted env it I K (p >>= g) r (l ++ m) := by
  unfold Scripted
  rw [Request.run_bind]
  exact Scripting.Script.bind (fun _ => rfl) first rest

theorem Scripted.bind_error {g : α → Request Op β} {e : AppError}
    (first : Scripted env it I J p (.error e) l) : Scripted env it I J (p >>= g) (.error e) l := by
  unfold Scripted
  rw [Request.run_bind]
  exact Scripting.Script.bind_error (fun _ => rfl) first

/-- The same list, written otherwise. -/
theorem Scripted.listed {q : Request Op β} (script : Scripted env it I J q r l) (same : l = m) :
    Scripted env it I J q r m := same ▸ script

/-- What is read is the same wherever the function is run. -/
theorem Scripted.select {q : World → α} {g : α → Request Op β} {a : α} (reads : ∀ s, I s → q s = a)
    (rest : Scripted env it I J (g a) r l) : Scripted env it I J (select q >>= g) r l := by
  unfold Scripted
  rw [Drives.select, Request.run_perform_bind]
  refine Scripting.Script.read (fun s => .ok (q s)) rfl (fun _ => rfl) fun s₀ holds => ?_
  dsimp only
  rw [reads s₀ holds]
  exact Scripting.Script.weaken rest (fun _ both => both.1) fun _ holds => holds

theorem Scripted.blob_exists {name : BlobName} {b : Bool}
    (reads : ∀ s, I s → (s.blobs.read (env.path name)).isSome = b) :
    Scripted env it I I (blob_exists env name) (.ok b) [] := by
  unfold Scripted
  rw [Drives.blob_exists, Request.run_unwrap_or, Drives.select, Request.run_perform, Prog.op_bind]
  refine Scripting.Script.read (fun s => .ok (s.blobs.read (env.path name)).isSome) rfl
    (fun _ => rfl) fun s₀ holds => ?_
  rw [reads s₀ holds]
  exact Scripting.Script.weaken (Scripting.Script.ret I _) (fun _ both => both.1) fun _ holds => holds

theorem exec_piece {p : Piece} {s : World} (ready : p.Ready env it s) :
    Op.exec env (.write (p.write it s.db)) .ok s = (.ok (), (processing env it).carry p s) := by
  simp only [Op.exec, ready.exec]

/-- A piece whose error ends the function. -/
theorem Scripted.execute {x : Piece} {statement : Write} (is : ∀ s, I s → x.write it s.db = statement)
    (here : statement.part ≠ .remote) (vital : x.vital = true)
    (ready : ∀ s, I s → x.Ready env it s ∧ J ((processing env it).carry x s)) :
    Scripted env it I J (execute statement) (.ok ()) [x] := by
  refine Scripting.Script.write (if_neg here) vital fun s holds => ?_
  rw [← is s holds]
  exact ⟨exec_piece (ready s holds).1, (ready s holds).1, (ready s holds).2⟩

/-- A piece whose error is discarded. -/
theorem Scripted.attempt {x : Piece} {statement : Write} (is : ∀ s, I s → x.write it s.db = statement)
    (here : statement.part ≠ .remote) (spare : x.vital = false) (stays : ∀ s, I s → J s)
    (ready : ∀ s, I s → x.Ready env it s ∧ J ((processing env it).carry x s)) :
    Scripted env it I J (Request.attempt (.write statement)) (.ok ()) [x] := by
  refine Scripting.Script.attempt (if_neg here) spare stays fun s holds => ?_
  rw [← is s holds]
  exact ⟨congrArg Prod.snd (exec_piece (ready s holds).1), (ready s holds).1, (ready s holds).2⟩

theorem Scripted.forM {xs : List α} {g : α → Request Op PUnit} {l : α → List Piece}
    (each : ∀ x ∈ xs, Scripted env it I I (g x) (.ok ⟨⟩) (l x)) :
    Scripted env it I I (xs.forM g) (.ok ⟨⟩) (xs.flatMap l) := by
  induction xs with
  | nil => exact .pure I _
  | cons x xs ih =>
      change Scripted env it I I (g x >>= fun _ => xs.forM g) _ (l x ++ xs.flatMap l)
      exact .bind (each x List.mem_cons_self) (ih fun y member => each y (List.mem_cons_of_mem _ member))

end Rules

section Functions

variable {env : Env} {it : QueueItem} {w : World}

theorem script_file {file ty : Text} {col : UrlCol} (kind : file_kind file = some (ty, col)) :
    Scripted env it (During env it w) (Rowed env it w)
      (set_segment_file env it.dongle it.ts it.seg file) (.ok ()) (file_pieces env it file) := by
  have route : Scripted env it (During env it w) (Routed env it w) (ensure_route it.dongle it.ts)
      (.ok ()) [.route] :=
    .execute (fun _ _ => rfl) (by simp [Write.part]) rfl fun s during =>
      ⟨ready_route during, during.carry (ready_route during),
        (registers_piece (ready_route during)).route.2 (.inr trivial)⟩
  have row : Scripted env it (Routed env it w) (Rowed env it w)
      (execute (.insert_segment it.dongle it.ts it.seg)) (.ok ()) [.row] :=
    .execute (fun _ _ => rfl) (by simp [Write.part]) rfl fun s routed =>
      ⟨ready_row routed, routed.carry (ready_row routed),
        ((registers_piece (ready_row routed)).rows it.seg).2 (.inr rfl)⟩
  have some_url : connectdata_url env.public_url ty it.dongle it.ts it.seg file ≠ [] := by
    simp [connectdata_url]
  rw [set_segment_file, file_pieces, kind]
  refine .bind route (.bind row ?_)
  exact .execute (fun _ _ => rfl) (by simp [Write.part]) rfl fun s rowed =>
    ⟨ready_url rowed some_url, rowed.carry (ready_url rowed some_url)⟩

theorem Rowed.during {s : World} (rowed : Rowed env it w s) : During env it w s := rowed.1.1

theorem script_sibling (qlog : Text.contains it.file "qlog" = true) {cam : Text}
    (listed : cam ∈ CAMERA_FILES) :
    Scripted env it (Rowed env it w) (Rowed env it w) (set_sibling env it.dongle it.ts it.seg cam)
      (.ok ()) (sibling_pieces env it w cam) := by
  have looked : Scripted env it (Rowed env it w) (Rowed env it w)
      (blob_exists env (.segment it.dongle it.ts it.seg cam))
      (.ok (w.blobs.read (env.path (.segment it.dongle it.ts it.seg cam))).isSome) [] :=
    .blob_exists fun s rowed => rowed.during.cameras qlog listed
  rw [set_sibling, sibling_pieces]
  by_cases stored : (w.blobs.read (env.path (.segment it.dongle it.ts it.seg cam))).isSome = true
  · have kinds : ∀ cam ∈ CAMERA_FILES, (file_kind cam).isSome := by decide
    obtain ⟨⟨ty, col⟩, kind⟩ := Option.isSome_iff_exists.1 (kinds cam listed)
    rw [if_pos stored]
    refine Scripted.bind (l := []) looked ?_
    rw [if_pos stored]
    exact Scripting.Script.weaken (script_file kind) (fun s rowed => rowed.during) fun _ holds => holds
  · rw [if_neg stored]
    refine Scripted.bind (l := []) looked ?_
    rw [if_neg stored]
    exact .pure _ ()

theorem script_upsert (qlog : Text.contains it.file "qlog" = true) (acc : Accum) :
    Scripted env it (During env it w) (Rowed env it w)
      (upsert_segment env it.dongle it.ts it.seg it.file acc) (.ok ())
      (.route :: .data acc.data :: file_pieces env it it.file ++
        CAMERA_FILES.flatMap (sibling_pieces env it w)) := by
  have route : Scripted env it (During env it w) (Routed env it w) (ensure_route it.dongle it.ts)
      (.ok ()) [.route] :=
    .execute (fun _ _ => rfl) (by simp [Write.part]) rfl fun s during =>
      ⟨ready_route during, during.carry (ready_route during),
        (registers_piece (ready_route during)).route.2 (.inr trivial)⟩
  have data : Scripted env it (Routed env it w) (Rowed env it w)
      (execute (.upsert_segment it.dongle it.ts it.seg acc.data)) (.ok ()) [.data acc.data] :=
    .execute (fun _ _ => rfl) (by simp [Write.part]) rfl fun s routed =>
      ⟨ready_data routed acc.data, routed.carry (ready_data routed acc.data),
        ((registers_piece (ready_data routed acc.data)).rows it.seg).2 (.inr rfl)⟩
  obtain ⟨⟨ty, col⟩, kind⟩ := Option.isSome_iff_exists.1 (kind_of_qlog qlog)
  have own : Scripted env it (Rowed env it w) (Rowed env it w)
      (set_segment_file env it.dongle it.ts it.seg it.file) (.ok ()) (file_pieces env it it.file) :=
    Scripting.Script.weaken (script_file kind) (fun s rowed => rowed.during) fun _ holds => holds
  have beside : Scripted env it (Rowed env it w) (Rowed env it w)
      (CAMERA_FILES.forM (set_sibling env it.dongle it.ts it.seg)) (.ok ⟨⟩)
      (CAMERA_FILES.flatMap (sibling_pieces env it w)) :=
    .forM fun cam listed => script_sibling qlog listed
  refine Scripted.listed (l := [.route] ++ ([.data acc.data] ++ (file_pieces env it it.file ++
    CAMERA_FILES.flatMap (sibling_pieces env it w)))) ?_ rfl
  exact .bind route (.bind data (.bind own beside))

/-- What is written is the sum of the rows that are read right before. -/
theorem script_sums : Scripted env it (Rowed env it w) (Rowed env it w)
    (recompute_route it.dongle it.ts) (.ok ()) (sum_pieces it w true) := by
  unfold Scripted
  rw [recompute_route, select, Request.run_perform_bind]
  refine Scripting.Script.read (fun s => .ok (s.db.route_segments (fullname it.dongle it.ts))) rfl
    (fun _ => rfl) fun s₀ rowed => ?_
  have expected := rowed.during.rows rowed.2
  rw [sum_pieces]
  dsimp only
  by_cases rows : has_rows it w.db = true
  · have some_row := expected.2 rows
    rw [if_pos rows, if_neg (by rwa [List.isEmpty_iff])]
    refine Scripted.execute (fun s both => ?_) (by simp [Write.part]) rfl fun s both =>
      ⟨ready_sums both.1 true, both.1.carry (ready_sums both.1 true)⟩
    rw [Piece.write, Except.ok.inj both.2]
  · have no_row := not_not.1 (mt expected.1 rows)
    rw [if_neg rows, if_pos (by rwa [List.isEmpty_iff])]
    exact Scripting.Script.weaken (Scripted.pure (Rowed env it w) ()) (fun _ both => both.1)
      fun _ holds => holds

/-- The same where an error is discarded. -/
theorem script_sums_ignored : Scripted env it (Rowed env it w) (Rowed env it w)
    (Request.ignore (recompute_route it.dongle it.ts)) (.ok ()) (sum_pieces it w false) := by
  unfold Scripted
  rw [Request.run_ignore, recompute_route, select, Request.run_perform_bind, Prog.op_bind]
  refine Scripting.Script.read (fun s => .ok (s.db.route_segments (fullname it.dongle it.ts))) rfl
    (fun _ => rfl) fun s₀ rowed => ?_
  have expected := rowed.during.rows rowed.2
  rw [sum_pieces]
  dsimp only
  by_cases rows : has_rows it w.db = true
  · have some_row := expected.2 rows
    rw [if_pos rows, if_neg (by rwa [List.isEmpty_iff])]
    refine Scripted.attempt (fun s both => ?_) (by simp [Write.part]) rfl (fun s both => both.1) fun s both =>
      ⟨ready_sums both.1 false, both.1.carry (ready_sums both.1 false)⟩
    rw [Piece.write, Except.ok.inj both.2]
  · have no_row := not_not.1 (mt expected.1 rows)
    rw [if_neg rows, if_pos (by rwa [List.isEmpty_iff])]
    exact Scripting.Script.weaken (Scripted.pure (Rowed env it w) ()) (fun _ both => both.1)
      fun _ holds => holds

theorem script_artifacts (acc : Accum) : Scripted env it (During env it w) (During env it w)
    ((acc.artifacts env).forM (put_artifact it.dongle it.ts it.seg)) (.ok ⟨⟩) (artifact_pieces env acc) := by
  have each : ∀ a ∈ acc.artifacts env, Scripted env it (During env it w) (During env it w)
      (put_artifact it.dongle it.ts it.seg a) (.ok ⟨⟩) [.derived a.1 a.2] := by
    intro a member
    have listed := List.mem_cons_of_mem ("model.json" : Text) (artifact_listed env member)
    exact .attempt (fun _ _ => rfl) (by simp [Write.part]) rfl (fun _ holds => holds) fun s during =>
      ⟨ready_derived listed a.2 s, during.carry (ready_derived listed a.2 s)⟩
  have whole := Scripted.forM each
  rwa [← List.map_eq_flatMap] at whole

theorem script_gps (acc : Accum) : Scripted env it (Rowed env it w) (Rowed env it w)
    (update_last_gps it.dongle acc) (.ok ()) (gps_pieces acc) := by
  rw [update_last_gps, gps_pieces]
  cases acc.last_gps with
  | none => exact .pure _ ()
  | some gps =>
      obtain ⟨lat, lng, time⟩ := gps
      exact .attempt (fun _ _ => rfl) (by simp [Write.part]) rfl (fun _ holds => holds) fun s rowed =>
        ⟨(ready_plain s).2.2.2 lat lng time, Rowed.carry rowed ((ready_plain s).2.2.2 lat lng time)⟩

theorem script_parse (qlog : Text.contains it.file "qlog" = true) (body : Bytes) :
    Scripted env it (During env it w) (During env it w)
      (parse_and_store env it.dongle it.ts it.seg it.file body) (register_result env it body)
      (register_pieces env it w body) := by
  rw [parse_and_store, register_result, register_pieces, if_pos qlog, if_pos qlog]
  cases parsed : env.parse it.file body with
  | error e =>
      exact .bind_error (Scripting.Script.ret _ _)
  | ok acc =>
      have info : Scripted env it (Rowed env it w) (Rowed env it w)
          (write_route_meta it.dongle it.ts acc) (.ok ()) [.info (info_of acc)] :=
        .execute (fun _ _ => rfl) (by simp [Write.part]) rfl fun s rowed =>
          ⟨(ready_plain s).2.2.1 _, rowed.carry ((ready_plain s).2.2.1 _)⟩
      have last : Scripted env it (Rowed env it w) (During env it w) (update_last_gps it.dongle acc)
          (.ok ()) (gps_pieces acc) :=
        Scripting.Script.weaken (script_gps acc) (fun _ holds => holds) fun s rowed => rowed.during
      refine Scripted.listed (l := [] ++ (artifact_pieces env acc ++
        ((.route :: .data acc.data :: file_pieces env it it.file ++
          CAMERA_FILES.flatMap (sibling_pieces env it w)) ++
        (sum_pieces it w true ++ ([.info (info_of acc)] ++ gps_pieces acc))))) ?_ ?_
      · exact .bind (Scripting.Script.ret _ _) (.bind (script_artifacts acc)
          (.bind (script_upsert qlog acc) (.bind script_sums (.bind info last))))
      · simp only [qlog_pieces, List.nil_append, List.append_assoc]

theorem script_register (kind : (file_kind it.file).isSome) (body : Bytes) :
    Scripted env it (During env it w) (During env it w)
      (register_segment_file env it.dongle it.ts it.seg it.file body) (register_result env it body)
      (register_pieces env it w body) := by
  rw [register_segment_file]
  by_cases qlog : Text.contains it.file "qlog" = true
  · rw [if_pos qlog]
    exact script_parse qlog body
  · rw [if_neg qlog, register_result, register_pieces, if_neg qlog, if_neg qlog]
    obtain ⟨⟨ty, col⟩, is⟩ := Option.isSome_iff_exists.1 kind
    exact .bind (script_file is) (Scripting.Script.weaken script_sums_ignored (fun _ holds => holds)
      fun s (rowed : Rowed env it w s) => rowed.during)

theorem script_model (body : Bytes) : Scripted env it (During env it w) (During env it w)
    (if Text.contains it.file "rlog" then
      Request.ignore (parse_model_and_store env it.dongle it.ts it.seg it.file body)
    else pure ()) (.ok ()) (model_pieces env it body) := by
  rw [model_pieces]
  split
  · rw [parse_model_and_store]
    cases env.extract_model it.file body with
    | none => exact .pure _ ()
    | some json =>
        have listed : ("model.json" : Text) ∈ ("model.json" : Text) :: ARTIFACTS := List.mem_cons_self
        -- an error that is replaced and then discarded
        show Scripted env it _ _ (Request.attempt
          (.write (.blob_put (.segment it.dongle it.ts it.seg "model.json") json))) _ _
        exact .attempt (x := .derived "model.json" json) (fun _ _ => rfl) (by simp [Write.part]) rfl
          (fun _ holds => holds) fun s during =>
            ⟨ready_derived listed json s, during.carry (ready_derived listed json s)⟩
  · exact .pure _ ()

theorem script_store (absent : w.blobs.read (env.path it.name) = none)
    (known : (w.db.accounts.devices.get? it.dongle).isSome) (body : Bytes) :
    Scripted env it (fun s => s = w) (During env it w) (store env it.dongle it.name body) (.ok ())
      [.blob body, .used body.length] := by
  have looked : Scripted env it (fun s => s = w) (fun s => s = w) (blob_exists env it.name) (.ok false) [] :=
    .blob_exists fun s here => by rw [here, absent]; rfl
  have put : Scripted env it (fun s => s = w) (During env it w) (execute (.blob_put it.name body))
      (.ok ()) [.blob body] :=
    .execute (fun _ _ => rfl) (by simp [Write.part]) rfl fun s here => by
      obtain rfl := here
      exact ⟨(ready_plain s).1 body, (During.init known).carry ((ready_plain s).1 body)⟩
  have count : Scripted env it (During env it w) (During env it w)
      (Request.attempt (.write (.add_server_storage it.dongle body.length))) (.ok ()) [.used body.length] :=
    .attempt (fun _ _ => rfl) (by simp [Write.part]) rfl (fun _ holds => holds) fun s during =>
      ⟨(ready_plain s).2.1 _, during.carry ((ready_plain s).2.1 _)⟩
  have mapped : Scripted env it (fun s => s = w) (During env it w)
      (Request.map_err (execute (.blob_put it.name body)) (.Other "blob write")) (.ok ()) [.blob body] :=
    Scripting.Script.map (h := fun r => r.mapError fun _ => AppError.Other "blob write") put
      fun e => ⟨_, rfl⟩
  rw [store]
  exact .bind looked (.bind (l := []) (.pure _ ()) (.bind mapped count))

theorem script_ingest (kind : (file_kind it.file).isSome)
    (absent : w.blobs.read (env.path it.name) = none)
    (known : (w.db.accounts.devices.get? it.dongle).isSome) (body : Bytes) :
    Scripted env it (fun s => s = w) (During env it w)
      (ingest_segment_file env it.dongle it.ts it.seg it.file body) (register_result env it body)
      (ingest_pieces env it w body) := by
  have stored := script_store absent known body
  have registered : Scripted env it (During env it w) _ _ _ _ := script_register kind body
  rw [ingest_segment_file, ingest_pieces, later_pieces]
  cases result : register_result env it body with
  | error e =>
      rw [result] at registered
      rw [List.append_nil]
      exact .bind stored (.bind_error registered)
  | ok u =>
      rw [result] at registered
      refine Scripted.listed (l := [.blob body, .used body.length] ++
        (register_pieces env it w body ++ model_pieces env it body)) ?_ rfl
      exact .bind stored (.bind registered (script_model body))

/-- The registration or ingestion of an item is the script of its plan. -/
theorem script_processing (kind : (file_kind it.file).isSome)
    (known : (w.db.accounts.devices.get? it.dongle).isSome) :
    ∃ r J, Scripted env it (fun s => s = w) J
      (if (w.blobs.read (env.path it.name)).isSome then register_on_disk env it
        else pull_and_ingest env it) r (plan env it w) := by
  have start : ∀ s, s = w → During env it w s := by
    rintro s rfl
    exact .init known
  cases found : w.blobs.read (env.path it.name) with
  | some body =>
      refine ⟨register_result env it body, During env it w, ?_⟩
      rw [if_pos Option.isSome_some, plan, found, register_on_disk, body_on_disk]
      dsimp only
      have registered : ∀ body, Scripted env it (fun s => s = w) (During env it w) _ _ _ :=
        fun body => Scripting.Script.weaken (script_register kind body) start fun _ holds => holds
      by_cases qlog : Text.contains it.file "qlog" = true
      · rw [if_pos qlog]
        refine Scripted.bind (l := []) ?_ (registered body)
        refine Scripted.select (a := some body) (fun s here => by rw [here, found]) ?_
        exact .pure _ body
      · rw [if_neg qlog]
        have same : register_result env it body = register_result env it [] ∧
            register_pieces env it w body = register_pieces env it w [] := by
          simp only [register_result, register_pieces, if_neg qlog, and_self]
        rw [same.1, same.2]
        exact Scripted.bind (l := []) (m := register_pieces env it w []) (.pure _ _) (registered [])
  | none =>
      rw [if_neg (by simp), plan, found, pull_and_ingest]
      dsimp only
      cases copied : pulled it w with
      | none =>
          -- nothing is written when the copy fails
          have failed : ∃ e, Scripted env it (fun s => s = w) (fun s => s = w)
              (pull_file it.addr it.dongle (remote_path it.ts it.seg it.file)) (.error e) [] := by
            rw [pull_file]
            by_cases unknown : it.addr = []
            · refine ⟨.BadRequest "device address unknown (not seen online yet)", .bind_error ?_⟩
              rw [Request.err_if, if_pos unknown]
              exact Scripting.Script.ret _ _
            · rw [pulled, if_neg unknown] at copied
              refine ⟨.Other "scp failed", ?_⟩
              rw [Request.err_if, if_neg unknown]
              refine Scripted.bind (l := []) (.pure _ ()) ?_
              refine Scripted.select (a := none) (fun s here => by rw [here, copied]) ?_
              exact Scripting.Script.ret _ _
          obtain ⟨e, failed⟩ := failed
          exact ⟨.error e, fun s => s = w, .bind_error failed⟩
      | some body =>
          have addressed : it.addr ≠ [] := by
            intro unknown
            rw [pulled, if_pos unknown] at copied
            cases copied
          rw [pulled, if_neg addressed] at copied
          refine ⟨register_result env it body, During env it w, ?_⟩
          refine Scripted.bind (l := []) ?_ (script_ingest kind found known body)
          rw [pull_file, Request.err_if, if_neg addressed]
          refine Scripted.bind (l := []) (.pure _ ()) ?_
          refine Scripted.select (a := some body) (fun s here => by rw [here, copied]) ?_
          exact .pure _ body

end Functions

end HomeConnect.Sync
