/-
# Manage.Derived -- what a delete leaves of what was made from the deleted files

`delete` removes the raw files of the selected types, the cameras' transcodes and their
movies.  What else was made from them stays: the audio extracts, the transcript and the
movies whose sound came from a qcamera, an rlog's model, everything derived from a qlog.  It
goes by the route's segment rows, so files of a segment without a row stay as well; and the
handlers that serve all these look at the files only.

`NothingLeft` says that there was none of it before, which is when nothing made from the
deleted types can be fetched afterwards (`nothing_derived_iff`).
-/
import HomeConnect.Drives.Poles
import HomeConnect.Manage.Delete
import HomeConnect.Media.Fetch
import HomeConnect.Storage.Keys

namespace HomeConnect.Manage

open HomeConnect.Theory HomeConnect.Storage HomeConnect.Drives HomeConnect.Media

set_option autoImplicit false

/-! ## What is made from what -/

/-- What is fetched was made from files of the type.  `heard cam` says that the stored movie
of the camera has a qcamera's sound. -/
def Derived (heard : Text → Bool) : Fetch → Text → Prop
  | .connectdata _ file, t =>
      (t = ("qlog" : Text) ∧ file ∈ ARTIFACTS) ∨ (t = ("rlog" : Text) ∧ file = ("model.json" : Text))
  | .transcode _ file, t => t ∈ Retention.TRANSCODED ∧ Fetch.stem ".ts" file = t
  | .audio _, t => t = ("qcamera" : Text)
  | .movie cam, t =>
      Fetch.stem ".mp4" cam = t ∨ (t = ("qcamera" : Text) ∧ heard (Fetch.stem ".mp4" cam))
  | .subs, t => t = ("qcamera" : Text)

/-- The numbers of a route's segment rows. -/
def numbers (w : World) (name : Text) : List Int := (w.db.route_segments name).map Segment.number

/-- Before the delete there was none of what it doesn't remove. -/
structure NothingLeft (env : Env) (w : World) (dongle ts : Text) (types : List Text)
    (heard : Text → Bool) : Prop where
  /-- A camera's transcodes and files are of segments that have a row. -/
  transcodes : ∀ cam ∈ types, cam ∈ Retention.TRANSCODED → ∀ src, camera_source cam = some src →
    ∀ seg ∉ numbers w (fullname dongle ts),
      ¬ cached_there w (cache_path dongle ts seg cam) ∧ ¬ blob_there env w (.segment dongle ts seg src)
  audio : ("qcamera" : Text) ∈ types → ∀ seg, ¬ cached_there w (audio_path dongle ts seg) ∧
    (seg ∉ numbers w (fullname dongle ts) → ¬ blob_there env w (.segment dongle ts seg "qcamera.ts"))
  movies : ("qcamera" : Text) ∈ types → ∀ cam ∈ MOVIE_CAMS, cam ∉ types → heard cam = true →
    ¬ blob_there env w (.movie dongle ts cam)
  subs : ("qcamera" : Text) ∈ types → ¬ blob_there env w (.subs dongle ts)
  model : ("rlog" : Text) ∈ types → ∀ seg, ¬ blob_there env w (.segment dongle ts seg "model.json")
  artifacts : ("qlog" : Text) ∈ types → ∀ seg, ∀ file ∈ ARTIFACTS,
    ¬ blob_there env w (.segment dongle ts seg file)

/-! ## What a delete removes -/

/-- These files are gone, every other is as it was, and so are the accounts. -/
structure Cleared (gone : BlobPath → Prop) (gone_ts : Text → Prop) (w w' : World) : Prop where
  blobs : ∀ path, gone path → w'.blobs.read path = none
  other_blobs : ∀ path, ¬ gone path → w'.blobs.read path = w.blobs.read path
  cached : ∀ file, gone_ts file → w'.transcode.read file = none
  other_cached : ∀ file, ¬ gone_ts file → w'.transcode.read file = w.transcode.read file
  accounts : w'.db.accounts = w.db.accounts

theorem Cleared.refl (w : World) : Cleared (fun _ => False) (fun _ => False) w w :=
  ⟨fun _ => False.elim, fun _ _ => rfl, fun _ => False.elim, fun _ _ => rfl, rfl⟩

theorem Cleared.trans {gone gone' : BlobPath → Prop} {gone_ts gone_ts' : Text → Prop}
    {w₁ w₂ w₃ : World} (first : Cleared gone gone_ts w₁ w₂) (second : Cleared gone' gone_ts' w₂ w₃) :
    Cleared (fun path => gone path ∨ gone' path) (fun file => gone_ts file ∨ gone_ts' file) w₁ w₃ where
  blobs path either := by
    by_cases again : gone' path
    · exact second.blobs path again
    · rw [second.other_blobs path again, first.blobs path (either.resolve_right again)]
  other_blobs path neither := by
    obtain ⟨first', second'⟩ := not_or.1 neither
    rw [second.other_blobs path second', first.other_blobs path first']
  cached file either := by
    by_cases again : gone_ts' file
    · exact second.cached file again
    · rw [second.other_cached file again, first.cached file (either.resolve_right again)]
  other_cached file neither := by
    obtain ⟨first', second'⟩ := not_or.1 neither
    rw [second.other_cached file second', first.other_cached file first']
  accounts := second.accounts.trans first.accounts

theorem Cleared.congr {gone gone' : BlobPath → Prop} {gone_ts gone_ts' : Text → Prop} {w w' : World}
    (cleared : Cleared gone gone_ts w w') (blobs : ∀ path, gone path ↔ gone' path)
    (cached : ∀ file, gone_ts file ↔ gone_ts' file) : Cleared gone' gone_ts' w w' where
  blobs path is := cleared.blobs path ((blobs path).2 is)
  other_blobs path not := cleared.other_blobs path fun is => not ((blobs path).1 is)
  cached file is := cleared.cached file ((cached file).2 is)
  other_cached file not := cleared.other_cached file fun is => not ((cached file).1 is)
  accounts := cleared.accounts

/-- Whenever the function returns, it has removed just these. -/
def Clears {α : Type} (env : Env) (p : Request Op α) (gone : BlobPath → Prop)
    (gone_ts : Text → Prop) : Prop :=
  ∀ w a w', alone env p w = (.ok a, w') → Cleared gone gone_ts w w'

section Clears

variable {env : Env} {α β : Type} {p : Request Op α} {gone gone' : BlobPath → Prop}
  {gone_ts gone_ts' : Text → Prop}

theorem Clears.bind {q : α → Request Op β} (first : Clears env p gone gone_ts)
    (rest : ∀ a, Clears env (q a) gone' gone_ts') :
    Clears env (p >>= q) (fun path => gone path ∨ gone' path)
      (fun file => gone_ts file ∨ gone_ts' file) := by
  intro w b w' ran
  obtain ⟨a, w₁, ran_first, ran_rest⟩ := ok_of_bind ran
  exact (first w a w₁ ran_first).trans (rest a w₁ b w' ran_rest)

theorem Clears.congr (clears : Clears env p gone gone_ts) (blobs : ∀ path, gone path ↔ gone' path)
    (cached : ∀ file, gone_ts file ↔ gone_ts' file) : Clears env p gone' gone_ts' :=
  fun w a w' ran => (clears w a w' ran).congr blobs cached

/-- The write touches no file and no account. -/
def Bystander (s : Write) : Prop := s.part ≠ .blobs ∧ s.part ≠ .transcode ∧ s.part ≠ .accounts

theorem bystander_of_part {s : Write} (part : Part) (is : s.part = part)
    (aside : part ≠ .blobs ∧ part ≠ .transcode ∧ part ≠ .accounts) : Bystander s := by
  subst is
  exact aside

theorem Clears.of_writes (writes : Writes Bystander p) :
    Clears env p (fun _ => False) (fun _ => False) := by
  intro w a w' ran
  have kept : (alone env p w).2.blobs = w.blobs ∧ (alone env p w).2.transcode = w.transcode ∧
      (alone env p w).2.db.accounts = w.db.accounts := by
    refine WritesOnly.alone (R := fun w w' => w'.blobs = w.blobs ∧ w'.transcode = w.transcode ∧
      w'.db.accounts = w.db.accounts) (fun _ => ⟨rfl, rfl, rfl⟩) ?_ ?_ (fun _ _ => ⟨rfl, rfl, rfl⟩)
      writes.only w
    · rintro _ _ _ ⟨blobs, cached, accounts⟩ ⟨blobs', cached', accounts'⟩
      exact ⟨blobs'.trans blobs, cached'.trans cached, accounts'.trans accounts⟩
    · intro s w w' aside done
      have framed := Write.framed done
      exact ⟨(framed.blobs aside.1).1, (framed.transcode aside.2.1).1, framed.accounts aside.2.2⟩
  rw [ran] at kept
  obtain ⟨blobs, cached, accounts⟩ := kept
  exact ⟨fun _ => False.elim, fun path _ => by rw [blobs], fun _ => False.elim,
    fun file _ => by rw [cached], accounts⟩

theorem Clears.pure (a : α) : Clears env (pure a) (fun _ => False) (fun _ => False) := by
  intro w b w' ran
  cases ran
  exact .refl w

theorem Clears.blob_delete (name : BlobName) :
    Clears env (Request.attempt (.write (.blob_delete name))) (fun path => path = env.path name)
      (fun _ => False) := by
  intro w a w' ran
  have done : Write.exec env (.blob_delete name) w =
      some { w with blobs := w.blobs.remove (env.path name) } := rfl
  rw [alone_attempt done] at ran
  cases ran
  refine ⟨fun path is => ?_, fun path other => ?_, fun _ => False.elim, fun _ _ => rfl, rfl⟩
  · show Dir.read (w.blobs.remove _) path = none
    rw [Dir.read_remove, if_pos is]
  · show Dir.read (w.blobs.remove _) path = _
    rw [Dir.read_remove, if_neg other]

theorem Clears.ts_remove (name : TsName) :
    Clears env (Request.attempt (.write (.ts_remove name))) (fun _ => False)
      (fun file => file = name.file) := by
  intro w a w' ran
  have done : Write.exec env (.ts_remove name) w =
      some { w with transcode := w.transcode.remove name.file } := rfl
  rw [alone_attempt done] at ran
  cases ran
  refine ⟨fun _ => False.elim, fun _ _ => rfl, fun file is => ?_, fun file other => ?_, rfl⟩
  · show Dir.read (w.transcode.remove _) file = none
    rw [Dir.read_remove, if_pos is]
  · show Dir.read (w.transcode.remove _) file = _
    rw [Dir.read_remove, if_neg other]

variable (env) in
theorem clears_remove_blob (name : BlobName) :
    Clears env (remove_blob env name) (fun path => path = env.path name) (fun _ => False) := by
  intro w a w' ran
  have looked : alone env (Request.unwrap_or
      (select fun w => (w.blobs.read (env.path name)).map List.length) none) w =
      (.ok ((w.blobs.read (env.path name)).map List.length), w) :=
    alone_unwrap_or none (alone_select _ w)
  rw [remove_blob, alone_bind_ok looked] at ran
  cases found : w.blobs.read (env.path name) with
  | none =>
      rw [found] at ran
      cases ran
      refine ⟨fun path is => ?_, fun _ _ => rfl, fun _ => False.elim, fun _ _ => rfl, rfl⟩
      rw [is, found]
  | some bytes =>
      rw [found] at ran
      have clears : Clears env (Request.attempt (.write (.blob_delete name)) >>= fun _ =>
          pure (1, bytes.length)) _ _ := (Clears.blob_delete name).bind fun _ => Clears.pure _
      exact (clears w a w' ran).congr (by simp) (by simp)

/-- Every step of a sum removes its own. -/
theorem Clears.total {step : α → Request Op (Nat × Nat)} {xs : List α} {gone : α → BlobPath → Prop}
    {gone_ts : α → Text → Prop} (each : ∀ x ∈ xs, Clears env (step x) (gone x) (gone_ts x)) :
    Clears env (Manage.total step xs) (fun path => ∃ x ∈ xs, gone x path)
      (fun file => ∃ x ∈ xs, gone_ts x file) := by
  induction xs with
  | nil => exact (Clears.pure _).congr (by simp) (by simp)
  | cons x xs ih =>
      have rest := ih fun y member => each y (List.mem_cons_of_mem _ member)
      have both : Clears env (Manage.total step (x :: xs)) _ _ :=
        (each x List.mem_cons_self).bind fun counts => rest.bind fun counts' => Clears.pure _
      exact both.congr (by simp) (by simp)

/-- A loop over the types removes what its rounds do. -/
theorem Clears.forM {step : α → Request Op Unit} {xs : List α} {gone : α → BlobPath → Prop}
    (each : ∀ x ∈ xs, Clears env (step x) (gone x) (fun _ => False)) :
    Clears env (xs.forM step) (fun path => ∃ x ∈ xs, gone x path) (fun _ => False) := by
  induction xs with
  | nil => exact (Clears.pure _).congr (by simp) (by simp)
  | cons x xs ih =>
      have rest := ih fun y member => each y (List.mem_cons_of_mem _ member)
      have both : Clears env ((x :: xs).forM step) _ _ :=
        (each x List.mem_cons_self).bind fun _ => rest
      exact both.congr (by simp) (by simp)

end Clears

/-! ## The handler -/

/-- The files of a type. -/
def files_of (t : Text) : List Text := ((type_spec t).map Prod.fst).getD []

/-- The files that a delete of the types removes. -/
def Goes (env : Env) (dongle ts : Text) (segs : List Int) (types : List Text) (path : BlobPath) : Prop :=
  (∃ seg ∈ segs, ∃ t ∈ types, ∃ file ∈ files_of t, path = env.path (.segment dongle ts seg file)) ∨
    ∃ t ∈ types, t ∈ MOVIE_CAMS ∧ path = env.path (.movie dongle ts t)

def GoesTs (dongle ts : Text) (segs : List Int) (types : List Text) (file : Text) : Prop :=
  ∃ seg ∈ segs, ∃ t ∈ types, t ∈ Retention.TRANSCODED ∧ file = (cache_path dongle ts seg t).file

section Handler

variable (env : Env) (dongle ts : Text)

theorem clears_remove_transcode (seg : Int) (t : Text) :
    Clears env (remove_transcode dongle ts seg t) (fun _ => False)
      (fun file => t ∈ Retention.TRANSCODED ∧ file = (cache_path dongle ts seg t).file) := by
  unfold remove_transcode
  split
  case isTrue camera => exact (Clears.ts_remove _).congr (by simp) (by simp [camera, cache_path])
  case isFalse other => exact (Clears.pure _).congr (by simp) (by simp [other])

theorem type_spec_of_transcoded {t : Text} (camera : t ∈ Retention.TRANSCODED) :
    (type_spec t).isSome = true := by
  revert t
  decide

theorem clears_delete_type (seg : Int) (t : Text) :
    Clears env (delete_type env dongle ts seg t)
      (fun path => ∃ file ∈ files_of t, path = env.path (.segment dongle ts seg file))
      (fun file => t ∈ Retention.TRANSCODED ∧ file = (cache_path dongle ts seg t).file) := by
  cases spec : type_spec t with
  | none =>
      have other : t ∉ Retention.TRANSCODED := fun camera => by
        have known := type_spec_of_transcoded camera
        rw [spec] at known
        cases known
      simp only [delete_type, files_of, spec]
      exact (Clears.pure _).congr (by simp) (by simp [other])
  | some found =>
      obtain ⟨names, col⟩ := found
      simp only [delete_type, files_of, spec]
      have cleared : Clears env (clear_segment_col dongle ts seg col) _ _ :=
        .of_writes (.attempt (bystander_of_part .segments rfl (by decide)))
      have each : Clears env (total _ names) _ _ := Clears.total fun name _ =>
        clears_remove_blob env (.segment dongle ts seg name)
      have all := each.bind fun counts => cleared.bind fun _ =>
        (clears_remove_transcode env dongle ts seg t).bind fun _ => Clears.pure counts
      exact all.congr (by simp) (by simp)

theorem clears_drop_movie (t : Text) :
    Clears env (drop_movie dongle ts t)
      (fun path => t ∈ MOVIE_CAMS ∧ path = env.path (.movie dongle ts t)) (fun _ => False) := by
  unfold drop_movie
  split
  case isTrue listed =>
    have row : Clears env (Request.attempt (.write (.delete_movie (fullname dongle ts) t))) _ _ :=
      .of_writes (.attempt (bystander_of_part .movies rfl (by decide)))
    have both : Clears env (delete_movie dongle ts t) _ _ := (Clears.blob_delete _).bind fun _ => row
    exact both.congr (by simp [listed]) (by simp)
  case isFalse other => exact (Clears.pure _).congr (by simp [other]) (by simp)

theorem clears_remove_from_server (name : Text) (segs : List Int) (types : List Text) :
    Clears env (remove_from_server env name dongle ts segs types) (Goes env dongle ts segs types)
      (GoesTs dongle ts segs types) := by
  have files : Clears env (total (fun seg => total (delete_type env dongle ts seg) types) segs) _ _ :=
    Clears.total fun seg _ => Clears.total fun t _ => clears_delete_type env dongle ts seg t
  have summed : Clears env (recompute_route dongle ts) _ _ :=
    .of_writes (.bind (.select _) fun _ => .ite (.pure _)
      (.execute (bystander_of_part .routes rfl (by decide))))
  have movies : Clears env (types.forM (drop_movie dongle ts)) _ _ :=
    Clears.forM fun t _ => clears_drop_movie env dongle ts t
  have pinned : Clears env (pin_types env name types) _ _ :=
    .of_writes (.bind (writes_effective_route_types env name) fun _ =>
      .ignore (.execute (bystander_of_part .routes rfl (by decide))))
  have all := files.bind fun counts => summed.bind fun _ => movies.bind fun _ => pinned.bind fun _ =>
    Clears.pure counts
  exact all.congr (by simp [Goes]) (by simp [GoesTs])

theorem clears_device_part (req : DeleteReq) (segs : List Int) :
    Clears env (device_part req dongle ts segs) (fun _ => False) (fun _ => False) := by
  refine .of_writes (.ite (.bind (.select _) fun found => ?_) (.pure _))
  cases found with
  | none => exact .throw _
  | some device =>
      refine .bind (.err_if _ _) fun _ => .bind (.err_if _ _) fun _ => .bind ?_ fun _ => .pure _
      refine writes_total fun path _ => .bind (.select _) fun _ => .ite (.bind ?_ fun _ => .pure _) (.pure _)
      exact .execute (bystander_of_part .remote rfl (by decide))

variable {env dongle ts}

/-- Of who may manage it there is a device. -/
theorem known_of_can_manage {user : Accounts.User} {device : Accounts.Device} {w w' : World}
    (ran : alone env (can_manage_device user dongle) w = (.ok device, w')) :
    w.db.accounts.devices.get? dongle = some device ∧ w' = w := by
  obtain ⟨found, w₁, loaded, ran⟩ := ok_of_bind ran
  have read : alone env (load_device dongle) w = (.ok (w.db.accounts.devices.get? dongle), w) :=
    alone_select _ w
  rw [read] at loaded
  cases loaded
  cases found : w.db.accounts.devices.get? dongle with
  | none =>
      rw [found] at ran
      cases ran
  | some listed =>
      rw [found] at ran
      obtain ⟨may, w₂, asked, ran⟩ := ok_of_bind ran
      have unmoved : w₂ = w := by
        have same := unchanged_of_finishes (.of_alone asked) (by
          rw [can_manage_loaded]
          split
          · exact .pure _
          · exact .select _)
        exact same
      obtain ⟨_, w₃, passed, ran⟩ := ok_of_bind ran
      cases may with
      | false => cases passed
      | true =>
          cases passed
          cases ran
          exact ⟨rfl, unmoved⟩

theorem delete_clears {user : Accounts.User} {name : Text} {req : DeleteReq} {w w' : World}
    {reply : DeleteReply} (split : split_fullname name = .ok (dongle, ts))
    (server : req.do_server = true) (ran : alone env (delete env user name req) w = (.ok reply, w')) :
    (∃ device, w.db.accounts.devices.get? dongle = some device) ∧
      Cleared (Goes env dongle ts (numbers w name) req.types)
        (GoesTs dongle ts (numbers w name) req.types) w w' := by
  unfold delete at ran
  rw [split] at ran
  obtain ⟨route, w₀, got, routed⟩ := ok_of_bind ran
  cases got
  dsimp only at routed
  obtain ⟨device, w₁, managed, allowed⟩ := ok_of_bind routed
  obtain ⟨known, rfl⟩ := known_of_can_manage managed
  refine ⟨⟨device, known⟩, ?_⟩
  obtain ⟨_, w₂, listed, asked⟩ := ok_of_bind allowed
  cases listed
  obtain ⟨_, w₂, passed, checked⟩ := ok_of_bind asked
  have still : w₂ = w₁ := unchanged_of_finishes (.of_alone passed) (.err_if _ _)
  subst still
  have device_files := clears_device_part env dongle ts req (numbers w₂ name)
  have files : Clears env (server_part env req name dongle ts (numbers w₂ name))
      (Goes env dongle ts (numbers w₂ name) req.types) (GoesTs dongle ts (numbers w₂ name) req.types) := by
    rw [server_part, if_pos server]
    exact clears_remove_from_server env dongle ts name (numbers w₂ name) req.types
  have all := device_files.bind fun removed => files.bind fun counts =>
    Clears.pure (DeleteReply.mk counts.1 counts.2 removed)
  exact (all w₂ reply w' checked).congr (by simp) (by simp)

end Handler

/-! ## What is left -/

section Left

variable {env : Env} {w w' : World} {dongle ts : Text} {segs : List Int} {types : List Text}

/-- The types there are files of. -/
def FILE_TYPES : List Text := ["qcamera", "fcamera", "dcamera", "ecamera", "qlog", "rlog"]

theorem listed_of_file {t file : Text} (member : file ∈ files_of t) : t ∈ FILE_TYPES := by
  by_contra other
  simp only [FILE_TYPES, List.mem_cons, List.not_mem_nil, or_false, not_or] at other
  obtain ⟨h₁, h₂, h₃, h₄, h₅, h₆⟩ := other
  rw [files_of, type_spec, if_neg h₁, if_neg h₂, if_neg h₃, if_neg h₄, if_neg h₅, if_neg h₆] at member
  cases member

/-- The raw files are stored under their own names, and are no derived ones. -/
theorem plain_file {t file : Text} (member : file ∈ files_of t) :
    '_' ∉ sanitize file ∧ file ≠ ("model.json" : Text) ∧ file ∉ ARTIFACTS := by
  have each : ∀ t ∈ FILE_TYPES, ∀ file ∈ files_of t,
      '_' ∉ sanitize file ∧ file ≠ ("model.json" : Text) ∧ file ∉ ARTIFACTS := by decide
  exact each t (listed_of_file member) file member

/-- A number is no word. -/
theorem decimal_ne {word : Text} (letter : ∃ c ∈ word, c ≠ '-' ∧ c.isDigit = false) (seg : Int) :
    Text.decimal seg ≠ word := by
  obtain ⟨c, member, dash, digit⟩ := letter
  rintro rfl
  have among : ∃ n, c ∈ Nat.toDigits 10 n := by
    cases seg with
    | ofNat n => exact ⟨n, member⟩
    | negSucc n => exact ⟨n + 1, (List.mem_cons.1 member).resolve_left dash⟩
  obtain ⟨n, among⟩ := among
  rw [Nat.isDigit_of_mem_toDigits (by omega) (by omega) among] at digit
  cases digit

theorem goes_segment_iff (seg : Int) (file : Text) :
    Goes env dongle ts segs types (env.path (.segment dongle ts seg file)) ↔
      seg ∈ segs ∧ ∃ t ∈ types, file ∈ files_of t := by
  constructor
  · rintro (⟨seg', member, t, asked, file', its, same⟩ | ⟨t, _, _, same⟩)
    · obtain ⟨rfl, rfl⟩ := segment_of_path (plain_file its).1 same
      exact ⟨member, t, asked, its⟩
    · have mids : Text.decimal seg = ("movie" : Text) :=
        (parts_of_path (a := .segment dongle ts seg file) (b := .movie dongle ts t) rfl same).1
      exact absurd mids (decimal_ne ⟨'m', by decide⟩ seg)
  · rintro ⟨member, t, asked, its⟩
    exact .inl ⟨seg, member, t, asked, file, its, rfl⟩

theorem goes_movie_iff {cam : Text} (listed : cam ∈ MOVIE_CAMS) :
    Goes env dongle ts segs types (env.path (.movie dongle ts cam)) ↔ cam ∈ types := by
  constructor
  · rintro (⟨seg, _, t, _, file, _, same⟩ | ⟨t, asked, its, same⟩)
    · have mids : ("movie" : Text) = Text.decimal seg :=
        (parts_of_path (a := .movie dongle ts cam) (b := .segment dongle ts seg file) rfl same).1
      exact absurd mids.symm (decimal_ne ⟨'m', by decide⟩ seg)
    · have lasts := (parts_of_path (a := .movie dongle ts cam) (b := .movie dongle ts t) rfl same).2
      have plain : ∀ t ∈ MOVIE_CAMS, '_' ∉ sanitize (t ++ ".mp4") := by decide
      have same := eq_of_sanitize (plain t its) lasts
      rw [List.append_cancel_right same]
      exact asked
  · intro asked
    exact .inr ⟨cam, asked, listed, rfl⟩

theorem not_goes_subs : ¬ Goes env dongle ts segs types (env.path (.subs dongle ts)) := by
  rintro (⟨seg, _, t, _, file, _, same⟩ | ⟨t, _, _, same⟩)
  · have mids : ("subs" : Text) = Text.decimal seg :=
      (parts_of_path (a := .subs dongle ts) (b := .segment dongle ts seg file) rfl same).1
    exact absurd mids.symm (decimal_ne ⟨'s', by decide⟩ seg)
  · have mids : ("subs" : Text) = ("movie" : Text) :=
      (parts_of_path (a := .subs dongle ts) (b := .movie dongle ts t) rfl same).1
    exact absurd mids (by decide)

theorem goes_ts_iff (seg : Int) (stem : Text) :
    GoesTs dongle ts segs types (cache_path dongle ts seg stem).file ↔
      seg ∈ segs ∧ stem ∈ types ∧ stem ∈ Retention.TRANSCODED := by
  constructor
  · rintro ⟨seg', member, t, asked, camera, same⟩
    obtain ⟨rfl, rfl⟩ := TsName.of_file same
    exact ⟨member, asked, camera⟩
  · rintro ⟨member, asked, camera⟩
    exact ⟨seg, member, stem, asked, camera, rfl⟩

/-- What is stored afterwards was stored before, and didn't go. -/
theorem Cleared.blob_there_iff {gone : BlobPath → Prop} {gone_ts : Text → Prop}
    (cleared : Cleared gone gone_ts w w') (name : BlobName) :
    blob_there env w' name ↔ ¬ gone (env.path name) ∧ blob_there env w name := by
  unfold blob_there
  by_cases goes : gone (env.path name)
  · rw [cleared.blobs _ goes]
    simp [goes]
  · rw [cleared.other_blobs _ goes]
    simp [goes]

theorem Cleared.cached_there_iff {gone : BlobPath → Prop} {gone_ts : Text → Prop}
    (cleared : Cleared gone gone_ts w w') (name : TsName) :
    cached_there w' name ↔ ¬ gone_ts name.file ∧ cached_there w name := by
  unfold cached_there
  by_cases goes : gone_ts name.file
  · rw [cleared.cached _ goes]
    simp [goes]
  · rw [cleared.other_cached _ goes]
    simp [goes]

/-- The source of a camera is a file of its type. -/
theorem source_listed {cam src : Text} (source : camera_source cam = some src) :
    cam ∈ Retention.TRANSCODED ∧ src ∈ files_of cam := by
  unfold camera_source at source
  split at source
  case isTrue is => subst is; cases source; decide
  split at source
  case isTrue is => subst is; cases source; decide
  split at source
  case isTrue is => subst is; cases source; decide
  case isFalse => cases source

end Left

/-! ## Nothing derived can be fetched -/

section Result

variable {env : Env} {w w' : World} {dongle ts : Text} {types : List Text} {heard : Text → Bool}

/-- In terms of files: once the deleted ones are gone, nothing derived is held just when
there was none of what isn't deleted. -/
theorem nothing_held_iff
    (cleared : Cleared (Goes env dongle ts (numbers w (fullname dongle ts)) types)
      (GoesTs dongle ts (numbers w (fullname dongle ts)) types) w w') :
    (∀ t ∈ types, ∀ fetch, Derived heard fetch t → ¬ Fetch.held env w' dongle ts fetch) ↔
      NothingLeft env w dongle ts types heard := by
  have segment_there (seg : Int) (file : Text) :
      blob_there env w' (.segment dongle ts seg file) ↔
        ¬ (seg ∈ numbers w (fullname dongle ts) ∧ ∃ t ∈ types, file ∈ files_of t) ∧
          blob_there env w (.segment dongle ts seg file) := by
    rw [cleared.blob_there_iff, goes_segment_iff]
  have ts_there (seg : Int) (stem : Text) : cached_there w' (cache_path dongle ts seg stem) ↔
      ¬ (seg ∈ numbers w (fullname dongle ts) ∧ stem ∈ types ∧ stem ∈ Retention.TRANSCODED) ∧
        cached_there w (cache_path dongle ts seg stem) := by
    rw [cleared.cached_there_iff, goes_ts_iff]
  -- an audio extract is no camera's transcode, so it stays
  have audio_there (seg : Int) :
      cached_there w' (audio_path dongle ts seg) ↔ cached_there w (audio_path dongle ts seg) := by
    have other : ("audio" : Text) ∉ Retention.TRANSCODED := by decide
    refine (ts_there seg "audio").trans (and_iff_right ?_)
    exact fun goes => other goes.2.2
  have stays (seg : Int) {file : Text} (derived : file = ("model.json" : Text) ∨ file ∈ ARTIFACTS) :
      blob_there env w' (.segment dongle ts seg file) ↔ blob_there env w (.segment dongle ts seg file) := by
    refine (segment_there seg file).trans (and_iff_right ?_)
    rintro ⟨_, t, _, its⟩
    exact derived.elim (plain_file its).2.1 (plain_file its).2.2
  constructor
  · intro none
    constructor
    · intro cam asked camera src source seg rowless
      have stem : Fetch.stem ".ts" cam = cam := by
        have each : ∀ cam ∈ Retention.TRANSCODED, Fetch.stem ".ts" cam = cam := by decide
        exact each cam camera
      have not_held := none cam asked (.transcode seg cam) ⟨camera, stem⟩
      have not_there : ¬ (cached_there w' (cache_path dongle ts seg cam) ∨
          blob_there env w' (.segment dongle ts seg src)) :=
        fun there => not_held ⟨src, by rw [stem, source], by rw [stem]; exact there⟩
      rw [ts_there, segment_there] at not_there
      constructor
      · exact fun there => not_there (.inl ⟨fun goes => rowless goes.1, there⟩)
      · exact fun there => not_there (.inr ⟨fun goes => rowless goes.1, there⟩)
    · intro asked seg
      have not_held : ¬ (cached_there w' (audio_path dongle ts seg) ∨
          blob_there env w' (.segment dongle ts seg "qcamera.ts")) := none _ asked (.audio seg) rfl
      rw [audio_there, segment_there] at not_held
      constructor
      · exact fun there => not_held (.inl there)
      · exact fun rowless there => not_held (.inr ⟨fun goes => rowless goes.1, there⟩)
    · intro asked cam listed kept sound there
      have stem : Fetch.stem ".mp4" cam = cam := by
        have each : ∀ cam ∈ MOVIE_CAMS, Fetch.stem ".mp4" cam = cam := by decide
        exact each cam listed
      have not_held := none _ asked (.movie cam) (.inr ⟨rfl, by rw [stem]; exact sound⟩)
      refine not_held ⟨by rw [stem]; exact listed, ?_⟩
      rw [stem, cleared.blob_there_iff, goes_movie_iff listed]
      exact ⟨kept, there⟩
    · intro asked there
      refine none _ asked .subs rfl ?_
      exact (cleared.blob_there_iff _).2 ⟨not_goes_subs, there⟩
    · intro asked seg there
      exact none _ asked (.connectdata seg "model.json") (.inr ⟨rfl, rfl⟩) ((stays seg (.inl rfl)).2 there)
    · intro asked seg file listed there
      exact none _ asked (.connectdata seg file) (.inl ⟨rfl, listed⟩) ((stays seg (.inr listed)).2 there)
  · intro left t asked fetch derived held
    cases fetch with
    | connectdata seg file =>
        rcases derived with ⟨rfl, listed⟩ | ⟨rfl, rfl⟩
        · exact left.artifacts asked seg file listed ((stays seg (.inr listed)).1 held)
        · exact left.model asked seg ((stays seg (.inl rfl)).1 held)
    | transcode seg file =>
        obtain ⟨camera, stem⟩ := derived
        obtain ⟨src, source, there⟩ := held
        rw [stem] at source there
        rw [ts_there, segment_there] at there
        -- of a segment with a row both are gone, of another neither was there
        by_cases row : seg ∈ numbers w (fullname dongle ts)
        · rcases there with ⟨still, _⟩ | ⟨still, _⟩
          · exact still ⟨row, asked, camera⟩
          · exact still ⟨row, t, asked, (source_listed source).2⟩
        · obtain ⟨no_cached, no_source⟩ := left.transcodes t asked camera src source seg row
          exact there.elim (fun cached => no_cached cached.2) fun stored => no_source stored.2
    | audio seg =>
        have is : t = ("qcamera" : Text) := derived
        subst is
        obtain ⟨no_cached, no_source⟩ := left.audio asked seg
        rcases held with cached | stored
        · exact no_cached ((audio_there seg).1 cached)
        · rw [segment_there] at stored
          refine no_source (fun row => stored.1 ⟨row, _, asked, ?_⟩) stored.2
          decide
    | movie cam =>
        obtain ⟨listed, there⟩ := held
        rw [cleared.blob_there_iff, goes_movie_iff listed] at there
        rcases derived with own | ⟨rfl, sound⟩
        · exact there.1 (own ▸ asked)
        · exact left.movies asked _ listed there.1 sound there.2
    | subs =>
        have is : t = ("qcamera" : Text) := derived
        subst is
        exact left.subs asked ((cleared.blob_there_iff _).1 held).2

/-- After a delete on the server nothing made from the deleted types can be fetched, just
when before it there was none of what it doesn't remove. -/
theorem nothing_derived_iff {user : Accounts.User} {name : Text} {req : DeleteReq} {reply : DeleteReply}
    (split : split_fullname name = .ok (dongle, ts)) (server : req.do_server = true)
    (ran : alone env (delete env user name req) w = (.ok reply, w')) :
    (∀ t ∈ req.types, ∀ fetch, Derived heard fetch t → ¬ Serves env w' dongle ts fetch) ↔
      NothingLeft env w dongle ts req.types heard := by
  obtain ⟨⟨device, known⟩, cleared⟩ := delete_clears split server ran
  obtain ⟨rfl, plain⟩ := fullname_of_split split
  rw [← nothing_held_iff cleared]
  have known' : w'.db.accounts.devices.get? dongle = some device := by rw [cleared.accounts, known]
  refine forall₂_congr fun t _ => forall₂_congr fun fetch _ => not_congr ?_
  exact serves_iff known' plain fetch

end Result

/-! ## Poles -/

private def admin : Accounts.User := { id := 1, identity := "u", username := "u", is_admin := 1 }

private def its_qcamera : BlobName := .segment "d" "t" 0 "qcamera.ts"

/-- A drive with a segment and its qcamera; `extracts` are in the transcode directory. -/
private def with_qcamera (extracts : Dir Text) : World :=
  { one_drive (.single (drive_segment 0)) with
    blobs := .single ⟨plain_env.path its_qcamera, [1]⟩
    transcode := extracts }

private def delete_qcamera : DeleteReq := { types := ["qcamera"] }

private theorem qcamera_deleted {w : World}
    (replied : (alone plain_env (delete plain_env admin "d|t" delete_qcamera) w).1 =
      .ok ⟨1, 1, 0⟩) :
    alone plain_env (delete plain_env admin "d|t" delete_qcamera) w =
      (.ok ⟨1, 1, 0⟩, (alone plain_env (delete plain_env admin "d|t" delete_qcamera) w).2) := by
  rw [← replied]

/-- The audio of a segment was played once.  After its qcamera is deleted the extract is
still there to be fetched. -/
theorem audio_outlives_qcamera : ¬ ∀ (env : Env) (w w' : World) (user : Accounts.User)
    (name dongle ts : Text) (req : DeleteReq) (reply : DeleteReply) (heard : Text → Bool),
    split_fullname name = .ok (dongle, ts) → req.do_server = true →
    alone env (delete env user name req) w = (.ok reply, w') →
    ∀ t ∈ req.types, ∀ fetch, Derived heard fetch t → ¬ Serves env w' dongle ts fetch := by
  intro claim
  let w := with_qcamera (.single ⟨(audio_path "d" "t" 0).file, [2]⟩)
  have replied : (alone plain_env (delete plain_env admin "d|t" delete_qcamera) w).1 =
      .ok ⟨1, 1, 0⟩ := by decide
  have ran := qcamera_deleted replied
  refine claim plain_env w _ admin "d|t" "d" "t" delete_qcamera _ (fun _ => false) (by decide) (by decide)
    ran "qcamera" (by decide) (.audio 0) rfl ?_
  have known : (alone plain_env (delete plain_env admin "d|t" delete_qcamera) w).2.db.accounts.devices.get?
      "d" = some { dongle_id := "d" } := by decide
  refine (serves_iff known (by decide) _).2 (.inl ?_)
  have cached : ((alone plain_env (delete plain_env admin "d|t" delete_qcamera) w).2.transcode.read
      (audio_path "d" "t" 0).file).isSome = true := by decide
  exact cached

private theorem only_its_qcamera {extracts : Dir Text} {name : BlobName}
    (there : blob_there plain_env (with_qcamera extracts) name) :
    plain_env.path name = plain_env.path its_qcamera := by
  obtain ⟨bytes, read⟩ := Option.isSome_iff_exists.1 there
  obtain ⟨file, found, _⟩ := Option.map_eq_some_iff.1 read
  obtain ⟨member, path⟩ := Table.get?_eq_some.1 found
  rw [List.mem_singleton.1 member] at path
  exact path.symm

/-- With nothing but the qcamera nothing made from it can be fetched afterwards. -/
theorem nothing_derived_qcamera : ∃ w', ∀ t ∈ delete_qcamera.types, ∀ fetch,
    Derived (fun _ => true) fetch t → ¬ Serves plain_env w' "d" "t" fetch := by
  have replied : (alone plain_env (delete plain_env admin "d|t" delete_qcamera)
      (with_qcamera Table.empty)).1 = .ok ⟨1, 1, 0⟩ := by decide
  have ran := qcamera_deleted replied
  have no_extract (name : TsName) : ¬ cached_there (with_qcamera Table.empty) name := fun there => by
    cases there
  refine ⟨_, (nothing_derived_iff (by decide) (by decide) ran).2 ?_⟩
  constructor
  · intro cam asked camera
    cases List.mem_singleton.1 asked
    exact absurd camera (by decide)
  · intro _ seg
    refine ⟨no_extract _, fun rowless there => rowless ?_⟩
    obtain ⟨rfl, _⟩ := segment_of_path (by decide) (only_its_qcamera there)
    decide
  · intro _ cam _ _ _ there
    have mids : ("movie" : Text) = Text.decimal 0 := (parts_of_path
      (a := .movie "d" "t" cam) (b := its_qcamera) rfl (only_its_qcamera there)).1
    exact absurd mids (by decide)
  · intro _ there
    have mids : ("subs" : Text) = Text.decimal 0 := (parts_of_path
      (a := .subs "d" "t") (b := its_qcamera) rfl (only_its_qcamera there)).1
    exact absurd mids (by decide)
  · intro asked
    exact absurd asked (by decide)
  · intro asked
    exact absurd asked (by decide)

end HomeConnect.Manage
