/-
# Sync.Converge -- scanning again after everything was pulled

Once every item that a scan enqueued has been processed, a scan of the same listing finds
each of those files registered.  But an item is enqueued only when no earlier one has its
key, and a key can stand for two files: the second is left out, and if nothing else
registers it, the next scan enqueues it (`two_files_one_key`).

So the second scan enqueues nothing exactly when every file that was taken is registered
along (`Covered`): by an item of its segment and kind, or by a qlog of its segment that finds
the camera stored (`converges_iff`).  With names that keep keys apart, as openpilot's are,
that is always so (`covered_of_plain`).
-/
import HomeConnect.Drives.Poles
import HomeConnect.Storage.Keys
import HomeConnect.Sync.Enqueued
import HomeConnect.Sync.Processed

namespace HomeConnect.Sync

open HomeConnect.Theory HomeConnect.Storage HomeConnect.Drives

set_option autoImplicit false

/-- Process items one after another, each at its own time; `none` when one fails. -/
def process_all (env : Env) : List (Int × QueueItem) → World → Option World
  | [], w => some w
  | (t, it) :: rest, w =>
      match process env it { w with now := t } with
      | some w' => process_all env rest w'
      | none => none

/-- A name holds at most one of the tokens. -/
def OneToken (file : Text) : Prop :=
  ∀ k ∈ KINDS, ∀ k' ∈ KINDS, Text.contains file k = true → Text.contains file k' = true → k = k'

instance (file : Text) : Decidable (OneToken file) :=
  inferInstanceAs (Decidable (∀ k ∈ KINDS, ∀ k' ∈ KINDS,
    Text.contains file k = true → Text.contains file k' = true → k = k'))

/-- The files of the listing have names with one token at most. -/
def OneTokenEach (listing : Text) : Prop :=
  ∀ line ∈ Text.lines listing, ∀ ts seg file,
    parse_remote_path (Text.trim line) = some (ts, seg, file) → OneToken file

/-- A file of this kind gets registered for the segment: it is an item's, or a qlog of the
segment comes when the camera is stored, first or by an item before. -/
def Covered (env : Env) (w : World) (items : List QueueItem) (dongle ts : Text) (seg : Int)
    (col : UrlCol) : Prop :=
  (∃ x ∈ items, x.ts = ts ∧ x.seg = seg ∧ column x.file = some col) ∨
  ∃ before q after, items = before ++ q :: after ∧ q.ts = ts ∧ q.seg = seg ∧
    Text.contains q.file "qlog" = true ∧ ∃ cam ∈ CAMERA_FILES, column cam = some col ∧
      (Stored env dongle ts w seg cam ∨
        ∃ x ∈ before, env.path x.name = env.path (.segment dongle ts seg cam))

/-- The item's file gets registered. -/
def CoveredItem (env : Env) (w : World) (items : List QueueItem) (it : QueueItem) : Prop :=
  ∃ col, column it.file = some col ∧ Covered env w items it.dongle it.ts it.seg col

/-! ## The four classifiers -/

/-- The flag that a column's URL is set. -/
def Reg.flag (r : Reg) : UrlCol → Bool
  | .qcam => r.qcam
  | .fcam => r.fcam
  | .dcam => r.dcam
  | .ecam => r.ecam
  | .qlog => r.qlog_parsed
  | .rlog => r.rlog

theorem flag_of_segment (s : Storage.Segment) (col : UrlCol) :
    (Reg.of_segment s).flag col = decide (s.url col ≠ []) := by
  cases col <;> rfl

/-- A name with one token holds no token but its column's. -/
theorem token_of_column {file : Text} (one : OneToken file) {col : UrlCol}
    (is : column file = some col) {k : Text} (listed : k ∈ KINDS) :
    Text.contains file k = decide (k = kind_of col) := by
  obtain ⟨⟨ty, c⟩, kind, rfl⟩ := Option.map_eq_some_iff.1 is
  obtain ⟨own, holds⟩ := kind_of_column kind
  show Text.contains file k = decide (k = kind_of c)
  by_cases same : k = kind_of c
  · rw [same, holds, decide_eq_true rfl]
  · rw [decide_eq_false same]
    exact Bool.eq_false_iff.2 fun other => same (one k listed _ own other holds)

/-- The scan looks at the column that the file is registered in. -/
theorem registered_iff {file : Text} (one : OneToken file) {col : UrlCol}
    (is : column file = some col) (reg : Option Reg) :
    registered reg file = (reg.map fun r => r.flag col).getD false := by
  cases reg with
  | none => rfl
  | some r =>
      have tokens : ∀ k ∈ KINDS, Text.contains file k = decide (k = kind_of col) :=
        fun k listed => token_of_column one is listed
      simp only [KINDS, List.forall_mem_cons] at tokens
      obtain ⟨qcam, fcam, dcam, ecam, qlog, rlog, _⟩ := tokens
      simp only [registered, qcam, fcam, dcam, ecam, qlog, rlog]
      cases col <;> rfl

/-- A wanted file has a column. -/
theorem column_of_wanted {file : Text} {types : List Text} (want : wanted file types = true) :
    ∃ col, column file = some col := by
  suffices known : (file_kind file).isSome by
    obtain ⟨p, is⟩ := Option.isSome_iff_exists.1 known
    exact ⟨p.2, by rw [column, is]; rfl⟩
  rw [wanted] at want
  by_cases qlog : Text.contains file "qlog" = true
  · exact kind_of_qlog qlog
  · rw [if_neg qlog] at want
    cases type : file_type file with
    | none =>
        rw [type] at want
        cases want
    | some t =>
        have holds : Text.contains file t = true := by
          simpa using List.find?_some type
        have optional : ∀ t ∈ OPTIONAL_TYPES, t ∈ KINDS := by decide
        exact kind_of_token (optional t (List.mem_of_find?_eq_some type)) holds

/-! ## What is registered in the end -/

section Run

variable {env : Env} {dongle : Text}

/-- One item more, at the front. -/
theorem covered_cons {w w₁ : World} {x : QueueItem} {rest : List QueueItem} {ts : Text} {seg : Int}
    {col : UrlCol} (of : x.dongle = dongle)
    (stored : ∀ cam ∈ CAMERA_FILES, Stored env dongle ts w₁ seg cam ↔
      Stored env dongle ts w seg cam ∨ env.path x.name = env.path (.segment dongle ts seg cam)) :
    Covered env w (x :: rest) dongle ts seg col ↔
      (x.ts = ts ∧ x.seg = seg ∧ (column x.file = some col ∨
        Text.contains x.file "qlog" = true ∧ ∃ cam ∈ CAMERA_FILES,
          Stored env dongle ts w seg cam ∧ column cam = some col)) ∨
      Covered env w₁ rest dongle ts seg col := by
  constructor
  · rintro (⟨y, member, route, number, is⟩ | ⟨before, q, after, cut, route, number, qlog, cam, listed, is, there⟩)
    · rcases List.mem_cons.1 member with rfl | later
      · exact .inl ⟨route, number, .inl is⟩
      · exact .inr (.inl ⟨y, later, route, number, is⟩)
    · cases before with
      | nil =>
          cases cut
          rcases there with first | ⟨y, no, _⟩
          · exact .inl ⟨route, number, .inr ⟨qlog, cam, listed, first, is⟩⟩
          · cases no
      | cons y before =>
          cases cut
          refine .inr (.inr ⟨before, q, after, rfl, route, number, qlog, cam, listed, is, ?_⟩)
          rcases there with first | ⟨z, member, same⟩
          · exact .inl ((stored cam listed).2 (.inl first))
          · rcases List.mem_cons.1 member with rfl | later
            · exact .inl ((stored cam listed).2 (.inr same))
            · exact .inr ⟨z, later, same⟩
  · rintro (⟨route, number, is | ⟨qlog, cam, listed, first, is⟩⟩ | later | later)
    · exact .inl ⟨x, List.mem_cons_self, route, number, is⟩
    · exact .inr ⟨[], x, rest, rfl, route, number, qlog, cam, listed, is, .inl first⟩
    · obtain ⟨y, member, both⟩ := later
      exact .inl ⟨y, List.mem_cons_of_mem _ member, both⟩
    · obtain ⟨before, q, after, rfl, route, number, qlog, cam, listed, is, there⟩ := later
      refine .inr ⟨x :: before, q, after, rfl, route, number, qlog, cam, listed, is, ?_⟩
      rcases there with now | ⟨z, member, same⟩
      · rcases (stored cam listed).1 now with first | same
        · exact .inl first
        · exact .inr ⟨x, List.mem_cons_self, same⟩
      · exact .inr ⟨z, List.mem_cons_of_mem _ member, same⟩

/-- After a run exactly what is covered has become registered. -/
theorem hasUrl_process_all {l : List (Int × QueueItem)} {w w' : World}
    (items : ∀ x ∈ l.map Prod.snd, x.dongle = dongle ∧ 0 ≤ x.seg)
    (ran : process_all env l w = some w') {ts : Text} {seg : Int} (natural : 0 ≤ seg) {col : UrlCol} :
    HasUrl w'.db (canonical dongle ts seg) col ↔ HasUrl w.db (canonical dongle ts seg) col ∨
      Covered env w (l.map Prod.snd) dongle ts seg col := by
  induction l generalizing w with
  | nil =>
      cases ran
      simp [Covered]
  | cons item rest ih =>
      obtain ⟨t, x⟩ := item
      rw [process_all] at ran
      split at ran
      · rename_i w₁ processed
        obtain ⟨rfl, natural'⟩ := items x List.mem_cons_self
        have stored : ∀ cam ∈ CAMERA_FILES, Stored env x.dongle ts w₁ seg cam ↔
            Stored env x.dongle ts w seg cam ∨
              env.path x.name = env.path (.segment x.dongle ts seg cam) := by
          intro cam listed
          have after := stored_process x.dongle ts seg listed processed
          exact after
        rw [List.map_cons, covered_cons rfl stored,
          ih (fun y member => items y (List.mem_cons_of_mem _ member)) ran, ← or_assoc]
        have step : HasUrl w₁.db (canonical x.dongle ts seg) col ↔ _ :=
          hasUrl_process natural' natural processed
        exact or_congr_left step
      · cases ran

theorem scans_process_all {l : List (Int × QueueItem)} {w w' : World}
    (ran : process_all env l w = some w') : Scans w w' := by
  induction l generalizing w with
  | nil =>
      cases ran
      exact .refl _
  | cons item rest ih =>
      obtain ⟨t, x⟩ := item
      rw [process_all] at ran
      split at ran
      · rename_i w₁ processed
        have step := scans_process processed
        exact Scans.trans ⟨step.settings, step.types, step.named⟩ (ih ran)
      · cases ran

end Run

/-! ## The second scan -/

section Second

variable {env : Env} {device : Accounts.Device} {opts : SyncOpts} {listing : Text} {w w' : World}

theorem scan_line_some {st : ScanState} {line : Text} {it : QueueItem} :
    scan_line device opts st line = some it ↔ ∃ ts seg file,
      parse_remote_path (Text.trim line) = some (ts, seg, file) ∧
      (opts.route.any fun route => decide (ts ≠ route)) = false ∧
      wanted file (st.types opts.types ts) = true ∧
      registered (lookup st.reg (canonical device.dongle_id ts seg)) file = false ∧
      it = { dongle := device.dongle_id, addr := device.last_addr, ts, seg, file } := by
  cases parsed : parse_remote_path (Text.trim line) with
  | none => simp [scan_line, parsed]
  | some p =>
      obtain ⟨ts, seg, file⟩ := p
      simp only [scan_line, parsed, Option.ite_none_left_eq_some, Bool.not_eq_true, Bool.not_eq_true',
        Bool.not_eq_false, Option.some.injEq, Prod.mk.injEq]
      constructor
      · rintro ⟨route, want, unknown, is⟩
        exact ⟨ts, seg, file, ⟨rfl, rfl, rfl⟩, route, want, unknown, is.symm⟩
      · rintro ⟨_, _, _, ⟨rfl, rfl, rfl⟩, route, want, unknown, is⟩
        exact ⟨route, want, unknown, is.symm⟩

/-- The scan finds a file registered when its URL is set. -/
theorem registered_known {db : Storage.Db} (named : Named db) {dongle : Text} (clean : '|' ∉ dongle)
    {file : Text} (one : OneToken file) {col : UrlCol} (is : column file = some col) (ts : Text) (seg : Int) :
    registered (lookup (load_registration dongle db) (canonical dongle ts seg)) file = true ↔
      HasUrl db (canonical dongle ts seg) col := by
  rw [lookup_registration named clean, registered_iff one is, HasUrl]
  cases db.segments.get? (canonical dongle ts seg) with
  | none => simp
  | some s => simp [flag_of_segment]

/-- The types of a route stay those they were. -/
theorem types_kept (named : Named w.db) (clean : '|' ∉ device.dongle_id) (scans : Scans w w')
    (forced : Option (List Text)) (ts : Text) :
    (scan_state env device.dongle_id w'.db).types forced ts =
      (scan_state env device.dongle_id w.db).types forced ts := by
  unfold ScanState.types
  cases forced with
  | some types => rfl
  | none =>
      simp only [scan_state, setting_value, scans.settings, types_of_route (scans.named named) clean,
        types_of_route named clean, scans.types]

/-- A line is taken again exactly when its file has not become registered. -/
theorem scan_line_again (named : Named w.db) (clean : '|' ∉ device.dongle_id) (scans : Scans w w')
    (grows : ∀ ts seg col, 0 ≤ seg → HasUrl w.db (canonical device.dongle_id ts seg) col →
      HasUrl w'.db (canonical device.dongle_id ts seg) col)
    {line : Text} (one : ∀ ts seg file, parse_remote_path (Text.trim line) = some (ts, seg, file) →
      OneToken file) {it : QueueItem} :
    scan_line device opts (scan_state env device.dongle_id w'.db) line = some it ↔
      scan_line device opts (scan_state env device.dongle_id w.db) line = some it ∧
        ∀ col, column it.file = some col →
          ¬ HasUrl w'.db (canonical device.dongle_id it.ts it.seg) col := by
  have named' := scans.named named
  have types : ∀ ts, (scan_state env device.dongle_id w'.db).types opts.types ts =
      (scan_state env device.dongle_id w.db).types opts.types ts :=
    types_kept named clean scans opts.types
  rw [scan_line_some, scan_line_some]
  constructor
  · rintro ⟨ts, seg, file, parsed, route, want, unknown, rfl⟩
    rw [types] at want
    obtain ⟨col, is⟩ := column_of_wanted want
    refine ⟨⟨ts, seg, file, parsed, route, want, ?_, rfl⟩, fun col' is' has => ?_⟩
    · refine Bool.eq_false_iff.2 fun before => ?_
      have has := (registered_known named clean (one ts seg file parsed) is ts seg).1 before
      have after := (registered_known named' clean (one ts seg file parsed) is ts seg).2
        (grows ts seg col (natural_of_path parsed) has)
      exact Bool.false_ne_true (unknown.symm.trans after)
    · have after := (registered_known named' clean (one ts seg file parsed) is' ts seg).2 has
      exact Bool.false_ne_true (unknown.symm.trans after)
  · rintro ⟨⟨ts, seg, file, parsed, route, want, unknown, rfl⟩, missing⟩
    obtain ⟨col, is⟩ := column_of_wanted want
    rw [← types] at want
    refine ⟨ts, seg, file, parsed, route, want, Bool.eq_false_iff.2 fun after => ?_, rfl⟩
    exact missing col is ((registered_known named' clean (one ts seg file parsed) is ts seg).1 after)

theorem mem_taken {db : Storage.Db} {it : QueueItem} : it ∈ taken env device opts listing db ↔
    ∃ line ∈ Text.lines listing,
      scan_line device opts (scan_state env device.dongle_id db) line = some it := by
  rw [taken, List.mem_filterMap]

/-- What is taken is of the device, has a column, and is not registered. -/
theorem of_taken (named : Named w.db) (clean : '|' ∉ device.dongle_id) (one : OneTokenEach listing)
    {it : QueueItem} (member : it ∈ taken env device opts listing w.db) :
    it.dongle = device.dongle_id ∧ 0 ≤ it.seg ∧ ∃ col, column it.file = some col ∧
      ¬ HasUrl w.db (canonical device.dongle_id it.ts it.seg) col := by
  obtain ⟨line, listed, takes⟩ := mem_taken.1 member
  obtain ⟨ts, seg, file, parsed, _, want, unknown, rfl⟩ := scan_line_some.1 takes
  obtain ⟨col, is⟩ := column_of_wanted want
  refine ⟨rfl, natural_of_path parsed, col, is, fun has => ?_⟩
  have known := (registered_known named clean (one line listed ts seg file parsed) is ts seg).2 has
  exact Bool.false_ne_true (unknown.symm.trans known)

end Second

/-- Names that keep keys apart leave nothing out: openpilot's have no `--` in them. -/
theorem covered_of_plain {env : Env} {device : Accounts.Device} {opts : SyncOpts} {listing : Text}
    {w : World} (named : Named w.db) (clean : '|' ∉ device.dongle_id) (one : OneTokenEach listing)
    (plain : '_' ∉ device.dongle_id)
    (files : ∀ it ∈ taken env device opts listing w.db, ¬ ("--" : Text) <:+: it.file)
    {items : List QueueItem} (all : ∀ x ∈ enqueued env device opts listing w, x ∈ items) :
    ∀ it ∈ taken env device opts listing w.db, w.sync_queue.holds it.key = false →
      CoveredItem env w items it := by
  intro it member free
  obtain ⟨dongle, natural, col, is, _⟩ := of_taken named clean one member
  obtain ⟨x, added, key⟩ := SyncQueue.exists_added member free
  have taken' : x ∈ taken env device opts listing w.db := by
    obtain ⟨before, after, cut, _⟩ := SyncQueue.mem_added.1 added
    rw [cut]
    simp
  obtain ⟨dongle', natural', _⟩ := of_taken named clean one taken'
  have digits : ∀ {n : Int}, 0 ≤ n → '-' ∉ Text.decimal n := by
    intro n natural
    obtain ⟨k, rfl⟩ := Int.eq_ofNat_of_zero_le natural
    exact Text.dash_not_digit
  have apart : Unambiguous it.name x.name := by
    refine unambiguous_of_plain ?_ ?_ (digits natural) (digits natural') (files it member) (files x taken')
    · show '_' ∉ it.dongle
      rwa [dongle]
    · show '_' ∉ x.dongle
      rwa [dongle']
  rcases (key_eq_iff it.name x.name).1 key.symm with ⟨heads, mids, lasts⟩ | inside | around
  · have route := apart.routes heads mids lasts
    have number : it.seg = x.seg := Text.decimal_injective mids
    have file : it.file = x.file := lasts
    refine ⟨col, is, .inl ⟨x, all x (enqueued_eq w ▸ added), ?_, number.symm, file ▸ is⟩⟩
    exact (congrArg Prod.snd route).symm
  · exact (apart.inside inside).elim
  · exact (apart.around around).elim

/-- **Convergence.**  When all that a scan enqueued has been processed successfully, the next
scan of the listing enqueues nothing exactly when every file taken, but for those whose key
was held, is covered. -/
theorem converges_iff (env : Env) (device : Accounts.Device) (opts : SyncOpts) (listing : Text)
    (w w' : World) (named : Named w.db) (known : device ∈ w.db.accounts.devices.rows)
    (one : OneTokenEach listing) (l : List (Int × QueueItem))
    (all : (l.map Prod.snd).Perm (enqueued env device opts listing w))
    (ran : process_all env l (alone env (scan_listed env device opts listing) w).2 = some w')
    (q : SyncQueue) (held : ∀ key, q.holds key = w.sync_queue.holds key) (t : Int) :
    enqueued env device opts listing { w' with sync_queue := q, now := t } = [] ↔
      ∀ it ∈ taken env device opts listing w.db, w.sync_queue.holds it.key = false →
        CoveredItem env w (l.map Prod.snd) it := by
  have clean : '|' ∉ device.dongle_id := named.devices device known
  rw [scan_listed_alone] at ran
  have items : ∀ x ∈ l.map Prod.snd, x.dongle = device.dongle_id ∧ 0 ≤ x.seg := by
    intro x member
    have added := all.mem_iff.1 member
    rw [enqueued_eq] at added
    obtain ⟨before, after, cut, _⟩ := SyncQueue.mem_added.1 added
    have member' : x ∈ taken env device opts listing w.db := by rw [cut]; simp
    obtain ⟨dongle, natural, _⟩ := of_taken named clean one member'
    exact ⟨dongle, natural⟩
  have has : ∀ ts seg col, 0 ≤ seg → (HasUrl w'.db (canonical device.dongle_id ts seg) col ↔
      HasUrl w.db (canonical device.dongle_id ts seg) col ∨
        Covered env w (l.map Prod.snd) device.dongle_id ts seg col) :=
    fun ts seg col natural => hasUrl_process_all items ran natural
  have scans : Scans w w' := by
    have kept := scans_process_all ran
    exact ⟨kept.settings, kept.types, kept.named⟩
  have again : ∀ it, it ∈ taken env device opts listing w'.db ↔
      it ∈ taken env device opts listing w.db ∧ ∀ col, column it.file = some col →
        ¬ HasUrl w'.db (canonical device.dongle_id it.ts it.seg) col := by
    intro it
    rw [mem_taken, mem_taken]
    constructor
    · rintro ⟨line, listed, takes⟩
      obtain ⟨before, missing⟩ := (scan_line_again named clean scans
        (fun ts seg col natural url => (has ts seg col natural).2 (.inl url)) (one line listed)).1 takes
      exact ⟨⟨line, listed, before⟩, missing⟩
    · rintro ⟨⟨line, listed, before⟩, missing⟩
      exact ⟨line, listed, (scan_line_again named clean scans
        (fun ts seg col natural url => (has ts seg col natural).2 (.inl url)) (one line listed)).2
          ⟨before, missing⟩⟩
  rw [enqueued_eq, SyncQueue.added_eq_nil]
  constructor
  · intro nothing it member free
    obtain ⟨dongle, natural, col, is, missing⟩ := of_taken named clean one member
    by_contra uncovered
    have member' : it ∈ taken env device opts listing w'.db := by
      refine (again it).2 ⟨member, fun col' is' url => ?_⟩
      rw [is] at is'
      cases is'
      rcases (has it.ts it.seg col natural).1 url with before | covered
      · exact missing before
      · exact uncovered ⟨col, is, by rwa [dongle]⟩
    have taken_again := nothing it member'
    rw [held, free] at taken_again
    cases taken_again
  · intro covered it member
    obtain ⟨before, missing⟩ := (again it).1 member
    dsimp only
    rw [held]
    by_contra free
    obtain ⟨dongle, natural, _⟩ := of_taken named clean one before
    obtain ⟨col, is, along⟩ := covered it before (Bool.eq_false_iff.2 free)
    rw [dongle] at along
    exact missing col is ((has it.ts it.seg col natural).2 (.inr along))

/-! ## A listing that converges, and one that does not -/

private def scanned : Accounts.Device := { dongle_id := "d", last_addr := "a" }

/-- Nothing was pulled yet from a device with this file. -/
private def nothing_pulled (path : Text) : World :=
  { one_device scanned with remote := Dir.write Table.empty ("d", path) [1] }

private theorem nothing_pulled_named (path : Text) : Named (nothing_pulled path).db :=
  named_one_device scanned (by decide)

private def cameras_only : SyncOpts := { types := some ["qcamera"] }

private def camera_line : Text := "/data/media/0/realdata/t--0/qcamera.ts"

private def pulled_camera : QueueItem :=
  { dongle := "d", addr := "a", ts := "t", seg := 0, file := "qcamera.ts" }

/-- A camera is pulled, and the next scan enqueues nothing. -/
theorem converges_one_camera : ∃ w',
    process_all plain_env [(1, pulled_camera)]
      (alone plain_env (scan_listed plain_env scanned cameras_only camera_line)
        (nothing_pulled (remote_path "t" 0 "qcamera.ts"))).2 = some w' ∧
    enqueued plain_env scanned cameras_only camera_line { w' with sync_queue := {}, now := 2 } = [] := by
  have one : OneTokenEach camera_line := by
    intro line listed ts seg file parsed
    have only : line = camera_line := by simpa using (show line ∈ [camera_line] from listed)
    subst only
    have is : parse_remote_path (Text.trim camera_line) = some (("t" : Text), 0, ("qcamera.ts" : Text)) := by decide
    rw [is] at parsed
    cases parsed
    decide
  obtain ⟨w', ran⟩ := Option.isSome_iff_exists.1 (show
    (process_all plain_env [(1, pulled_camera)]
      (alone plain_env (scan_listed plain_env scanned cameras_only camera_line)
        (nothing_pulled (remote_path "t" 0 "qcamera.ts"))).2).isSome = true by decide)
  have all : enqueued plain_env scanned cameras_only camera_line
      (nothing_pulled (remote_path "t" 0 "qcamera.ts")) = [pulled_camera] := by decide
  have takes : taken plain_env scanned cameras_only camera_line
      (nothing_pulled (remote_path "t" 0 "qcamera.ts")).db = [pulled_camera] := by decide
  refine ⟨w', ran, (converges_iff plain_env scanned cameras_only camera_line _ w'
    (nothing_pulled_named _) List.mem_cons_self one [(1, pulled_camera)] (.of_eq all.symm) ran {}
    (fun _ => rfl) 2).2 ?_⟩
  intro it member _
  rw [takes, List.mem_singleton] at member
  subst member
  exact ⟨.qcam, by decide, .inl ⟨pulled_camera, List.mem_cons_self, rfl, rfl, by decide⟩⟩

/-- Two files of one key: `2--qcamera.ts` of segment 1, and `qcamera.ts` of segment 2 of the
route `t--1`. -/
private def two_lines : Text :=
  "/data/media/0/realdata/t--1/2--qcamera.ts\n/data/media/0/realdata/t--1--2/qcamera.ts"

private def first_of_two : QueueItem :=
  { dongle := "d", addr := "a", ts := "t", seg := 1, file := "2--qcamera.ts" }

/-- The second of two files with one key is left out, and the next scan enqueues it. -/
theorem two_files_one_key : ¬ ∀ (env : Env) (device : Accounts.Device) (opts : SyncOpts)
    (listing : Text) (w w' : World), Named w.db → device ∈ w.db.accounts.devices.rows →
    OneTokenEach listing → ∀ l : List (Int × QueueItem),
    (l.map Prod.snd).Perm (enqueued env device opts listing w) →
    process_all env l (alone env (scan_listed env device opts listing) w).2 = some w' →
    ∀ q : SyncQueue, (∀ key, q.holds key = w.sync_queue.holds key) → ∀ t : Int,
    enqueued env device opts listing { w' with sync_queue := q, now := t } = [] := by
  intro converges
  have one : OneTokenEach two_lines := by
    intro line listed ts seg file parsed
    have lines : Text.lines two_lines = [("/data/media/0/realdata/t--1/2--qcamera.ts" : Text),
      "/data/media/0/realdata/t--1--2/qcamera.ts"] := by decide
    rw [lines] at listed
    have first : parse_remote_path (Text.trim "/data/media/0/realdata/t--1/2--qcamera.ts") =
        some (("t" : Text), 1, ("2--qcamera.ts" : Text)) := by decide
    have second : parse_remote_path (Text.trim "/data/media/0/realdata/t--1--2/qcamera.ts") =
        some (("t--1" : Text), 2, ("qcamera.ts" : Text)) := by decide
    rcases List.mem_cons.1 listed with rfl | last
    · rw [first] at parsed
      cases parsed
      decide
    · rw [List.mem_singleton.1 last, second] at parsed
      cases parsed
      decide
  have all : enqueued plain_env scanned cameras_only two_lines
      (nothing_pulled (remote_path "t" 1 "2--qcamera.ts")) = [first_of_two] := by decide
  have run : (process_all plain_env [(1, first_of_two)]
      (alone plain_env (scan_listed plain_env scanned cameras_only two_lines)
        (nothing_pulled (remote_path "t" 1 "2--qcamera.ts"))).2).any (fun w' =>
      decide (enqueued plain_env scanned cameras_only two_lines
        { w' with sync_queue := {}, now := 2 } ≠ [])) = true := by
    decide
  obtain ⟨w', ran, again⟩ := (Option.any_eq_true _ _).1 run
  exact of_decide_eq_true again (converges plain_env scanned cameras_only two_lines _ w'
    (nothing_pulled_named _) List.mem_cons_self one [(1, first_of_two)] (.of_eq all.symm) ran {}
    (fun _ => rfl) 2)

end HomeConnect.Sync
