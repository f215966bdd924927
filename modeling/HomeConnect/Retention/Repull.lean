/-
# Retention.Repull -- what a scan pulls back after a retention pass

A pass deletes a route together with its segment rows and its sync override, which is all
a scan knows of it.  As long as the device lists the route's files, the next scan finds them
missing and puts them on the queue again (`pruned_route_pulled_back`).

`Passed` is what a pass leaves: a subset of the rows, in which no segment refers to a
deleted route.  From it follows exactly when the scan that comes next enqueues no file of a
deleted route (`not_pulled_back_iff`): when each listed file of one is of a type the global
setting leaves out, or is held back for a reason that has nothing to do with the deletion.
-/
import HomeConnect.Drives.Poles
import HomeConnect.Retention.Pass
import HomeConnect.Sync.Enqueued
import HomeConnect.Sync.Known

namespace HomeConnect.Retention

open HomeConnect.Theory HomeConnect.Storage HomeConnect.Drives HomeConnect.Media HomeConnect.Sync

set_option autoImplicit false

/-! ## What a pass writes -/

/-- The writes of a retention pass. -/
def Prunes : Write → Prop
  | .delete_segments _ | .delete_route _ => True
  | s => Removal s

theorem writes_delete_route (name : Text) : Writes Prunes (delete_route name) := by
  rw [delete_route]
  split
  · exact .pure ()
  · refine .bind (.select _) fun segs => .bind (.bind ?_ fun _ => .bind ?_ fun _ => ?_) fun _ => ?_
    · refine Request.Uses.forM fun seg _ => Writes.bind ?_ fun _ => ?_
      · exact Request.Uses.forM fun f _ => Writes.attempt trivial
      · exact Request.Uses.forM fun cam _ => Writes.attempt trivial
    · exact Request.Uses.forM fun cam _ => Writes.bind (.attempt trivial) fun _ => .attempt trivial
    · exact .bind (.attempt trivial) fun _ => .attempt trivial
    · exact .bind (.execute trivial) fun _ => .execute trivial

theorem writes_beyond_caps (n : Int) (dongles : List Text) :
    Writes Prunes (beyond_caps n dongles) := by
  induction dongles with
  | nil => exact .pure _
  | cons dongle rest ih => exact .bind (.select _) fun _ => .bind ih fun _ => .pure _

theorem writes_prune_marked (policy : Policy) : Writes Prunes (prune_marked policy) := by
  refine .bind (.bind (.ite (.select _) (.pure _)) fun old => .bind ?_ fun above => .pure _)
    fun marked => .bind ?_ fun _ => .bind (.select _) fun orphaned => .bind ?_ fun _ => .pure _
  · exact .ite (.bind (.select _) fun devices => writes_beyond_caps _ devices) (.pure _)
  · exact Request.Uses.forM fun name _ => writes_delete_route name
  · refine Request.Uses.forM fun orphan _ => ?_
    rw [reclaim]
    split
    · exact Writes.bind (.attempt trivial) fun _ => .attempt trivial
    · exact Writes.pure _

theorem writes_storage_loop (cap rounds : Nat) : Writes Prunes (storage_loop cap rounds) := by
  induction rounds with
  | zero => exact .pure _
  | succ rounds ih =>
      refine .bind (.bind (Request.Uses.unwrap_or (Writes.select _) _) fun used => .ite ?_ (.pure _))
        fun went_on => .ite (.bind ih fun _ => .pure _) (.pure _)
      refine .bind (.select _) fun first => ?_
      cases first with
      | none => exact .pure _
      | some name => exact .bind (writes_delete_route name) fun _ => .pure _

theorem writes_run_once (policy : Policy) (rounds : Nat) : Writes Prunes (run_once policy rounds) :=
  .bind (writes_prune_marked policy) fun _ =>
    .ite (.bind (writes_storage_loop _ rounds) fun _ => .pure _) (.pure _)

/-! ## What a pass leaves -/

/-- Rows were only deleted, and no segment refers to a deleted route. -/
structure Passed (w w' : World) : Prop where
  accounts : w'.db.accounts = w.db.accounts
  settings : w'.db.settings = w.db.settings
  remote : w'.remote = w.remote
  routes : ∀ r ∈ w'.db.routes.rows, r ∈ w.db.routes.rows
  segments : ∀ s ∈ w'.db.segments.rows, s ∈ w.db.segments.rows
  unreferenced : ∀ r ∈ w.db.routes.rows, r ∉ w'.db.routes.rows →
    ∀ s ∈ w'.db.segments.rows, s.canonical_route_name ≠ r.fullname

theorem Passed.of_same {w w' : World} (accounts : w'.db.accounts = w.db.accounts)
    (settings : w'.db.settings = w.db.settings) (remote : w'.remote = w.remote)
    (routes : w'.db.routes = w.db.routes) (segments : w'.db.segments = w.db.segments) :
    Passed w w' where
  accounts := accounts
  settings := settings
  remote := remote
  routes := fun _ member => routes ▸ member
  segments := fun _ member => segments ▸ member
  unreferenced := fun _ member gone => absurd (routes ▸ member) gone

theorem Passed.trans {a b c : World} (first : Passed a b) (second : Passed b c) : Passed a c where
  accounts := second.accounts.trans first.accounts
  settings := second.settings.trans first.settings
  remote := second.remote.trans first.remote
  routes := fun r member => first.routes r (second.routes r member)
  segments := fun s member => first.segments s (second.segments s member)
  unreferenced := fun r member gone s kept => by
    by_cases h : r ∈ b.db.routes.rows
    · exact second.unreferenced r h gone s kept
    · exact first.unreferenced r member h s (second.segments s kept)

theorem Passed.exec {env : Env} {s : Write} {w w' : World} (prunes : Prunes s)
    (done : s.exec env w = some w') : Passed w w' := by
  cases s with
  | delete_segments name =>
      cases done
      exact ⟨rfl, rfl, rfl, fun _ member => member, fun _ member => (Table.mem_delete.1 member).1,
        fun _ member gone => absurd member gone⟩
  | delete_route name =>
      simp only [Write.exec, Option.ite_none_left_eq_some] at done
      obtain ⟨unused, done⟩ := done
      cases done
      refine ⟨rfl, rfl, rfl, fun r member => (Table.mem_delete.1 member).1, fun s member => member,
        fun r member gone s kept same => unused ?_⟩
      have named : r.fullname = name := by
        by_contra other
        exact gone (Table.mem_delete.2 ⟨member, decide_eq_false other⟩)
      rw [Bool.and_eq_true, List.any_eq_true]
      refine ⟨?_, s, kept, by simpa [named] using same⟩
      rw [Table.get?_eq_some.2 ⟨member, named⟩]
      rfl
  | blob_delete name => cases done; exact .of_same rfl rfl rfl rfl rfl
  | ts_remove name => cases done; exact .of_same rfl rfl rfl rfl rfl
  | delete_movie name cam => cases done; exact .of_same rfl rfl rfl rfl rfl
  | delete_subs name => cases done; exact .of_same rfl rfl rfl rfl rfl
  | _ => exact prunes.elim

/-- The world after a pass. -/
def after_pass (env : Env) (policy : Policy) (rounds : Nat) (w : World) : World :=
  (alone env (run_once policy rounds) w).2

theorem passed_after_pass (env : Env) (policy : Policy) (rounds : Nat) (w : World) :
    Passed w (after_pass env policy rounds w) :=
  WritesOnly.alone (R := Passed) (fun _ => .of_same rfl rfl rfl rfl rfl) Passed.trans
    (fun prunes done => Passed.exec prunes done) (fun _ _ => .of_same rfl rfl rfl rfl rfl)
    (writes_run_once policy rounds).only w

theorem Passed.named {w w' : World} (passed : Passed w w') (named : Named w.db) : Named w'.db where
  devices := fun d member => named.devices d (passed.accounts ▸ member)
  routes := fun r member => named.routes r (passed.routes r member)
  segments := fun s member => named.segments s (passed.segments s member)

/-! ## Pulling back -/

/-- The pass deleted the route of this name. -/
def Deleted (w after : World) (name : Text) : Prop :=
  ∃ r ∈ w.db.routes.rows, r ∉ after.db.routes.rows ∧ r.fullname = name

/-- The scan after a pass enqueues no file of a route that the pass deleted. -/
def NotPulledBack (env : Env) (device : Accounts.Device) (w after : World) : Prop :=
  ∀ it ∈ added_by_scan env device after, ¬ Deleted w after (fullname it.dongle it.ts)

/-- Why a scan passes over a file of a deleted route: the global setting leaves its type
out; a row of another route has the segment's name and the file's URL; the file's key is
queued or in flight already; or an earlier line that is taken has the same key. -/
def PassedOver (env : Env) (device : Accounts.Device) (w after : World) (earlier : List Text)
    (ts : Text) (seg : Int) (file : Text) : Prop :=
  wanted file (sync_types env (setting_value "sync_types" w.db)) = false ∨
  (∃ s ∈ after.db.segments.rows, s.canonical_name = canonical device.dongle_id ts seg ∧
    registered (some (Reg.of_segment s)) file = true) ∨
  after.sync_queue.holds (blob_key device.dongle_id ts seg file) = true ∨
  ∃ x ∈ earlier.filterMap (scan_line device {} (scan_state env device.dongle_id after.db)),
    x.key = blob_key device.dongle_id ts seg file

/-- Every listed file of a deleted route is passed over. -/
def AllPassedOver (env : Env) (device : Accounts.Device) (w after : World) : Prop :=
  ∀ earlier line later ts seg file,
    Text.lines (find_listing device.dongle_id w.remote) = earlier ++ line :: later →
    parse_remote_path (Text.trim line) = some (ts, seg, file) →
    Deleted w after (fullname device.dongle_id ts) →
    PassedOver env device w after earlier ts seg file

/-- What an automatic scan makes of a line. -/
theorem scan_line_eq {device : Accounts.Device} {st : ScanState} {line ts : Text} {seg : Int}
    {file : Text} (parsed : parse_remote_path (Text.trim line) = some (ts, seg, file)) :
    scan_line device {} st line =
      if wanted file (((lookup st.overrides ts).join).getD st.global) = true ∧
          registered (lookup st.reg (canonical device.dongle_id ts seg)) file = false then
        some { dongle := device.dongle_id, addr := device.last_addr, ts, seg, file }
      else none := by
  simp only [scan_line, parsed, Option.any_none, Bool.false_eq_true, if_false, ScanState.types]
  by_cases chosen : wanted file (((lookup st.overrides ts).join).getD st.global) = true
  · by_cases known : registered (lookup st.reg (canonical device.dongle_id ts seg)) file = true
    · simp [chosen, known]
    · simp [chosen, known]
  · simp [chosen]

/-- What is taken comes from a line that parses. -/
theorem parsed_of_scan_line {device : Accounts.Device} {st : ScanState} {line : Text}
    {it : QueueItem} (takes : scan_line device {} st line = some it) :
    parse_remote_path (Text.trim line) = some (it.ts, it.seg, it.file) ∧
      it.dongle = device.dongle_id := by
  cases parsed : parse_remote_path (Text.trim line) with
  | none =>
      rw [scan_line, parsed] at takes
      cases takes
  | some p =>
      obtain ⟨ts, seg, file⟩ := p
      rw [scan_line_eq parsed, Option.ite_none_right_eq_some] at takes
      cases takes.2
      exact ⟨rfl, rfl⟩

/-- A file of a deleted route that the scan takes is one it does not pass over. -/
theorem taken_iff {env : Env} {device : Accounts.Device} {w after : World} (named : Named w.db)
    (passed : Passed w after) (clean : '|' ∉ device.dongle_id) {line ts : Text} {seg : Int}
    {file : Text} (parsed : parse_remote_path (Text.trim line) = some (ts, seg, file))
    (deleted : Deleted w after (fullname device.dongle_id ts)) {it : QueueItem} :
    scan_line device {} (scan_state env device.dongle_id after.db) line = some it ↔
      wanted file (sync_types env (setting_value "sync_types" w.db)) = true ∧
      (¬ ∃ s ∈ after.db.segments.rows, s.canonical_name = canonical device.dongle_id ts seg ∧
        registered (some (Reg.of_segment s)) file = true) ∧
      it = { dongle := device.dongle_id, addr := device.last_addr, ts, seg, file } := by
  have named' := passed.named named
  have inherits : lookup (load_route_overrides device.dongle_id after.db) ts = none := by
    refine lookup_overrides named' fun r kept same => ?_
    obtain ⟨r', member, gone, name⟩ := deleted
    rw [Table.eq_of_key (passed.routes r kept) member (same.trans name.symm)] at kept
    exact gone kept
  have known : registered (lookup (load_registration device.dongle_id after.db)
      (canonical device.dongle_id ts seg)) file = true ↔
      ∃ s ∈ after.db.segments.rows, s.canonical_name = canonical device.dongle_id ts seg ∧
        registered (some (Reg.of_segment s)) file = true := by
    rw [lookup_registration named' clean]
    constructor
    · intro known
      cases found : after.db.segments.get? (canonical device.dongle_id ts seg) with
      | none =>
          rw [found] at known
          cases known
      | some s =>
          rw [found] at known
          obtain ⟨member, name⟩ := Table.get?_eq_some.1 found
          exact ⟨s, member, name, known⟩
    · rintro ⟨s, member, name, known⟩
      rw [Table.get?_eq_some.2 ⟨member, name⟩]
      exact known
  rw [scan_line_eq parsed]
  simp only [scan_state, inherits, passed.settings, setting_value, Option.join_none, Option.getD_none,
    Option.ite_none_right_eq_some, Option.some.injEq]
  rw [← known, Bool.not_eq_true, and_assoc, eq_comm (a := it)]

/-- **Pulling back.**  After a pass, the next automatic scan enqueues no file of a deleted
route exactly when the device's address is unknown or each listed file is passed over. -/
theorem not_pulled_back_iff (env : Env) (policy : Policy) (rounds : Nat) (w : World)
    (named : Named w.db) (device : Accounts.Device) (listed : device ∈ w.db.accounts.devices.rows) :
    NotPulledBack env device w (after_pass env policy rounds w) ↔
      device.last_addr = [] ∨ AllPassedOver env device w (after_pass env policy rounds w) := by
  have passed := passed_after_pass env policy rounds w
  generalize after_pass env policy rounds w = after at passed ⊢
  have clean : '|' ∉ device.dongle_id := named.devices device listed
  by_cases known : device.last_addr = []
  · simp only [known, true_or, iff_true]
    intro it member
    rw [added_by_scan_unknown known] at member
    cases member
  · simp only [known, false_or]
    constructor
    · intro never earlier line later ts seg file lines parsed deleted
      rw [← passed.remote] at lines
      by_contra taken
      simp only [PassedOver, not_or, not_exists, not_and, Bool.not_eq_true] at taken
      obtain ⟨chosen, unregistered, free, first⟩ := taken
      let it : QueueItem := { dongle := device.dongle_id, addr := device.last_addr, ts, seg, file }
      have unknown : ¬ ∃ s ∈ after.db.segments.rows,
          s.canonical_name = canonical device.dongle_id ts seg ∧
            registered (some (Reg.of_segment s)) file = true := by
        rintro ⟨s, member, name, reg⟩
        rw [unregistered s member name] at reg
        cases reg
      have takes : scan_line device {} (scan_state env device.dongle_id after.db) line = some it :=
        (taken_iff named passed clean parsed deleted).2
          ⟨Bool.eq_false_imp_eq_true.1 fun h => absurd h chosen, unknown, rfl⟩
      exact never it ((mem_added_by_scan known).2 ⟨earlier, line, later, lines, takes, free, first⟩)
        deleted
    · intro above it member deleted
      obtain ⟨earlier, line, later, lines, takes, free, first⟩ := (mem_added_by_scan known).1 member
      rw [passed.remote] at lines
      obtain ⟨parsed, own⟩ := parsed_of_scan_line takes
      rw [own] at deleted
      have key : it.key = blob_key device.dongle_id it.ts it.seg it.file := by
        rw [← own]
        rfl
      obtain ⟨chosen, unregistered, _⟩ := (taken_iff named passed clean parsed deleted).1 takes
      rcases above earlier line later _ _ _ lines parsed deleted with
        unwanted | registered | held | ⟨x, before, same⟩
      · rw [unwanted] at chosen
        cases chosen
      · exact unregistered registered
      · rw [key, held] at free
        cases free
      · exact first x before (same.trans key.symm)

/-! ## Poles -/

private def listed_device : Accounts.Device := { dongle_id := "d", last_addr := "a" }

private def old_route : Route := { fullname := fullname "d" "t", device_dongle_id := "d" }

/-- A route of the first day, on the second day; the device lists one file of it. -/
private def listing_of (file : Text) : World :=
  { one_device listed_device with
    db.routes := .single old_route
    remote := ⟨[⟨("d", remote_path "t" 0 file), [1]⟩], List.nodup_singleton _⟩
    now := 172800000 }

private theorem listing_of_named (file : Text) : Named (listing_of file).db := by
  refine ⟨fun d member => ?_, fun r member => ?_, fun s member => (List.not_mem_nil member).elim⟩
  · cases List.mem_singleton.1 member
    exact (by decide : '|' ∉ listed_device.dongle_id)
  · cases List.mem_singleton.1 member
    exact ⟨by decide, "t", rfl⟩

/-- Drives older than a day are deleted. -/
private def one_day : Policy := ⟨1, 0, 0⟩

/-- A pass deletes the route, and the next scan enqueues its log. -/
theorem pruned_route_pulled_back : ¬ ∀ (env : Env) (policy : Policy) (rounds : Nat) (w : World),
    Named w.db → ∀ device ∈ w.db.accounts.devices.rows,
    NotPulledBack env device w (after_pass env policy rounds w) := by
  intro claim
  have never := claim plain_env one_day 0 (listing_of "qlog.bz2") (listing_of_named _)
    listed_device List.mem_cons_self
  have pulled : (⟨"d", "a", "t", 0, "qlog.bz2"⟩ : QueueItem) ∈ added_by_scan plain_env listed_device
      (after_pass plain_env one_day 0 (listing_of "qlog.bz2")) := by
    decide
  refine never _ pulled ⟨old_route, List.mem_cons_self, ?_, rfl⟩
  decide

/-- A camera the global setting leaves out is not pulled back. -/
theorem not_pulled_back_unselected :
    NotPulledBack plain_env listed_device (listing_of "fcamera.hevc")
        (after_pass plain_env one_day 0 (listing_of "fcamera.hevc")) ∧
      Deleted (listing_of "fcamera.hevc")
        (after_pass plain_env one_day 0 (listing_of "fcamera.hevc")) (fullname "d" "t") := by
  have lines : Text.lines (find_listing "d" (listing_of "fcamera.hevc").remote) =
      [remote_path "t" 0 "fcamera.hevc"] := by
    decide
  have parse : parse_remote_path (Text.trim (remote_path "t" 0 "fcamera.hevc")) =
      some (("t" : Text), (0 : Int), ("fcamera.hevc" : Text)) := by
    decide
  constructor
  · refine (not_pulled_back_iff plain_env one_day 0 _ (listing_of_named _) listed_device
      List.mem_cons_self).2 (.inr ?_)
    intro earlier line later ts seg file cut parsed _
    have member : line ∈ [remote_path "t" 0 "fcamera.hevc"] := by
      rw [← lines]
      change line ∈ Text.lines (find_listing listed_device.dongle_id _)
      rw [cut]
      exact List.mem_append_right _ List.mem_cons_self
    rw [List.mem_singleton.1 member, parse] at parsed
    cases parsed
    exact .inl (by decide)
  · refine ⟨old_route, List.mem_cons_self, ?_, rfl⟩
    decide

end HomeConnect.Retention
