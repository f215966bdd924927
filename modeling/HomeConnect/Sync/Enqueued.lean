/-
# Sync.Enqueued -- what a scan puts on the queue

Run by itself, a scan puts on the queue what `scan_line` takes from the listing, less what
the queue holds: `enqueued`, and `added_by_scan` for an automatic one of a device's files.
-/
import HomeConnect.Drives.Alone
import HomeConnect.Sync.Scan
import HomeConnect.Sync.Queue

namespace HomeConnect.Sync

open HomeConnect.Theory HomeConnect.Storage HomeConnect.Drives

set_option autoImplicit false

variable {env : Env}

/-- The value of a setting. -/
def setting_value (key : Text) (db : Storage.Db) : Option Text :=
  (db.settings.get? key).map Setting.value

theorem setting_alone (key : Text) (w : World) :
    alone env (setting key) w = (.ok (setting_value key w.db), w) :=
  alone_unwrap_or none (alone_select _ w)

/-- What an automatic scan reads before the listing. -/
def scan_state (env : Env) (dongle : Text) (db : Storage.Db) : ScanState where
  reg := load_registration dongle db
  global := sync_types env (setting_value "sync_types" db)
  overrides := load_route_overrides dongle db

/-! ## Scanning a listing -/

/-- What is left of a scan when the device has listed its files. -/
def scan_listed (env : Env) (device : Accounts.Device) (opts : SyncOpts) (listing : Text) :
    Request Op Nat := do
  let reg ← select fun w => load_registration device.dongle_id w.db
  let (global, overrides) ← scan_types env device.dongle_id opts
  with_queue fun q =>
    q.enqueue ((Text.lines listing).filterMap (scan_line device opts { reg, global, overrides }))

theorem scan_eq (env : Env) (device : Accounts.Device) (opts : SyncOpts) :
    scan env device opts = (do
      Request.err_if (device.last_addr = [])
        (.BadRequest "device address unknown (not seen online yet)")
      let listing ← select fun w => find_listing device.dongle_id w.remote
      scan_listed env device opts listing) := rfl

/-- What a scan takes from a listing. -/
def taken (env : Env) (device : Accounts.Device) (opts : SyncOpts) (listing : Text) (db : Storage.Db) :
    List QueueItem :=
  (Text.lines listing).filterMap (scan_line device opts (scan_state env device.dongle_id db))

/-- What a scan of a listing adds to the queue. -/
def enqueued (env : Env) (device : Accounts.Device) (opts : SyncOpts) (listing : Text) (w : World) :
    List QueueItem :=
  (alone env (scan_listed env device opts listing) w).2.sync_queue.pending.drop
    w.sync_queue.pending.length

section Scanned

variable {device : Accounts.Device} {opts : SyncOpts} {listing : Text}

/-- Forced types make no use of the defaults. -/
theorem scan_line_forced {forced : List Text} (is : opts.types = some forced) {st st' : ScanState}
    (reg : st.reg = st'.reg) (line : Text) : scan_line device opts st line = scan_line device opts st' line := by
  simp only [scan_line, ScanState.types, is, reg]

theorem scan_listed_alone (w : World) :
    (alone env (scan_listed env device opts listing) w).2 =
      { w with sync_queue := (taken env device opts listing w.db).foldl SyncQueue.push w.sync_queue } := by
  rw [scan_listed, alone_bind_ok (alone_select _ w)]
  cases types : opts.types with
  | some forced =>
      have none_read : alone env (scan_types env device.dongle_id opts) w = (.ok ([], []), w) := by
        rw [scan_types, types]
        rfl
      have same : ∀ line, scan_line device opts
          { reg := load_registration device.dongle_id w.db, global := [], overrides := [] } line =
          scan_line device opts (scan_state env device.dongle_id w.db) line :=
        scan_line_forced types rfl
      rw [alone_bind_ok none_read, taken, ← SyncQueue.enqueue_snd, ← funext same]
      rfl
  | none =>
      have both_read : alone env (scan_types env device.dongle_id opts) w =
          (.ok ((scan_state env device.dongle_id w.db).global,
            (scan_state env device.dongle_id w.db).overrides), w) := by
        have global : alone env (get_sync_types env) w =
            (.ok (sync_types env (setting_value "sync_types" w.db)), w) := by
          rw [get_sync_types, alone_bind_ok (setting_alone _ w)]
          rfl
        rw [scan_types, types]
        change alone env (get_sync_types env >>= fun global => _ >>= fun overrides => _) w = _
        rw [alone_bind_ok global, alone_bind_ok (alone_select _ w)]
        rfl
      rw [alone_bind_ok both_read, taken, ← SyncQueue.enqueue_snd]
      rfl

theorem enqueued_eq (w : World) : enqueued env device opts listing w =
    w.sync_queue.added (taken env device opts listing w.db) := by
  rw [enqueued, scan_listed_alone]
  dsimp only
  rw [SyncQueue.pending_foldl_push, List.drop_left]

end Scanned

/-! ## An automatic scan -/

/-- What an automatic scan takes from the listing. -/
def scan_items (env : Env) (device : Accounts.Device) (w : World) : List QueueItem :=
  (Text.lines (find_listing device.dongle_id w.remote)).filterMap
    (scan_line device {} (scan_state env device.dongle_id w.db))

theorem scan_alone {device : Accounts.Device} (known : device.last_addr ≠ []) (w : World) :
    (alone env (scan env device {}) w).2 =
      { w with sync_queue := (scan_items env device w).foldl SyncQueue.push w.sync_queue } := by
  have addressed : alone env (Request.err_if (device.last_addr = [])
      (.BadRequest "device address unknown (not seen online yet)")) w = (.ok (), w) := by
    rw [Request.err_if, if_neg known]
    rfl
  rw [scan_eq, alone_bind_ok addressed, alone_bind_ok (alone_select _ w), scan_listed_alone]
  rfl

/-- The items an automatic scan adds to the queue. -/
def added_by_scan (env : Env) (device : Accounts.Device) (w : World) : List QueueItem :=
  (alone env (scan env device {}) w).2.sync_queue.pending.drop w.sync_queue.pending.length

theorem added_by_scan_eq {device : Accounts.Device} (known : device.last_addr ≠ []) (w : World) :
    added_by_scan env device w = w.sync_queue.added (scan_items env device w) := by
  rw [added_by_scan, scan_alone known]
  dsimp only
  rw [SyncQueue.pending_foldl_push, List.drop_left]

/-- A device whose address is unknown is not scanned. -/
theorem added_by_scan_unknown {device : Accounts.Device} (unknown : device.last_addr = [])
    (w : World) : added_by_scan env device w = [] := by
  have refused : alone env (scan env device {}) w =
      (.error (.BadRequest "device address unknown (not seen online yet)"), w) := by
    rw [scan, alone_bind, Request.err_if, if_pos unknown]
    rfl
  rw [added_by_scan, refused, List.drop_length]

/-- What is added comes from a line that is taken, whose key is free and is not that of an
earlier line that is taken. -/
theorem mem_added_by_scan {device : Accounts.Device} (known : device.last_addr ≠ []) {w : World}
    {it : QueueItem} :
    it ∈ added_by_scan env device w ↔
      ∃ pre line post, Text.lines (find_listing device.dongle_id w.remote) = pre ++ line :: post ∧
        scan_line device {} (scan_state env device.dongle_id w.db) line = some it ∧
        w.sync_queue.holds it.key = false ∧
        ∀ x ∈ pre.filterMap (scan_line device {} (scan_state env device.dongle_id w.db)),
          x.key ≠ it.key := by
  rw [added_by_scan_eq known, SyncQueue.mem_added, scan_items]
  constructor
  · rintro ⟨pre, post, cut, free, first⟩
    obtain ⟨before, rest, lines, rfl, taken⟩ := List.filterMap_eq_append_iff.1 cut
    obtain ⟨skipped, line, after, rfl, none, takes, _⟩ := List.filterMap_eq_cons_iff.1 taken
    refine ⟨before ++ skipped, line, after, by rw [lines, List.append_assoc], takes, free, ?_⟩
    have nothing := List.filterMap_eq_nil_iff.2 none
    rw [List.filterMap_append, nothing, List.append_nil]
    exact first
  · rintro ⟨pre, line, post, lines, takes, free, first⟩
    refine ⟨pre.filterMap (scan_line device {} (scan_state env device.dongle_id w.db)),
      post.filterMap (scan_line device {} (scan_state env device.dongle_id w.db)), ?_, free, first⟩
    rw [lines, List.filterMap_append, List.filterMap_cons_some takes]

end HomeConnect.Sync
