/-
# Manage.Listing -- the list of drives and the statistics page

`routes_segments` lists the drives of one device, page by page, and flags those the ignore
rules match, which the viewer then hides; `my_stats` goes over all drives of all of a user's
devices at once, in a statement of its own, and drops the ones the rules match.  The two
choose their rows, check the user and apply the rules each in its own way.

They come to the same: whatever the page size, the totals are those of the drives that the
lists of the user's devices show unflagged, each of which they show once
(`stats_of_shown`).
-/
import HomeConnect.Drives.Poles
import HomeConnect.Drives.Stats
import HomeConnect.Media.Access
import HomeConnect.Theory.Windows

namespace HomeConnect.Manage

open HomeConnect.Theory HomeConnect.Storage HomeConnect.Drives HomeConnect.Media

set_option autoImplicit false

/-! ## routes_segments -/

structure RoutesQuery where
  start : Option Int := none
  /-- The query's `end`. -/
  stop : Option Int := none
  limit : Option Int := none
  offset : Option Int := none
  route_str : Option Text := none
deriving DecidableEq, Repr

namespace RoutesQuery

variable (q : RoutesQuery)

def size : Nat := (min (max (q.limit.getD 50) 1) 1000).toNat

def skip : Nat := (max (q.offset.getD 0) 0).toNat

/-- The drive starts within the query's times. -/
def within (r : Route) : Bool :=
  decide (q.start.getD 0 ≤ r.aggregates.start_time_utc_millis ∧
    r.aggregates.start_time_utc_millis ≤ q.stop.getD (2 ^ 63 - 1))

end RoutesQuery

/-- A device's drives that have a qlog. -/
def has_qlog (dongle : Text) (r : Route) : Bool :=
  decide (r.device_dongle_id = dongle ∧ r.aggregates.maxqlog ≠ -1)

/-- `ORDER BY start_time_utc_millis DESC`. -/
def newest_first (rows : List Route) : List Route :=
  rows.insertionSort fun a b => b.aggregates.start_time_utc_millis ≤ a.aggregates.start_time_utc_millis

def RoutesQuery.rows (q : RoutesQuery) (dongle : Text) (db : Storage.Db) : List Route :=
  match q.route_str with
  | some name => db.routes.rows.filter fun r => decide (r.fullname = name) && has_qlog dongle r
  | none =>
      ((newest_first (db.routes.rows.filter fun r => has_qlog dongle r && q.within r)).drop
        q.skip).take q.size

/-- A drive as it is listed. -/
structure ListedDrive where
  route : Route
  stats : DriveStats
  ignored : Bool

def list_drive (rules : List Rule) (r : Route) : ListedDrive where
  route := r
  stats := drive_stats r.aggregates
  ignored := is_ignored rules r.aggregates.length (r.aggregates.drive_seconds / 60)

/-- GET /v1/devices/:dongle_id/routes_segments. -/
def routes_segments (of_json : Text → List Rule) (user : Accounts.User) (dongle : Text)
    (q : RoutesQuery) : Request Op (List ListedDrive) := do
  let device ← load_known_device dongle
  Request.err_if (!(← can_manage_loaded user device)) (.Forbidden "not authorized for device")
  let rows ← select fun w => q.rows dongle w.db
  let rules ← load_rules of_json
  pure (rows.map (list_drive rules))

/-! ## Pages -/

variable (env : Env) (of_json : Text → List Rule) (user : Accounts.User) (w : World)

/-- The page with this number, empty when the list is refused. -/
def page (q : RoutesQuery) (dongle : Text) (i : Nat) : List ListedDrive :=
  ((alone env (routes_segments of_json user dongle { q with offset := some (i * q.size : Nat) }) w).1
    ).toOption.getD []

/-- The drives that the first pages of the lists of all devices show unflagged. -/
def shown (q : RoutesQuery) (pages : Nat) : List Route :=
  ((w.db.accounts.devices.rows.flatMap fun d =>
    (List.range pages).flatMap (page env of_json user w q d.dongle_id)).filter
      fun drive => !drive.ignored).map ListedDrive.route

/-! ## What is listed -/

section Listed

variable {env of_json user w}

/-- The rules in use. -/
def rules_of (of_json : Text → List Rule) (db : Storage.Db) : List Rule :=
  ((db.settings.get? "ignore_rules").map fun s => of_json s.value).getD DEFAULT_RULES

theorem alone_load_rules : alone env (load_rules of_json) w = (.ok (rules_of of_json w.db), w) := by
  have looked := alone_unwrap_or none (@alone_select env _
    (fun w => (w.db.settings.get? "ignore_rules").map Setting.value) w)
  rw [load_rules, setting, alone_bind_ok looked, rules_of]
  cases w.db.settings.get? "ignore_rules" <;> rfl

/-- Who may see the list of a registered device: the same users whose totals count it. -/
theorem routes_segments_alone (admin : user.is_admin = 0 ∨ user.is_admin = 1) {d : Accounts.Device}
    (registered : d ∈ w.db.accounts.devices.rows) (q : RoutesQuery) :
    ((alone env (routes_segments of_json user d.dongle_id q) w).1).toOption =
      if is_users w.db user d.dongle_id then
        some ((q.rows d.dongle_id w.db).map (list_drive (rules_of of_json w.db)))
      else none := by
  have found : w.db.accounts.devices.get? d.dongle_id = some d := Table.get?_eq_some.2 ⟨registered, rfl⟩
  have loaded : alone env (load_known_device d.dongle_id) w = (.ok d, w) := by
    rw [load_known_device, load_device, alone_bind_ok (alone_select _ w), found]
    rfl
  obtain ⟨answer, checked, is⟩ := can_manage_alone env w user d
  have same : answer = is_users w.db user d.dongle_id := by
    rw [Bool.eq_iff_iff, is, is_users, found, Shared]
    rcases admin with plain | all
    · simp [plain]
    · simp [all]
  rw [routes_segments, alone_bind_ok loaded, alone_bind_ok checked, same]
  cases is_users w.db user d.dongle_id with
  | false => rfl
  | true =>
      rw [alone_bind_ok (show alone env (Request.err_if _ _) w = (.ok (), w) from rfl),
        alone_bind_ok (alone_select _ w), alone_bind_ok alone_load_rules]
      rfl

theorem rows_whole {q : RoutesQuery} (whole : q.route_str = none) (dongle : Text) (db : Storage.Db) :
    q.rows dongle db =
      ((newest_first (db.routes.rows.filter fun r => has_qlog dongle r && q.within r)).drop
        q.skip).take q.size := by
  rw [RoutesQuery.rows, whole]

/-- The query for the page with this number. -/
def RoutesQuery.at (q : RoutesQuery) (i : Nat) : RoutesQuery :=
  { q with offset := some (i * q.size : Nat) }

theorem RoutesQuery.skip_at (q : RoutesQuery) (i : Nat) : (q.at i).skip = i * q.size := by
  simp only [RoutesQuery.at, RoutesQuery.skip, Option.getD_some]
  omega

/-- The pages of a device that its user may see, put together. -/
theorem pages_perm (admin : user.is_admin = 0 ∨ user.is_admin = 1) {d : Accounts.Device}
    (registered : d ∈ w.db.accounts.devices.rows) {q : RoutesQuery} {pages : Nat}
    (whole : q.route_str = none) (within : ∀ r ∈ w.db.routes.rows, q.within r)
    (enough : w.db.routes.rows.length ≤ pages * q.size) :
    ((List.range pages).flatMap (page env of_json user w q d.dongle_id)).Perm
      ((w.db.routes.rows.filter fun r =>
        has_qlog d.dongle_id r && is_users w.db user d.dongle_id).map (list_drive (rules_of of_json w.db))) := by
  let listed := w.db.routes.rows.filter fun r => has_qlog d.dongle_id r && q.within r
  have each : ∀ i, page env of_json user w q d.dongle_id i =
      if is_users w.db user d.dongle_id then
        (window q.size (newest_first listed) i).map (list_drive (rules_of of_json w.db))
      else [] := by
    intro i
    have rows : (q.at i).rows d.dongle_id w.db = window q.size (newest_first listed) i := by
      rw [rows_whole (q := q.at i) whole, RoutesQuery.skip_at]
      rfl
    rw [page, ← RoutesQuery.at, routes_segments_alone admin registered, rows]
    split <;> rfl
  have all : listed = w.db.routes.rows.filter (has_qlog d.dongle_id) := by
    apply List.filter_congr
    intro r member
    rw [within r member, Bool.and_true]
  have short : (newest_first listed).length ≤ pages * q.size := by
    rw [newest_first, List.length_insertionSort]
    exact (List.length_filter_le _ _).trans enough
  rw [funext each]
  cases is_users w.db user d.dongle_id with
  | false => simp
  | true =>
      have pieces : (List.range pages).flatMap (fun i =>
          (window q.size (newest_first listed) i).map (list_drive (rules_of of_json w.db))) =
          (newest_first listed).map (list_drive (rules_of of_json w.db)) := by
        rw [← List.map_flatMap, List.flatMap_def, flatten_windows, List.take_of_length_le short]
      simp only [if_true, Bool.and_true, pieces]
      apply List.Perm.map
      rw [← all]
      exact List.perm_insertionSort _ _

/-- The drives that are shown are those that the statistics count. -/
theorem shown_perm (admin : user.is_admin = 0 ∨ user.is_admin = 1)
    (registered : ∀ r ∈ w.db.routes.rows, (w.db.accounts.devices.get? r.device_dongle_id).isSome)
    {q : RoutesQuery} {pages : Nat}
    (whole : q.route_str = none) (within : ∀ r ∈ w.db.routes.rows, q.within r)
    (enough : w.db.routes.rows.length ≤ pages * q.size) :
    (shown env of_json user w q pages).Perm
      (w.db.routes.rows.filter fun r =>
        (decide (r.aggregates.maxqlog ≠ -1) && is_users w.db user r.device_dongle_id) &&
          !is_ignored (rules_of of_json w.db) r.aggregates.length (r.aggregates.drive_seconds / 60)) := by
  let rules := rules_of of_json w.db
  let counts := fun r : Route =>
    (decide (r.aggregates.maxqlog ≠ -1) && is_users w.db user r.device_dongle_id) &&
      !is_ignored rules r.aggregates.length (r.aggregates.drive_seconds / 60)
  let keys := w.db.accounts.devices.rows.map Accounts.Device.dongle_id
  -- what one device's list shows is its group among the counted drives
  have group : ∀ d ∈ w.db.accounts.devices.rows,
      ((((List.range pages).flatMap (page env of_json user w q d.dongle_id)).filter
        fun drive => !drive.ignored).map ListedDrive.route).Perm
      ((w.db.routes.rows.filter counts).filter fun r => decide (r.device_dongle_id = d.dongle_id)) := by
    intro d member
    apply (((pages_perm admin member whole within enough).filter _).map _).trans
    rw [List.filter_map, List.map_map, List.filter_filter, List.filter_filter]
    apply List.Perm.of_eq
    rw [show ListedDrive.route ∘ list_drive rules = id from rfl, List.map_id]
    apply List.filter_congr
    intro r _
    by_cases its : r.device_dongle_id = d.dongle_id
    · simp [has_qlog, list_drive, counts, its, rules, Bool.and_comm]
    · simp [has_qlog, its]
  have covered : ∀ r ∈ w.db.routes.rows.filter counts, r.device_dongle_id ∈ keys := by
    intro r member
    obtain ⟨d, found⟩ := Option.isSome_iff_exists.1 (registered r (List.mem_filter.1 member).1)
    obtain ⟨known, same⟩ := Table.get?_eq_some.1 found
    exact List.mem_map.2 ⟨d, known, same⟩
  have together := groups_perm Route.device_dongle_id w.db.accounts.devices.nodup covered
  rw [shown, List.filter_flatMap, List.map_flatMap]
  apply (List.Perm.flatMap_left _ group).trans
  rw [List.flatMap_map] at together
  exact together

end Listed

/-! ## What is counted -/

/-- The order of the drives does not matter. -/
theorem user_stats_perm {rules : List Rule} {rows rows' : List Aggregates} (same : rows.Perm rows') :
    user_stats rules rows = user_stats rules rows' := by
  have counts : (counted rules rows).Perm (counted rules rows') := same.filter _
  have sums : ∀ f : Aggregates → Rat, ((counted rules rows).map f).sum = ((counted rules rows').map f).sum :=
    fun f => (counts.map f).sum_eq
  have totals : ∀ f : Aggregates → Int, ((counted rules rows).map f).sum = ((counted rules rows').map f).sum :=
    fun f => (counts.map f).sum_eq
  have fastest : ((counted rules rows).map Aggregates.max_speed).foldl max 0 =
      ((counted rules rows').map Aggregates.max_speed).foldl max 0 := (counts.map _).foldl_eq 0
  simp only [user_stats, sums, totals, fastest, counts.length_eq]

/-- Without rules every drive counts. -/
theorem counted_nil (rows : List Aggregates) : counted [] rows = rows := by
  rw [counted]
  apply List.filter_eq_self.2
  intro r _
  rfl

/-! ## The two views -/

/-- However the lists of a user's devices are paged, as long as the pages go through to the
end, the statistics page has the totals of the drives they show unflagged, each shown once. -/
theorem stats_of_shown (env : Env) (of_json : Text → List Rule) (user : Accounts.User) (w : World)
    (q : RoutesQuery) (pages : Nat) (admin : user.is_admin = 0 ∨ user.is_admin = 1)
    (registered : ∀ r ∈ w.db.routes.rows, (w.db.accounts.devices.get? r.device_dongle_id).isSome)
    (whole : q.route_str = none) (within : ∀ r ∈ w.db.routes.rows, q.within r)
    (enough : w.db.routes.rows.length ≤ pages * q.size) :
    (alone env (my_stats of_json user) w).1 =
        .ok (user_stats [] ((shown env of_json user w q pages).map Route.aggregates)) ∧
      ((shown env of_json user w q pages).map Route.fullname).Nodup := by
  have drives : (shown env of_json user w q pages).Perm _ := shown_perm admin registered whole within enough
  constructor
  · have selected := alone_unwrap_or [] (@alone_select env _ (fun w => stats_rows w.db user) w)
    rw [my_stats, alone_bind_ok selected, alone_bind_ok alone_load_rules]
    have rows : counted (rules_of of_json w.db) (stats_rows w.db user) =
        (w.db.routes.rows.filter fun r =>
          (decide (r.aggregates.maxqlog ≠ -1) && is_users w.db user r.device_dongle_id) &&
            !is_ignored (rules_of of_json w.db) r.aggregates.length
              (r.aggregates.drive_seconds / 60)).map Route.aggregates := by
      rw [counted, stats_rows, List.filter_map, List.filter_filter]
      congr 1
      apply List.filter_congr
      intro r _
      simp [Bool.and_comm]
    have same := @user_stats_perm [] _ _ (drives.map Route.aggregates)
    rw [← rows] at same
    rw [same]
    simp only [user_stats, counted_nil]
    rfl
  · apply (drives.map Route.fullname).nodup_iff.2
    exact w.db.routes.nodup.sublist (List.filter_sublist.map _)

/-! ## Poles -/

private def driven (fullname dongle : Text) (miles : Rat) (start : Int) : Route where
  fullname := fullname
  device_dongle_id := dongle
  aggregates := { maxqlog := 0, length := miles, drive_seconds := 600, start_time_utc_millis := start }

/-- Two cars of one owner; the second drive of the first never moved. -/
private def two_cars : World :=
  { one_device { dongle_id := "d", owner_id := some 1 } with
    db.accounts.devices := (Table.single { dongle_id := "d", owner_id := some 1 }).insertIfAbsent
      { dongle_id := "e", owner_id := some 1 }
    db.routes := ((Table.single (driven "d|1" "d" 5 1)).insertIfAbsent
      (driven "d|2" "d" 0 2)).insertIfAbsent (driven "e|1" "e" 7 3) }

private def car_owner : Accounts.User := { id := 1, identity := "a", username := "a" }

/-- In pages of one drive. -/
theorem stats_of_shown_two_cars :
    (alone plain_env (my_stats (fun _ => []) car_owner) two_cars).1 =
        .ok (user_stats [] ((shown plain_env (fun _ => []) car_owner two_cars { limit := some 1 } 3).map
          Route.aggregates)) ∧
      (shown plain_env (fun _ => []) car_owner two_cars { limit := some 1 } 3).map Route.fullname =
        ["d|1", "e|1"] := by
  refine ⟨(stats_of_shown plain_env (fun _ => []) car_owner two_cars { limit := some 1 } 3
    (.inl rfl) ?_ rfl ?_ ?_).1, by decide +kernel⟩
  · decide
  · decide
  · decide

end HomeConnect.Manage
