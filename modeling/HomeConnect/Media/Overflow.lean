/-
# Media.Overflow -- arithmetic on segment numbers

A segment's number comes out of an upload's path or out of a line of a device's listing, and
neither looks at it any further than that it is an `i64`.  From the database it goes into the
playlist, which adds one, and it is multiplied by the seconds of a segment for a transcode's
offset.

The sum and the product fit for every number that was accepted exactly when none of them is
larger than `MAX_NUMBER` (`segment_arithmetic_iff`).
-/
import HomeConnect.Drives.Poles
import HomeConnect.Drives.Upload
import HomeConnect.Media.Playlist
import HomeConnect.Sync.Footprint
import HomeConnect.Theory.Pool

namespace HomeConnect.Media.Overflow

open HomeConnect.Theory HomeConnect.Storage HomeConnect.Drives HomeConnect.Sync

set_option autoImplicit false

/-! ## Numbers that are accepted -/

/-- What a segment's number comes out of. -/
inductive Source where
  /-- `PUT` of a body at a path. -/
  | put (path : Text) (auth : Auth) (body : Bytes)
  /-- A line of a device's listing. -/
  | line (device : Accounts.Device) (text : Text)
deriving DecidableEq, Repr

inductive Job where
  | upload (auth : Auth) (dongle ts : Text) (seg : Int) (file : Text) (body : Bytes)
  | item (it : QueueItem)
deriving DecidableEq, Repr

/-- The job with the segment that is read, if one is. -/
def Source.job : Source → Option Job
  | .put path auth body =>
      match Upload.route path with
      | some (.upload_driving dongle ts seg file) => some (.upload auth dongle ts seg file body)
      | _ => none
  | .line device text =>
      (parse_remote_path (Text.trim text)).map fun p =>
        .item { dongle := device.dongle_id, addr := device.last_addr, ts := p.1, seg := p.2.1, file := p.2.2 }

def Job.number : Job → Int
  | .upload _ _ _ seg _ _ => seg
  | .item it => it.seg

def Job.handle (env : Env) : Job → Request Op Unit
  | .upload auth dongle ts seg file body => Request.ignore (upload_driving env auth dongle ts seg file body)
  | .item it => process_item env it

abbrev JobTask := Task Job Op (AppResult Unit)

def jobRules (env : Env) : Pool.Rules World JobTask Source Outcome where
  act source w := source.job.map fun j => (w, [⟨j, (j.handle env).run⟩])
  turn := Task.turn (Op.exec env)

/-- The numbers accepted so far. -/
def accepted (p : Pool World JobTask) : List Int := p.tasks.map fun t => t.tag.number

/-! ## Arithmetic with 64 bits -/

/-- The result of an operation, none if it overflows. -/
def i64 (x : Int) : Option Int := if -2 ^ 63 ≤ x ∧ x < 2 ^ 63 then some x else none

/-- The loop of `camera_m3u8`. -/
def checked_entries (expected : Int) : List (SegLite × Text) → Option (List Entry)
  | [] => some []
  | (s, url) :: rest => do
      let next ← i64 (s.number + 1)
      let more ← checked_entries next rest
      pure (⟨decide (s.number ≠ expected), s.millis, s.number, url⟩ :: more)

def checked_playlist (p : Show) (segs : List SegLite) : Option (List Entry) :=
  checked_entries (((playable p segs).head?.map fun first => first.1.number).getD 0) (playable p segs)

/-- The offset of a transcode, and of a segment's audio. -/
def checked_offset (seg : Int) : Option Int := i64 (max seg 0 * SEGMENT_SECS)

/-- No operation overflows, and the offsets are what they are meant to be. -/
structure Exact (w : World) (numbers : List Int) : Prop where
  playlists : ∀ (p : Show) (name : Text),
    checked_playlist p ((w.db.route_segments name).map SegLite.of_row) =
      some (playlist p ((w.db.route_segments name).map SegLite.of_row))
  offsets : ∀ n ∈ numbers, checked_offset n = some (60 * max n 0)

/-- The largest number with an offset of 64 bits. -/
def MAX_NUMBER : Int := (2 ^ 63 - 1) / 60

theorem i64_of_fits {x : Int} (low : -2 ^ 63 ≤ x) (high : x < 2 ^ 63) : i64 x = some x := if_pos ⟨low, high⟩

theorem checked_offset_iff (n : Int) : checked_offset n = some (60 * max n 0) ↔ n ≤ MAX_NUMBER := by
  have product : max n 0 * SEGMENT_SECS = 60 * max n 0 := Int.mul_comm _ _
  have bound : MAX_NUMBER = 153722867280912930 := rfl
  unfold checked_offset
  rw [product, bound]
  constructor
  · intro fits
    unfold i64 at fits
    split at fits
    · omega
    · cases fits
  · intro small
    apply i64_of_fits
    · omega
    · omega

theorem checked_entries_of_small {rows : List (SegLite × Text)}
    (small : ∀ r ∈ rows, -2 ^ 63 ≤ r.1.number ∧ r.1.number < 2 ^ 63 - 1) (expected : Int) :
    checked_entries expected rows = some (entries expected rows) := by
  induction rows generalizing expected with
  | nil => rfl
  | cons r rows ih =>
      obtain ⟨s, url⟩ := r
      have bounds := small (s, url) List.mem_cons_self
      obtain ⟨low, high⟩ : -2 ^ 63 ≤ s.number ∧ s.number < 2 ^ 63 - 1 := bounds
      have next : i64 (s.number + 1) = some (s.number + 1) := i64_of_fits (by omega) (by omega)
      have more := ih (fun r listed => small r (List.mem_cons_of_mem _ listed)) (s.number + 1)
      rw [checked_entries, next, Option.bind_eq_bind, Option.bind_some, more]
      rfl

/-! ## Where the numbers come from -/

/-- An `i64`. -/
def Ranged (n : Int) : Prop := -2 ^ 63 ≤ n ∧ n < 2 ^ 63

theorem ranged_of_parse_i64 {s : Text} {n : Int} (parsed : Text.parse_i64 s = some n) : Ranged n := by
  have positive : ∀ {m : Nat}, (if m < 2 ^ 63 then some (m : Int) else none) = some n → Ranged n := by
    intro m read
    obtain ⟨small, is⟩ := Option.ite_none_right_eq_some.1 read
    cases is
    constructor <;> omega
  unfold Text.parse_i64 at parsed
  split at parsed
  · obtain ⟨m, _, read⟩ := Option.bind_eq_some_iff.1 parsed
    obtain ⟨small, is⟩ := Option.ite_none_right_eq_some.1 read
    cases is
    constructor <;> omega
  · obtain ⟨m, _, read⟩ := Option.bind_eq_some_iff.1 parsed
    exact positive read
  · obtain ⟨m, _, read⟩ := Option.bind_eq_some_iff.1 parsed
    exact positive read

theorem ranged_of_route {path dongle ts file : Text} {seg : Int}
    (routed : Upload.route path = some (.upload_driving dongle ts seg file)) : Ranged seg := by
  obtain ⟨r, listed, extracted⟩ := List.exists_of_findSome?_eq_some (Option.join_eq_some_iff.1 routed)
  obtain ⟨captured, _, extracted⟩ := Option.map_eq_some_iff.1 extracted
  simp only [Upload.ROUTES, List.mem_cons, List.not_mem_nil, or_false] at listed
  rcases listed with rfl | rfl | rfl
  · simp only [Upload.extract_driving] at extracted
    split at extracted
    · obtain ⟨n, number, is⟩ := Option.map_eq_some_iff.1 extracted
      cases is
      exact ranged_of_parse_i64 number
    · cases extracted
  · simp only [Upload.extract_boot] at extracted
    split at extracted <;> cases extracted
  · simp only [Upload.extract_crash] at extracted
    split at extracted <;> cases extracted

theorem ranged_of_remote_path {line ts file : Text} {seg : Int}
    (parsed : parse_remote_path line = some (ts, seg, file)) : Ranged seg := by
  obtain ⟨rest, _, parsed⟩ := Option.bind_eq_some_iff.1 parsed
  obtain ⟨⟨dir, file'⟩, _, parsed⟩ := Option.bind_eq_some_iff.1 parsed
  obtain ⟨⟨ts', text⟩, _, parsed⟩ := Option.bind_eq_some_iff.1 parsed
  obtain ⟨n, number, parsed⟩ := Option.bind_eq_some_iff.1 parsed
  obtain ⟨_, is⟩ := Option.ite_none_left_eq_some.1 parsed
  cases is
  exact ranged_of_parse_i64 number

theorem ranged_of_job {source : Source} {j : Job} (job : source.job = some j) : Ranged j.number := by
  cases source with
  | put path auth body =>
      simp only [Source.job] at job
      split at job
      case h_1 routed =>
        cases job
        exact ranged_of_route routed
      case h_2 => cases job
  | line device text =>
      simp only [Source.job] at job
      obtain ⟨⟨ts, seg, file⟩, parsed, is⟩ := Option.map_eq_some_iff.1 job
      cases is
      exact ranged_of_remote_path parsed

/-- A write that adds no segment but of this number. -/
def Numbered (n : Int) : Write → Prop
  | .insert_segment _ _ seg => seg = n
  | .upsert_segment _ _ seg _ => seg = n
  | _ => True

theorem numbered_of_ingests {dongle ts : Text} {seg : Int} {file : Text} {s : Write}
    (ingests : s.ingests dongle ts seg file) : Numbered seg s := by
  rcases ingests with registers | ⟨f, bytes, rfl, _⟩
  · cases s with
    | insert_segment d t n => exact registers.2.2
    | upsert_segment d t n data => exact registers.2.2
    | _ => trivial
  · trivial

theorem writes_handle (env : Env) (j : Job) : WritesOnly (Numbered j.number) (j.handle env) := by
  cases j with
  | upload auth dongle ts seg file body =>
      have writes := writes_upload_driving env dongle ts seg file auth body
      exact (Writes.ignore (writes.mono fun s => numbered_of_ingests)).only
  | item it =>
      refine (writes_process_item env it).only.mono fun s allowed => ?_
      rcases allowed with ingests | rfl
      · exact numbered_of_ingests ingests
      · trivial

/-- After a write a segment has an old number, or the write's. -/
theorem number_exec {env : Env} {s : Write} {w w' : World} {n : Int} (numbered : Numbered n s)
    (done : s.exec env w = some w') {r : Segment} (member : r ∈ w'.db.segments.rows) :
    r.number = n ∨ ∃ r' ∈ w.db.segments.rows, r'.number = r.number := by
  have kept : r ∈ w.db.segments.rows → r.number = n ∨ ∃ r' ∈ w.db.segments.rows, r'.number = r.number :=
    fun old => .inr ⟨r, old, rfl⟩
  by_cases part : s.part = .segments
  · cases s with
    | insert_segment dongle ts seg =>
        obtain ⟨_, is⟩ := Option.ite_none_left_eq_some.1 done
        cases is
        rcases Table.mem_insertIfAbsent.1 member with old | ⟨rfl, _⟩
        · exact kept old
        · exact .inl numbered
    | upsert_segment dongle ts seg data =>
        obtain ⟨_, is⟩ := Option.ite_none_left_eq_some.1 done
        cases is
        simp only [Table.upsert] at member
        split at member
        · rcases Table.mem_insertIfAbsent.1 member with old | ⟨rfl, _⟩
          · exact kept old
          · exact .inl numbered
        · obtain ⟨r', old, rfl⟩ := List.mem_map.1 member
          refine .inr ⟨r', old, ?_⟩
          split <;> rfl
    | set_url dongle ts seg col url =>
        cases done
        obtain ⟨r', old, rfl⟩ := List.mem_map.1 member
        refine .inr ⟨r', old, ?_⟩
        split
        · exact (Segment.set_url_number ..).symm
        · rfl
    | delete_segments name =>
        cases done
        exact kept (Table.mem_delete.1 member).1
    | _ => cases part
  · rw [(Write.framed done).segments part] at member
    exact kept member

/-! ## Every run -/

/-- The segments there are have numbers that were accepted, and those are of 64 bits. -/
structure Traced (p : Pool World JobTask) : Prop where
  rows : ∀ r ∈ p.shared.db.segments.rows, r.number ∈ accepted p
  ranged : ∀ n ∈ accepted p, Ranged n
  writes : ∀ t ∈ p.tasks, t.prog.Uses fun f => ∀ s, f.write? = some s → Numbered t.tag.number s

theorem Traced.act {env : Env} {p : Pool World JobTask} {source : Source} {w : World} {ts : List JobTask}
    (traced : Traced p) (acted : (jobRules env).act source p.shared = some (w, ts)) :
    Traced ⟨w, p.tasks ++ ts⟩ := by
  obtain ⟨j, job, is⟩ := Option.map_eq_some_iff.1 acted
  cases is
  have grown : accepted ⟨p.shared, p.tasks ++ [⟨j, (j.handle env).run⟩]⟩ = accepted p ++ [j.number] :=
    List.map_append
  constructor
  · intro r member
    rw [grown]
    exact List.mem_append_left _ (traced.rows r member)
  · intro n listed
    rw [grown] at listed
    rcases List.mem_append.1 listed with old | new
    · exact traced.ranged n old
    · rw [List.mem_singleton.1 new]
      exact ranged_of_job job
  · intro t member
    rcases List.mem_append.1 member with old | new
    · exact traced.writes t old
    · rw [List.mem_singleton.1 new]
      exact writes_handle env j

theorem Traced.turn {env : Env} {p : Pool World JobTask} {i : Nat} {o : Outcome} {t t' : JobTask} {w : World}
    (traced : Traced p) (found : p.tasks[i]? = some t)
    (turned : (jobRules env).turn t o p.shared = some (w, t')) : Traced ⟨w, p.tasks.set i t'⟩ := by
  obtain ⟨β, f, k, next, rfl, rfl⟩ := Task.turn_cases turned
  have member := List.mem_of_getElem? found
  have uses := traced.writes t member
  rw [next] at uses
  have same : accepted ⟨(f.exec env o p.shared).2, p.tasks.set i ⟨t.tag, k (f.exec env o p.shared).1⟩⟩ =
      accepted p := by
    obtain ⟨bound, _⟩ := List.getElem?_eq_some_iff.1 found
    unfold accepted
    apply List.ext_getElem?
    intro j
    rw [List.getElem?_map, List.getElem?_map, List.getElem?_set]
    by_cases here : i = j
    · subst here
      rw [if_pos rfl, if_pos bound, found]
      rfl
    · rw [if_neg here]
  have own : t.tag.number ∈ accepted p := List.mem_map_of_mem member
  constructor
  · intro r listed
    rw [same]
    rcases Op.exec_cases env f o p.shared with unchanged | ⟨s, w', is, _, done, after⟩ | ⟨q, after⟩
    · exact traced.rows r (unchanged ▸ listed)
    · rw [after] at listed
      rcases number_exec (uses.1 s is) done listed with its | ⟨r', old, number⟩
      · exact its ▸ own
      · exact number ▸ traced.rows r' old
    · rw [after] at listed
      exact traced.rows r listed
  · rw [same]
    exact traced.ranged
  · intro u listed
    rcases List.mem_or_eq_of_mem_set listed with old | rfl
    · exact traced.writes u old
    · exact uses.2 _

theorem traced {env : Env} {w : World} {p : Pool World JobTask} (fresh : w.db.segments.rows = [])
    (reached : (jobRules env).system.Reach System.free ⟨w, []⟩ p) : Traced p := by
  refine reached.invariant ⟨?_, ?_, ?_⟩ ?_
  · intro r member
    rw [fresh] at member
    cases member
  · intro n member
    cases member
  · intro t member
    cases member
  · intro p e p' before _ stepped
    obtain ⟨source, w', ts, rfl, acted, rfl⟩ | ⟨i, o, t, w', t', rfl, found, turned, rfl⟩ :=
      Pool.Rules.step_cases stepped
    · exact before.act acted
    · exact before.turn found turned

/-- From no segments on, whatever uploads and pulls register, the arithmetic on the numbers
is exact as long as no number that was accepted is too large, and no longer. -/
theorem segment_arithmetic_iff {env : Env} {w : World} {p : Pool World JobTask}
    (fresh : w.db.segments.rows = []) (reached : (jobRules env).system.Reach System.free ⟨w, []⟩ p) :
    Exact p.shared (accepted p) ↔ ∀ n ∈ accepted p, n ≤ MAX_NUMBER := by
  have traced := traced fresh reached
  constructor
  · intro exact_ n listed
    exact (checked_offset_iff n).1 (exact_.offsets n listed)
  · intro small
    refine ⟨fun show_ name => ?_, fun n listed => (checked_offset_iff n).2 (small n listed)⟩
    apply checked_entries_of_small
    intro r listed
    obtain ⟨s, member, is⟩ := List.mem_filterMap.1 listed
    obtain ⟨url, _, rfl⟩ := Option.map_eq_some_iff.1 is
    obtain ⟨row, stored, rfl⟩ := List.mem_map.1 member
    have in_table := (List.mem_filter.1 ((List.mem_insertionSort _).1 stored)).1
    have own := traced.rows row in_table
    have fits := small _ own
    obtain ⟨low, _⟩ := traced.ranged _ own
    have bound : MAX_NUMBER = 153722867280912930 := rfl
    show -2 ^ 63 ≤ row.number ∧ row.number < 2 ^ 63 - 1
    constructor <;> omega

/-! ## Poles -/

private def one_uploader : Accounts.Device := { dongle_id := "d" }

private def no_segments : World := one_device one_uploader

/-- The upload of a qcamera of the segment. -/
private def puts (number : Text) : Source :=
  .put ("/connectincoming/d/t/" ++ number ++ "/qcamera.ts") { identity := "d", device := some one_uploader } [1]

private def put_done (number : Text) : Option (Pool World JobTask) :=
  (jobRules plain_env).system.replay ⟨no_segments, []⟩ (.act (puts number) :: List.replicate 8 (.turn 0 .ok))

/-- The upload of a segment whose offset does not fit is registered. -/
theorem segment_arithmetic_overflows :
    ¬ ∀ (env : Env) (w : World) (p : Pool World JobTask), w.db.segments.rows = [] →
      (jobRules env).system.Reach System.free ⟨w, []⟩ p → Exact p.shared (accepted p) := by
  intro claim
  have run : (put_done "9223372036854775807").any (fun p =>
      p.shared.db.segments.rows.map Segment.number = [9223372036854775807] ∧
        p.tasks.all (fun t => t.prog.done) ∧ accepted p = [9223372036854775807]) = true := by
    decide
  obtain ⟨p, replayed, checked⟩ := (Option.any_eq_true _ _).1 run
  obtain ⟨_, _, number⟩ := of_decide_eq_true checked
  have exact_ := claim plain_env no_segments p rfl (System.reach_of_replay replayed)
  have offset := exact_.offsets 9223372036854775807 (by rw [number]; exact List.mem_cons_self)
  revert offset
  decide

/-- The largest segment with an offset. -/
theorem segment_arithmetic_largest : ∃ p : Pool World JobTask,
    (jobRules plain_env).system.Reach System.free ⟨no_segments, []⟩ p ∧
      p.shared.db.segments.rows.map Segment.number = [MAX_NUMBER] ∧ Exact p.shared (accepted p) := by
  have run : (put_done "153722867280912930").any (fun p =>
      p.shared.db.segments.rows.map Segment.number = [MAX_NUMBER] ∧ accepted p = [MAX_NUMBER]) = true := by
    decide
  obtain ⟨p, replayed, checked⟩ := (Option.any_eq_true _ _).1 run
  obtain ⟨rows, number⟩ := of_decide_eq_true checked
  have reached := System.reach_of_replay replayed
  refine ⟨p, reached, rows, (segment_arithmetic_iff rfl reached).2 ?_⟩
  intro n listed
  rw [number, List.mem_singleton] at listed
  exact listed.le

end HomeConnect.Media.Overflow
