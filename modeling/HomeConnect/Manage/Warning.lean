/-
# Manage.Warning -- what the dialog warns of before a device delete

The Manage data dialog calls a type synced when the route's maximum column for it is not
negative, and warns only of selected types that are not synced.  The column is the largest
number of a segment that has the type's URL, so it says that *some* segment is backed up;
the delete takes the files of *every* segment row.

`warning_complete_iff` says when the warning is complete all the same: for each selected
type, one backed-up segment (with a number the column can show) means that all are.
-/
import HomeConnect.Manage.Delete

namespace HomeConnect.Manage

open HomeConnect.Theory HomeConnect.Storage HomeConnect.Drives HomeConnect.Sync

set_option autoImplicit false

/-! ## The dialog -/

/-- A data type, with whether it is already on the server. -/
structure DataType where
  id : Text
  synced : Bool
deriving DecidableEq, Repr

/-- All data types of a route. -/
def types (route : Aggregates) : List DataType :=
  [⟨"qcamera", decide (route.maxqcamera ≥ 0)⟩,
    ⟨"fcamera", decide (route.maxcamera ≥ 0)⟩,
    ⟨"dcamera", decide (route.maxdcamera ≥ 0)⟩,
    ⟨"ecamera", decide (route.maxecamera ≥ 0)⟩,
    ⟨"rlog", decide (route.maxlog ≥ 0)⟩,
    ⟨"qlog", decide (route.maxqlog ≥ 0)⟩]

/-- The ids of the types with a tick. -/
def selected (types : List DataType) (checked : Text → Bool) : List Text :=
  (types.filter fun t => checked t.id).map DataType.id

/-- The selected types the warning names. -/
def not_backed (types : List DataType) (selected : List Text) : List Text :=
  selected.filter fun id => !((types.find? fun t => decide (t.id = id)).any DataType.synced)

def warn (selected notBacked : List Text) : Text :=
  let question : Text := "Delete these off the comma device for this drive?\n\n"
  let cost : Text :=
    "\n\nThis frees space on the device and cannot be undone. The device must be online."
  let lost : Text := "\n\n⚠ Not on the server, so these copies will be lost entirely: "
  let text := question ++ Text.join ", " selected ++ cost
  if notBacked = [] then text else text ++ lost ++ Text.join ", " notBacked

/-- The question asked, and the request sent if it is confirmed. -/
structure Asked where
  warn : Text
  notBacked : List Text
  request : DeleteReq

def del_device (types : List DataType) (checked : Text → Bool) : Option Asked :=
  if selected types checked = [] then none
  else
    let notBacked := not_backed types (selected types checked)
    some
      { warn := warn (selected types checked) notBacked
        notBacked
        request := ⟨selected types checked, some "device"⟩ }

/-! ## What the request removes -/

/-- The segment has the type's URL. -/
def BackedUp (t : Text) (s : Segment) : Prop :=
  ∃ names col, type_spec t = some (names, col) ∧ s.url col ≠ []

/-- A file of the type, of this segment, is among those removed from the device. -/
def Removes (req : DeleteReq) (segs : List Segment) (t : Text) (s : Segment) : Prop :=
  ∃ names col, type_spec t = some (names, col) ∧ ∃ name ∈ names,
    (s.number, name) ∈ candidates (segs.map Segment.number) req.types

/-- A selected type that the warning does not name is backed up for every segment whose
file goes. -/
def WarningComplete (segs : List Segment) (checked : Text → Bool) : Prop :=
  ∀ asked, del_device (types (aggregate segs)) checked = some asked →
    ∀ t ∈ asked.request.types, t ∉ asked.notBacked →
      ∀ s ∈ segs, Removes asked.request segs t s → BackedUp t s

/-- Every type of the dialog has files. -/
theorem type_spec_of_types {route : Aggregates} {entry : DataType} (listed : entry ∈ types route) :
    ∃ name names col, type_spec entry.id = some (name :: names, col) := by
  simp only [types, List.mem_cons, List.not_mem_nil, or_false] at listed
  rcases listed with rfl | rfl | rfl | rfl | rfl | rfl <;> exact ⟨_, _, _, rfl⟩

theorem mem_selected {route : Aggregates} {checked : Text → Bool} {t : Text} :
    t ∈ selected (types route) checked ↔ ∃ entry ∈ types route, checked t = true ∧ entry.id = t := by
  unfold selected
  rw [List.mem_map]
  constructor
  · rintro ⟨entry, chosen, rfl⟩
    obtain ⟨listed, ticked⟩ := List.mem_filter.1 chosen
    exact ⟨entry, listed, ticked, rfl⟩
  · rintro ⟨entry, listed, ticked, rfl⟩
    exact ⟨entry, List.mem_filter.2 ⟨listed, ticked⟩, rfl⟩

theorem mem_candidates {segs : List Int} {ts : List Text} {seg : Int} {name : Text} :
    (seg, name) ∈ candidates segs ts ↔
      seg ∈ segs ∧ ∃ t ∈ ts, ∃ names col, type_spec t = some (names, col) ∧ name ∈ names := by
  unfold candidates
  simp only [List.mem_flatMap]
  constructor
  · rintro ⟨seg', listed, t, chosen, member⟩
    cases spec : type_spec t with
    | none =>
        rw [spec] at member
        cases member
    | some p =>
        obtain ⟨names, col⟩ := p
        rw [spec] at member
        obtain ⟨name', listed', same⟩ := List.mem_map.1 member
        cases same
        exact ⟨listed, t, chosen, names, col, spec, listed'⟩
  · rintro ⟨listed, t, chosen, names, col, spec, member⟩
    refine ⟨seg, listed, t, chosen, ?_⟩
    rw [spec]
    exact List.mem_map.2 ⟨name, member, rfl⟩

/-- The request removes the files of every segment row, for every selected type. -/
theorem removes_every_segment {segs : List Segment} {checked : Text → Bool} {asked : Asked}
    (asks : del_device (types (aggregate segs)) checked = some asked) {t : Text}
    (chosen : t ∈ asked.request.types) {s : Segment} (row : s ∈ segs) :
    Removes asked.request segs t s := by
  have same : asked.request.types = selected (types (aggregate segs)) checked := by
    unfold del_device at asks
    split at asks
    · cases asks
    · cases asks
      rfl
  have ticked := chosen
  rw [same] at ticked
  obtain ⟨entry, listed, _, rfl⟩ := mem_selected.1 ticked
  obtain ⟨name, names, col, spec⟩ := type_spec_of_types listed
  refine ⟨_, col, spec, name, List.mem_cons_self, ?_⟩
  apply mem_candidates.2
  exact ⟨List.mem_map.2 ⟨s, row, rfl⟩, _, chosen, _, col, spec, List.mem_cons_self⟩

/-! ## The device part of the handler -/

/-- The write removes one of the files from a device. -/
def RemovesListed (ts : Text) (files : List (Int × Text)) : Write → Prop
  | .rm _ path => ∃ file ∈ files, path = remote_path ts file.1 file.2
  | _ => False

theorem writes_device_candidates (req : DeleteReq) (dongle ts : Text) (segs : List Int) :
    Writes (RemovesListed ts (candidates segs req.types)) (device_part req dongle ts segs) := by
  refine .ite ?_ (.pure _)
  refine .bind (.select _) fun found => ?_
  cases found with
  | none => exact .throw _
  | some device =>
      refine .bind (.err_if _ _) fun _ => .bind (.err_if _ _) fun _ => .bind ?_ fun _ => .pure _
      apply writes_total
      intro path member
      obtain ⟨file, listed, rfl⟩ := List.mem_map.1 member
      have removes : RemovesListed ts (candidates segs req.types)
          (.rm device.dongle_id (remote_path ts file.1 file.2)) :=
        ⟨file, (List.mem_filter.1 listed).1, rfl⟩
      exact .bind (.select _) fun _ => .ite (.bind (.execute removes) fun _ => .pure _) (.pure _)

/-- A file that is gone from a device after the device part is one of the candidates. -/
theorem gone_is_candidate (env : Env) (req : DeleteReq) (dongle ts : Text) (segs : List Int)
    (w : World) (d path : Text) (there : w.remote.read (d, path) ≠ none)
    (gone : (alone env (device_part req dongle ts segs) w).2.remote.read (d, path) = none) :
    ∃ file ∈ candidates segs req.types, path = remote_path ts file.1 file.2 := by
  have kept : w.remote.read (d, path) ≠ none →
      (alone env (device_part req dongle ts segs) w).2.remote.read (d, path) = none →
      ∃ file ∈ candidates segs req.types, path = remote_path ts file.1 file.2 := WritesOnly.alone
    (R := fun w w' => w.remote.read (d, path) ≠ none → w'.remote.read (d, path) = none →
      ∃ file ∈ candidates segs req.types, path = remote_path ts file.1 file.2)
    (fun w there gone => absurd gone there)
    (fun {a b c} first second there gone => by
      by_cases between : b.remote.read (d, path) = none
      · exact first there between
      · exact second between gone)
    (fun {s w w'} removes done there gone => by
      cases s with
      | rm d' path' =>
          obtain ⟨file, listed, rfl⟩ := removes
          rw [Write.exec_remote done, Dir.read_remove] at gone
          split at gone
          · rename_i same
            cases same
            exact ⟨file, listed, rfl⟩
          · exact absurd gone there
      | _ => exact removes.elim)
    (fun _ _ there gone => absurd gone there)
    (writes_device_candidates req dongle ts segs).only w
  exact kept there gone

/-! ## The warning -/

theorem max_of_nonneg_iff {pred : Segment → Bool} {segs : List Segment} :
    max_of pred segs ≥ 0 ↔ ∃ s ∈ segs, pred s = true ∧ 0 ≤ s.number := by
  unfold max_of
  constructor
  · intro shown
    cases largest : ((segs.filter pred).map Segment.number).max? with
    | none =>
        rw [largest] at shown
        simp at shown
    | some n =>
        rw [largest, Option.getD_some] at shown
        obtain ⟨s, member, rfl⟩ := List.mem_map.1 (List.max?_mem largest)
        obtain ⟨row, holds⟩ := List.mem_filter.1 member
        exact ⟨s, row, holds, shown⟩
  · rintro ⟨s, row, holds, natural⟩
    have member : s.number ∈ (segs.filter pred).map Segment.number :=
      List.mem_map.2 ⟨s, List.mem_filter.2 ⟨row, holds⟩, rfl⟩
    cases largest : ((segs.filter pred).map Segment.number).max? with
    | none =>
        rw [List.max?_eq_none_iff] at largest
        rw [largest] at member
        cases member
    | some n =>
        have bound := (List.max?_eq_some_iff.1 largest).2 _ member
        rw [Option.getD_some]
        omega

/-- The dialog calls a type synced when some segment with a number from zero on has it. -/
theorem synced_iff {segs : List Segment} {entry : DataType}
    (listed : entry ∈ types (aggregate segs)) :
    entry.synced = true ↔ ∃ s ∈ segs, 0 ≤ s.number ∧ BackedUp entry.id s := by
  have column : ∀ col : UrlCol, (∃ names, type_spec entry.id = some (names, col)) →
      entry.synced = decide (max_of (fun s => decide (s.url col ≠ [])) segs ≥ 0) →
      (entry.synced = true ↔ ∃ s ∈ segs, 0 ≤ s.number ∧ BackedUp entry.id s) := by
    rintro col ⟨names, spec⟩ shown
    rw [shown, decide_eq_true_eq, max_of_nonneg_iff]
    refine exists_congr fun s => and_congr_right fun _ => ?_
    rw [decide_eq_true_eq, and_comm]
    apply and_congr_right
    intro _
    constructor
    · intro url
      exact ⟨names, col, spec, url⟩
    · rintro ⟨names', col', spec', url⟩
      rw [spec] at spec'
      cases spec'
      exact url
  simp only [types, List.mem_cons, List.not_mem_nil, or_false] at listed
  rcases listed with rfl | rfl | rfl | rfl | rfl | rfl
  · exact column .qcam ⟨_, rfl⟩ rfl
  · exact column .fcam ⟨_, rfl⟩ rfl
  · exact column .dcam ⟨_, rfl⟩ rfl
  · exact column .ecam ⟨_, rfl⟩ rfl
  · exact column .rlog ⟨_, rfl⟩ rfl
  · exact column .qlog ⟨_, rfl⟩ rfl

/-- An entry is found by its id. -/
theorem find_of_types {route : Aggregates} {entry : DataType} (listed : entry ∈ types route) :
    ((types route).find? fun t => decide (t.id = entry.id)) = some entry := by
  have ids : ((types route).map DataType.id).Nodup := by
    change ([("qcamera" : Text), "fcamera", "dcamera", "ecamera", "rlog", "qlog"] : List Text).Nodup
    decide
  let table : Table DataType DataType.id := ⟨types route, ids⟩
  exact (Table.get?_eq_some (t := table)).2 ⟨listed, rfl⟩

theorem unwarned_iff {segs : List Segment} {chosen : List Text} {entry : DataType}
    (listed : entry ∈ types (aggregate segs)) (ticked : entry.id ∈ chosen) :
    entry.id ∉ not_backed (types (aggregate segs)) chosen ↔
      ∃ s ∈ segs, 0 ≤ s.number ∧ BackedUp entry.id s := by
  rw [← synced_iff listed]
  unfold not_backed
  rw [List.mem_filter, find_of_types listed]
  simp [ticked]

/-- A complete warning lets one segment of a type stand for all. -/
theorem backed_up_of_complete {segs : List Segment} {checked : Text → Bool}
    (complete : WarningComplete segs checked) {t : Text}
    (ticked : t ∈ selected (types (aggregate segs)) checked)
    (some_backed : ∃ s ∈ segs, 0 ≤ s.number ∧ BackedUp t s) : ∀ s ∈ segs, BackedUp t s := by
  intro s row
  obtain ⟨entry, listed, _, rfl⟩ := mem_selected.1 ticked
  have nonempty : selected (types (aggregate segs)) checked ≠ [] := by
    intro empty
    rw [empty] at ticked
    cases ticked
  have asks : del_device (types (aggregate segs)) checked = some _ := if_neg nonempty
  apply complete _ asks entry.id ticked
  · exact (unwarned_iff listed ticked).2 some_backed
  · exact row
  · exact removes_every_segment asks ticked row

/-- **The warning is complete** exactly when, for each selected type, one segment of
number zero or more that is backed up means that every segment is.  What the handler takes off
the device are files of those types and segments. -/
theorem warning_complete_iff (segs : List Segment) (checked : Text → Bool) :
    (WarningComplete segs checked ↔
      ∀ t ∈ selected (types (aggregate segs)) checked,
        (∃ s ∈ segs, 0 ≤ s.number ∧ BackedUp t s) → ∀ s ∈ segs, BackedUp t s) ∧
    ∀ asked, del_device (types (aggregate segs)) checked = some asked →
      ∀ (env : Env) (dongle ts : Text) (w : World) (d path : Text), w.remote.read (d, path) ≠ none →
        (alone env (device_part asked.request dongle ts (segs.map Segment.number)) w).2.remote.read
          (d, path) = none →
        ∃ file ∈ candidates (segs.map Segment.number) asked.request.types,
          path = remote_path ts file.1 file.2 := by
  refine ⟨?_, fun asked _ env dongle ts w d path => gone_is_candidate env _ dongle ts _ w d path⟩
  constructor
  · intro complete t ticked some_backed
    exact backed_up_of_complete complete ticked some_backed
  · intro whole asked asks t chosen unwarned s row _
    unfold del_device at asks
    split at asks
    · cases asks
    · cases asks
      obtain ⟨entry, listed, _, rfl⟩ := mem_selected.1 chosen
      exact whole entry.id chosen ((unwarned_iff listed chosen).1 unwarned) s row

/-! ## Poles -/

/-- Two segments, of which the first has its fcamera on the server. -/
private def half_synced : List Segment :=
  [{ canonical_name := canonical "d" "t" 0, canonical_route_name := fullname "d" "t", number := 0,
     fcam_url := "u" },
   { canonical_name := canonical "d" "t" 1, canonical_route_name := fullname "d" "t", number := 1 }]

/-- With one of two segments backed up, the dialog deletes the other's only copy without
naming the type. -/
theorem half_synced_unwarned :
    ¬ ∀ (segs : List Segment) (checked : Text → Bool), WarningComplete segs checked := by
  intro claim
  have whole := backed_up_of_complete (claim half_synced fun t => decide (t = "fcamera"))
    (t := "fcamera") (by decide)
    ⟨_, List.mem_cons_self, by decide, ["fcamera.hevc"], .fcam, rfl, by decide⟩
  obtain ⟨names, col, spec, url⟩ := whole _ (List.mem_cons_of_mem _ List.mem_cons_self)
  cases spec
  exact url rfl

end HomeConnect.Manage
