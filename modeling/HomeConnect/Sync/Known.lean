/-
# Sync.Known -- what a scan knows of a segment and of a route

A scan reads the device's segments and the overrides of its routes into tables by name.  In
a named database the entry of a segment is what its row says, and the types of a route are
those of its row, if it has one.
-/
import HomeConnect.Drives.Named
import HomeConnect.Sync.Scan

namespace HomeConnect.Sync

open HomeConnect.Theory HomeConnect.Storage HomeConnect.Drives

set_option autoImplicit false

/-- Two names that agree have the same device. -/
theorem dongle_of_canonical {dongle ts dongle' ts' : Text} {seg seg' : Int} (clean : '|' ∉ dongle)
    (clean' : '|' ∉ dongle') (same : canonical dongle ts seg = canonical dongle' ts' seg') :
    dongle = dongle' := by
  have split := congrArg (Text.split_once '|') same
  have whole : ∀ d t n, canonical d t n = fullname d (t ++ "--" ++ Text.decimal n) := by
    intro d t n
    simp [canonical, fullname, List.append_assoc]
  rw [whole, whole, fullname_split clean, fullname_split clean'] at split
  exact congrArg Prod.fst (Option.some.inj split)

/-- The entry of a segment is its row's. -/
theorem lookup_registration {db : Storage.Db} (named : Named db) {dongle : Text}
    (clean : '|' ∉ dongle) (ts : Text) (seg : Int) :
    lookup (load_registration dongle db) (canonical dongle ts seg) =
      (db.segments.get? (canonical dongle ts seg)).map Reg.of_segment := by
  rw [lookup]
  cases found : db.segments.get? (canonical dongle ts seg) with
  | none =>
      have none : (load_registration dongle db).reverse.find?
          (fun e => decide (e.1 = canonical dongle ts seg)) = none := by
        rw [List.find?_eq_none]
        intro e member hit
        obtain ⟨s, row, rfl⟩ := List.mem_map.1 (List.mem_reverse.1 member)
        exact Table.get?_eq_none.1 found s (List.mem_filter.1 row).1 (of_decide_eq_true hit)
      rw [none]
      rfl
  | some s =>
      obtain ⟨member, name⟩ := Table.get?_eq_some.1 found
      obtain ⟨dongle', ts', clean', is, of⟩ := named.segments s member
      have same := dongle_of_canonical clean' clean (is.symm.trans name)
      have listed : (s.canonical_name, Reg.of_segment s) ∈ load_registration dongle db := by
        refine List.mem_map.2 ⟨s, List.mem_filter.2 ⟨member, ?_⟩, rfl⟩
        rw [of, same, fullname, List.append_assoc]
        have like := Text.like_prefix (dongle ++ ("|" : Text)) ts'
        rwa [List.append_assoc, List.append_assoc] at like
      cases hit : (load_registration dongle db).reverse.find?
          (fun e => decide (e.1 = canonical dongle ts seg)) with
      | none =>
          have missed := List.find?_eq_none.1 hit _ (List.mem_reverse.2 listed)
          exact absurd (decide_eq_true name) missed
      | some e =>
          obtain ⟨s', row, rfl⟩ :=
            List.mem_map.1 (List.mem_reverse.1 (List.mem_of_find?_eq_some hit))
          have name' : s'.canonical_name = canonical dongle ts seg := by
            simpa using List.find?_some hit
          rw [Table.eq_of_key (List.mem_filter.1 row).1 member (name'.trans name.symm)]
          rfl

/-- A route without a row has no override. -/
theorem lookup_overrides {db : Storage.Db} (named : Named db) {dongle ts : Text}
    (gone : ∀ r ∈ db.routes.rows, r.fullname ≠ fullname dongle ts) :
    lookup (load_route_overrides dongle db) ts = none := by
  rw [lookup]
  have none : (load_route_overrides dongle db).reverse.find? (fun e => decide (e.1 = ts)) = none := by
    rw [List.find?_eq_none]
    intro e member hit
    obtain ⟨r, row, entry⟩ := List.mem_filterMap.1 (List.mem_reverse.1 member)
    obtain ⟨listed, own⟩ := List.mem_filter.1 row
    obtain ⟨clean, ts', is⟩ := named.routes r listed
    have own' : r.device_dongle_id = dongle := of_decide_eq_true own
    rw [is, fullname_split clean] at entry
    cases entry
    have same : ts' = ts := of_decide_eq_true hit
    rw [own', same] at is
    exact gone r listed is
  rw [none]
  rfl

/-- A drive's entry is its row's. -/
theorem lookup_override {db : Storage.Db} (named : Named db) {dongle ts : Text} {r : Route}
    (listed : r ∈ db.routes.rows) (is : r.fullname = fullname dongle ts) (clean : '|' ∉ dongle) :
    lookup (load_route_overrides dongle db) ts = some (r.sync_types.map split_types) := by
  have own : r.device_dongle_id = dongle := by
    obtain ⟨clean', ts', is'⟩ := named.routes r listed
    have split := fullname_split clean' ts'
    rw [← is', is, fullname_split clean] at split
    cases split
    rfl
  have entry : (ts, r.sync_types.map split_types) ∈ load_route_overrides dongle db := by
    refine List.mem_filterMap.2 ⟨r, List.mem_filter.2 ⟨listed, decide_eq_true own⟩, ?_⟩
    rw [is, fullname_split clean]
    rfl
  rw [lookup]
  cases hit : (load_route_overrides dongle db).reverse.find? (fun e => decide (e.1 = ts)) with
  | none =>
      have missed := List.find?_eq_none.1 hit _ (List.mem_reverse.2 entry)
      exact absurd (decide_eq_true rfl) missed
  | some e =>
      -- any entry of the timestamp is of the same row
      have name : e.1 = ts := by simpa using List.find?_some hit
      obtain ⟨r', row, entry'⟩ :=
        List.mem_filterMap.1 (List.mem_reverse.1 (List.mem_of_find?_eq_some hit))
      obtain ⟨listed', own'⟩ := List.mem_filter.1 row
      obtain ⟨clean', ts', is'⟩ := named.routes r' listed'
      rw [is', fullname_split clean'] at entry'
      cases entry'
      have own'' : r'.device_dongle_id = dongle := of_decide_eq_true own'
      have name' : ts' = ts := name
      rw [own'', name', ← is] at is'
      rw [Table.eq_of_key listed' listed is']
      rfl

/-- The types a route overrides the default with are those of its row. -/
theorem types_of_route {db : Storage.Db} (named : Named db) {dongle : Text} (clean : '|' ∉ dongle)
    (ts : Text) :
    (lookup (load_route_overrides dongle db) ts).join =
      ((db.routes.get? (fullname dongle ts)).bind Route.sync_types).map split_types := by
  cases found : db.routes.get? (fullname dongle ts) with
  | none =>
      rw [lookup_overrides named fun r listed name => ?_]
      · rfl
      · exact Table.get?_eq_none.1 found r listed name
  | some r =>
      obtain ⟨listed, name⟩ := Table.get?_eq_some.1 found
      rw [lookup_override named listed name clean]
      rfl

end HomeConnect.Sync
