/-
# Drives.Named -- the names of the rows

A device's id has no `|` (it is made of hex digits), a route is named by its device's id and
a timestamp, and a segment by its route's name and its number.  Every write keeps this
(`Named.exec`): rows of the two tables are only added by the two `INSERT`s, which the
foreign keys tie to a device and to a route.
-/
import HomeConnect.Drives.Statements

namespace HomeConnect.Drives

open HomeConnect.Theory HomeConnect.Storage

set_option autoImplicit false

def DeviceNamed (d : Accounts.Device) : Prop := '|' ∉ d.dongle_id

def RouteNamed (r : Route) : Prop :=
  '|' ∉ r.device_dongle_id ∧ ∃ ts, r.fullname = fullname r.device_dongle_id ts

def SegmentNamed (s : Segment) : Prop :=
  ∃ dongle ts, '|' ∉ dongle ∧ s.canonical_name = canonical dongle ts s.number ∧
    s.canonical_route_name = fullname dongle ts

structure Named (db : Storage.Db) : Prop where
  devices : ∀ d ∈ db.accounts.devices.rows, DeviceNamed d
  routes : ∀ r ∈ db.routes.rows, RouteNamed r
  segments : ∀ s ∈ db.segments.rows, SegmentNamed s

theorem RouteNamed.separated {r : Route} (named : RouteNamed r) : '|' ∈ r.fullname := by
  obtain ⟨_, ts, is⟩ := named
  rw [is, fullname]
  simp

theorem canonical_eq (dongle ts : Text) (seg : Int) :
    canonical dongle ts seg = fullname dongle ts ++ ("--" ++ Text.decimal seg) := by
  simp [canonical, fullname, List.append_assoc]

/-- A segment of a named route is named. -/
theorem segment_named {db : Storage.Db} (named : Named db) {dongle ts : Text} {seg : Int} {s : Segment}
    (route : (db.routes.get? (fullname dongle ts)).isSome)
    (name : s.canonical_name = canonical dongle ts seg) (number : s.number = seg)
    (of : s.canonical_route_name = fullname dongle ts) : SegmentNamed s := by
  obtain ⟨r, found⟩ := Option.isSome_iff_exists.1 route
  obtain ⟨member, same⟩ := Table.get?_eq_some.1 found
  obtain ⟨clean, ts', is⟩ := named.routes r member
  rw [is] at same
  refine ⟨r.device_dongle_id, ts', clean, ?_, of.trans same.symm⟩
  rw [name, number, canonical_eq, canonical_eq, same]

theorem route_of_accepted {w : World} {dongle ts : Text} {seg : Int}
    (accepted : ¬ w.refuses_segment dongle ts seg = true)
    (absent : w.db.segments.get? (canonical dongle ts seg) = none) :
    (w.db.routes.get? (fullname dongle ts)).isSome := by
  cases found : w.db.routes.get? (fullname dongle ts) with
  | none => simp [World.refuses_segment, absent, found] at accepted
  | some r => rfl

/-- Every write keeps the names. -/
theorem Named.exec {env : Env} {s : Write} {w w' : World} (named : Named w.db)
    (done : s.exec env w = some w') : Named w'.db := by
  cases s with
  | add_server_storage dongle len =>
      cases done
      refine ⟨fun d member => ?_, named.routes, named.segments⟩
      obtain ⟨d', old, rfl⟩ := List.mem_map.1 member
      have clean := named.devices d' old
      split <;> exact clean
  | set_last_gps dongle lat lng time =>
      cases done
      refine ⟨fun d member => ?_, named.routes, named.segments⟩
      obtain ⟨d', old, rfl⟩ := List.mem_map.1 member
      have clean := named.devices d' old
      split <;> exact clean
  | insert_route dongle ts =>
      simp only [Write.exec] at done
      split at done
      · cases done
      · rename_i accepted
        cases done
        refine ⟨named.devices, fun r member => ?_, named.segments⟩
        rcases Table.mem_insertIfAbsent.1 member with old | ⟨rfl, absent⟩
        · exact named.routes r old
        · -- the foreign key: the device is registered
          cases found : w.db.accounts.devices.get? dongle with
          | none => simp [absent, found] at accepted
          | some d =>
              obtain ⟨listed, rfl⟩ := Table.get?_eq_some.1 found
              exact ⟨named.devices d listed, ts, rfl⟩
  | insert_segment dongle ts seg =>
      simp only [Write.exec] at done
      split at done
      · cases done
      · rename_i accepted
        cases done
        refine ⟨named.devices, named.routes, fun s member => ?_⟩
        rcases Table.mem_insertIfAbsent.1 member with old | ⟨rfl, absent⟩
        · exact named.segments s old
        · exact segment_named named (route_of_accepted accepted absent) rfl rfl rfl
  | upsert_segment dongle ts seg data =>
      simp only [Write.exec] at done
      split at done
      · cases done
      · rename_i accepted
        cases done
        refine ⟨named.devices, named.routes, fun s member => ?_⟩
        simp only [Table.upsert] at member
        split at member
        · rename_i absent
          rcases Table.mem_insertIfAbsent.1 member with old | ⟨rfl, _⟩
          · exact named.segments s old
          · exact segment_named named (route_of_accepted accepted absent) rfl rfl rfl
        · obtain ⟨s', old, rfl⟩ := List.mem_map.1 member
          have kept := named.segments s' old
          split <;> exact kept
  | set_url dongle ts seg col url =>
      cases done
      refine ⟨named.devices, named.routes, fun s member => ?_⟩
      obtain ⟨s', old, rfl⟩ := List.mem_map.1 member
      have kept := named.segments s' old
      split
      · unfold SegmentNamed at kept ⊢
        rwa [Segment.set_url_canonical_name, Segment.set_url_number, Segment.set_url_route]
      · exact kept
  | set_aggregates name aggregates =>
      cases done
      refine ⟨named.devices, fun r member => ?_, named.segments⟩
      obtain ⟨r', old, rfl⟩ := List.mem_map.1 member
      have kept := named.routes r' old
      split <;> exact kept
  | set_meta name info =>
      cases done
      refine ⟨named.devices, fun r member => ?_, named.segments⟩
      obtain ⟨r', old, rfl⟩ := List.mem_map.1 member
      have kept := named.routes r' old
      split <;> exact kept
  | set_sync_types name types =>
      cases done
      refine ⟨named.devices, fun r member => ?_, named.segments⟩
      obtain ⟨r', old, rfl⟩ := List.mem_map.1 member
      have kept := named.routes r' old
      split <;> exact kept
  | delete_segments name =>
      cases done
      exact ⟨named.devices, named.routes, fun s member =>
        named.segments s (Table.mem_delete.1 member).1⟩
  | delete_route name =>
      simp only [Write.exec, Option.ite_none_left_eq_some] at done
      obtain ⟨_, done⟩ := done
      cases done
      exact ⟨named.devices, fun r member => named.routes r (Table.mem_delete.1 member).1,
        named.segments⟩
  | ts_rename tmp out =>
      obtain ⟨bytes, _, rfl⟩ := Option.map_eq_some_iff.1 done
      exact ⟨named.devices, named.routes, named.segments⟩
  | _ => cases done; exact ⟨named.devices, named.routes, named.segments⟩

end HomeConnect.Drives
