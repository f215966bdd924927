/-
# Drives.Poles -- the servers that runs start from

The poles of the modules after this one run the model on a server with one device
(`one_device`), or with one drive of it (`one_drive`), to which each adds what it needs.
Both are named as every write keeps the rows.
-/
import HomeConnect.Drives.Named

namespace HomeConnect.Drives

open HomeConnect.Theory HomeConnect.Storage

set_option autoImplicit false

/-- Default toggles, logs that hold nothing, and one shard for all blobs. -/
def plain_env : Env where
  public_url := "u"
  shard := fun _ => ("00", "00")
  parse := fun _ _ => .ok {}
  coords_json := fun _ => []
  events_json := fun _ => []
  telemetry_json := fun _ => []
  build_sprite := fun _ => none
  extract_model := fun _ _ => none

/-- A registered device, and nothing else. -/
def one_device (device : Accounts.Device) : World where
  db :=
    { accounts :=
        { users := Accounts.Users.empty
          devices := .single device
          authorized_users := Table.empty }
      settings := Table.empty
      routes := Table.empty
      segments := Table.empty
      movies := Table.empty
      subs := Table.empty }
  blobs := Table.empty
  transcode := Table.empty
  remote := Table.empty

/-- A drive of the device `d`, with these segments. -/
def one_drive (segments : Table Segment Segment.canonical_name) : World :=
  { one_device { dongle_id := "d" } with
    db.routes := .single { fullname := "d|t", device_dongle_id := "d" }
    db.segments := segments }

/-- The row of one of its segments. -/
def drive_segment (number : Int) : Segment where
  canonical_name := canonical "d" "t" number
  canonical_route_name := "d|t"
  number

theorem named_one_device (device : Accounts.Device) (clean : '|' ∉ device.dongle_id) :
    Named (one_device device).db where
  devices d member := by
    rw [List.mem_singleton.1 member]
    exact clean
  routes r member := (List.not_mem_nil member).elim
  segments s member := (List.not_mem_nil member).elim

theorem named_one_drive (segments : Table Segment Segment.canonical_name)
    (rows : ∀ s ∈ segments.rows, s.canonical_name = canonical "d" "t" s.number ∧
      s.canonical_route_name = "d|t") : Named (one_drive segments).db where
  devices := (named_one_device { dongle_id := "d" } (by decide)).devices
  routes r member := by
    rw [List.mem_singleton.1 member]
    exact ⟨by decide, "t", rfl⟩
  segments s member := ⟨"d", "t", by decide, rows s member⟩

end HomeConnect.Drives
