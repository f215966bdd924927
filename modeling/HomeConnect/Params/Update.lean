/-
# Params.Update -- openpilot software updates over SSH

`check`, `download`, `install`, `reboot`, `set_branch` and `set_updates_enabled` each read
`IsOffroad` off the device first and then signal the updater or write a param, every SSH
command a round trip of its own.  They share the device with the flushes of the param
cache, whose allowlist holds one of the params they write.

The model is a pool of both: `Party.worker` is one of `Params.Flush`'s, `Party.request` an
update request.  A command that times out is given up, not stopped: it may still come through
when its request is long over, or never (`UpdateWorld.sent`).  openpilot sets its own params at
any time, `IsOffroad` among them.  `UpdateWorld.effects` is history: what changed a device's
software, and whether its car was off then.
-/
import HomeConnect.Base.Request
import HomeConnect.Params.Flush

namespace HomeConnect.Params

open HomeConnect.Theory

set_option autoImplicit false

/-! ## The commands -/

/-- What is run on a device over SSH. -/
inductive UpdateOp : Type → Type
  /-- `cat /data/params/d/{key} 2>/dev/null | head -c 4000` -/
  | read_snippet (key : Text) : UpdateOp (AppResult Text)
  /-- `pkill -{signal} -f '{UPDATED_PROC}'; true` -/
  | pkill (signal : Text) : UpdateOp (AppResult Unit)
  /-- The atomic write of one param. -/
  | put (key value : Text) : UpdateOp (AppResult Unit)

def read_snippet (key : Text) : Request UpdateOp Text := Request.perform (.read_snippet key)

def pkill (signal : Text) : Request UpdateOp Unit := Request.perform (.pkill signal)

/-- Re-read the car's state and refuse if it isn't off. -/
def require_offroad : Request UpdateOp Unit := do
  let out ← read_snippet "IsOffroad"
  Request.err_if (Text.trim out ≠ "1")
    (.BadRequest "the car must be off before changing software on the device")

def write_param (key value : Text) : Request UpdateOp Unit := do
  Request.err_if (¬ value.all fun c => c.isAlphanum || decide (c ∈ ['-', '_', '.', '/']))
    (.BadRequest "invalid parameter value")
  Request.perform (.put key value)

/-- Ask the updater to check for a new commit. -/
def check : Request UpdateOp Unit := do
  require_offroad
  pkill "SIGUSR1"

/-- Fetch and finalize an update into the staging overlay. -/
def download : Request UpdateOp Unit := do
  require_offroad
  pkill "SIGHUP"

/-- Install a staged update by rebooting the device. -/
def install : Request UpdateOp Unit := do
  require_offroad
  let ready ← read_snippet "UpdateAvailable"
  Request.err_if (Text.trim ready ≠ "1")
    (.BadRequest "no downloaded update is staged to install")
  write_param "DoReboot" "1"

def reboot : Request UpdateOp Unit := do
  require_offroad
  write_param "DoReboot" "1"

/-- Point the updater at a branch the device has listed. -/
def set_branch (branch : Text) : Request UpdateOp Unit := do
  require_offroad
  let listed ← read_snippet "UpdaterAvailableBranches"
  Request.err_if (branch ∉ Text.split ',' (Text.trim listed))
    (.BadRequest "unknown branch for this device")
  write_param "UpdaterTargetBranch" branch
  pkill "SIGUSR1"

/-- Turn openpilot's updater on or off. -/
def set_updates_enabled (enabled : Bool) : Request UpdateOp Unit := do
  require_offroad
  write_param "DisableUpdates" (if enabled then "0" else "1")

structure UpdateAction where
  action : Text
  branch : Text := []
  enabled : Bool := false
deriving DecidableEq, Repr

/-- What `post_update` does for a device that is online. -/
def post_update (req : UpdateAction) : Request UpdateOp Unit :=
  if req.action = "check" then check
  else if req.action = "download" then download
  else if req.action = "install" then install
  else if req.action = "reboot" then reboot
  else if req.action = "branch" then set_branch req.branch
  else if req.action = "updates" then set_updates_enabled req.enabled
  else throw (.BadRequest "unknown update action")

/-! ## Their effect -/

/-- The params that change the software a device runs. -/
def SOFTWARE_PARAMS : List Text := ["DoReboot", "UpdaterTargetBranch", "DisableUpdates"]

inductive Command
  | signal (name : Text)
  | write (key value : Text)
deriving DecidableEq, Repr

def Command.software : Command → Bool
  | .signal _ => true
  | .write key _ => key ∈ SOFTWARE_PARAMS

/-- A command that changes a device's software, and whether the car was off as it did. -/
structure Effect where
  dongle : Text
  command : Command
  offroad : Bool
deriving DecidableEq, Repr

structure UpdateWorld where
  params : World
  /-- The commands that timed out and have neither come through nor been lost. -/
  sent : List (Text × Command) := []
  effects : List Effect := []

/-- What `read_snippet` prints of a param. -/
def shown (files : Files) (key : Text) : Text := Text.head_c 4000 ((files key).getD [])

/-- `IsOffroad = 1`. -/
def offroad (files : Files) : Bool := decide (Text.trim (shown files "IsOffroad") = "1")

namespace UpdateWorld

def is_offroad (s : UpdateWorld) (dongle : Text) : Bool := offroad (s.params.devices dongle)

def signal (s : UpdateWorld) (dongle name : Text) : UpdateWorld :=
  { s with effects := s.effects ++ [⟨dongle, .signal name, s.is_offroad dongle⟩] }

/-- The history after a param has been written. -/
def written (s : UpdateWorld) (dongle key value : Text) : List Effect :=
  if key ∈ SOFTWARE_PARAMS then
    s.effects ++ [⟨dongle, .write key value, s.is_offroad dongle⟩]
  else s.effects

def write (s : UpdateWorld) (dongle key value : Text) : UpdateWorld :=
  { s with params := s.params.write dongle key value, effects := s.written dongle key value }

/-- A command takes effect. -/
def perform (s : UpdateWorld) (dongle : Text) : Command → UpdateWorld
  | .signal name => s.signal dongle name
  | .write key value => s.write dongle key value

end UpdateWorld

/-- What a command comes to for the one who waits for it.  `run` waits for 20 seconds and does
not kill the ssh process then. -/
inductive Waited
  | came (o : Outcome)
  | timed_out
deriving DecidableEq, Repr

/-- Run a command on a device. -/
def UpdateWorld.run (s : UpdateWorld) (dongle : Text) (c : Command) :
    Waited → AppResult Unit × UpdateWorld
  | .came .ok => (.ok (), s.perform dongle c)
  | .came .failed => (.error (.Other "ssh"), s)
  | .came .late => (.error (.Other "ssh"), s.perform dongle c)
  | .timed_out => (.error (.Other "ssh timed out"), { s with sent := s.sent ++ [(dongle, c)] })

def UpdateOp.exec (dongle : Text) {β : Type} :
    UpdateOp β → Waited → UpdateWorld → β × UpdateWorld
  | .read_snippet key, .came .ok, s => (.ok (shown (s.params.devices dongle) key), s)
  | .read_snippet _, _, s => (.error (.Other "ssh"), s)
  | .pkill name, o, s => s.run dongle (.signal name) o
  | .put key value, o, s => s.run dongle (.write key value) o

/-! ## Requests, flushes and the device -/

/-- The pair that a worker's turn writes to the device. -/
def Worker.puts (w : Worker) (o : Outcome) : Option (Text × Text) :=
  match w.stage, o with
  | .pend _ _, .failed => none
  | .pend ((k, v) :: _) _, _ => if is_writable k v then some (k, v) else none
  | _, _ => none

/-- What a worker's turn does to a device. -/
theorem Worker.devices_turn {w w' : Worker} {o : Outcome} {s s' : World}
    (turned : w.turn o s = some (s', w')) :
    s'.devices = match w.puts o with
      | some p => (s.write w.dongle p.1 p.2).devices
      | none => s.devices := by
  obtain ⟨dongle, reconcile, stage⟩ := w
  cases stage with
  | select => cases o <;> cases turned <;> rfl
  | pend pairs n =>
      cases pairs with
      | nil => cases o <;> cases turned <;> rfl
      | cons p rest =>
          obtain ⟨k, v⟩ := p
          simp only [Worker.turn] at turned
          by_cases valid : is_writable k v = true
          · rw [if_pos valid] at turned
            cases o <;> cases turned <;> simp [Worker.puts, valid]
          · rw [if_neg valid] at turned
            cases o <;> cases turned <;> simp [Worker.puts, valid]
  | clear k v rest n => cases o <;> cases turned <;> rfl
  | read_all => cases o <;> cases turned <;> rfl
  | store pairs =>
      cases pairs with
      | nil => cases o <;> cases turned <;> rfl
      | cons p rest => cases o <;> cases turned <;> rfl
  | returned => cases turned

/-- An update request, tagged with its device. -/
abbrev UpdateTask := Task Text UpdateOp (AppResult Unit)

inductive Party
  | worker (w : Worker)
  | request (t : UpdateTask)

inductive UpdateAct
  | params (a : Action)
  | post_update (dongle : Text) (device : Seen) (req : UpdateAction)
  /-- openpilot sets or removes a param of its own. -/
  | device_param (dongle key : Text) (value : Option Text)
  /-- A command that timed out comes through. -/
  | lands (i : Nat)
  /-- ... or never will. -/
  | lost (i : Nat)
deriving DecidableEq, Repr

/-- A device after openpilot has set a param. -/
def World.set_param (s : World) (dongle key : Text) (value : Option Text) : World :=
  { s with devices := fun d k => if d = dongle ∧ k = key then value else s.devices d k }

def UpdateAct.act : UpdateAct → UpdateWorld → Option (UpdateWorld × List Party)
  | .params a, s =>
      (Params.act a s.params).map fun r => ({ s with params := r.1 }, r.2.map Party.worker)
  | .post_update dongle device req, s =>
      some (s, if device.reachable then [.request ⟨dongle, (Params.post_update req).run⟩] else [])
  | .device_param dongle key value, s =>
      some ({ s with params := s.params.set_param dongle key value }, [])
  | .lands i, s =>
      (s.sent[i]?).map fun e => ({ s with sent := s.sent.eraseIdx i }.perform e.1 e.2, [])
  | .lost i, s => some ({ s with sent := s.sent.eraseIdx i }, [])

def Party.turn : Party → Waited → UpdateWorld → Option (UpdateWorld × Party)
  | .worker w, .came o, s =>
      (w.turn o s.params).map fun r =>
        ({ s with
            params := r.1
            effects := match w.puts o with
              | some p => s.written w.dongle p.1 p.2
              | none => s.effects }, .worker r.2)
  | .worker w, .timed_out, s =>
      (w.turn .failed s.params).map fun r =>
        ({ s with
            params := r.1
            sent := match w.puts .ok with
              | some p => s.sent ++ [(w.dongle, .write p.1 p.2)]
              | none => s.sent }, .worker r.2)
  | .request t, o, s =>
      (t.turn (fun f o s => f.exec t.tag o s) o s).map fun r => (r.1, .request r.2)

def updateRules : Pool.Rules UpdateWorld Party UpdateAct Waited := ⟨UpdateAct.act, Party.turn⟩

end HomeConnect.Params
