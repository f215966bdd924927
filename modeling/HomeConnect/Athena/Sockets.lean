/-
# Athena.Sockets -- the devices' websockets

A device dials out to the server and keeps a websocket open.  Each accepted upgrade
starts a handler (`Socket`), which registers the dongle with the `ConnectionManager`,
marks the device online, and then runs two tasks: one pings and hangs up when the device
has gone quiet, one receives frames.  When either ends the handler tears down: it removes
the dongle from the manager and marks the device offline.  A reaper marks devices offline
whose last ping is old.

A statement's clock is read before the statement runs, so both are steps of their own;
one that belongs to an aborted task may still run later, or never (`strays`).
`Hub.heard` and `Socket.frame_at` are history: when devices were heard.  No code reads
them.
-/
import HomeConnect.Accounts.Tables
import HomeConnect.Theory.Pool

namespace HomeConnect.Athena

open HomeConnect.Theory HomeConnect.Accounts

set_option autoImplicit false

/-- A device is considered offline if we haven't heard from it in this long. -/
def OFFLINE_AFTER_SECS : Int := 30

/-! ## ConnectionManager -/

/-- The dongles that hold an open socket: the keys of the map. -/
abbrev ConnectionManager := List Text

namespace ConnectionManager

def connected (inner : ConnectionManager) (dongle : Text) : ConnectionManager :=
  if dongle ∈ inner then inner else dongle :: inner

def disconnected (inner : ConnectionManager) (dongle : Text) : ConnectionManager :=
  inner.filter fun d => decide (d ≠ dongle)

def is_connected (inner : ConnectionManager) (dongle : Text) : Bool := decide (dongle ∈ inner)

theorem mem_connected {inner : ConnectionManager} {dongle d : Text} :
    d ∈ inner.connected dongle ↔ d = dongle ∨ d ∈ inner := by
  unfold connected
  split
  · rename_i there
    constructor
    · exact .inr
    · rintro (rfl | other)
      · exact there
      · exact other
  · exact List.mem_cons

theorem mem_disconnected {inner : ConnectionManager} {dongle d : Text} :
    d ∈ inner.disconnected dongle ↔ d ∈ inner ∧ d ≠ dongle := by
  simp [disconnected]

end ConnectionManager

/-! ## The shared state -/

structure Hub where
  athena : ConnectionManager := []
  devices : Table Device Device.dongle_id
  now : Int := 0
  /-- Statements of aborted tasks: the dongle, and the time they write. -/
  strays : List (Text × Int) := []
  heard : List (Text × Int) := []

namespace Hub

def touch_ping (h : Hub) (dongle : Text) (time : Int) : Hub :=
  { h with
    devices := h.devices.update (fun d => decide (d.dongle_id = dongle))
      (fun d => { d with last_athena_ping := time, online := 1 }) fun _ => rfl }

def mark_online (h : Hub) (dongle : Text) (online time : Int) : Hub :=
  { h with
    devices := h.devices.update (fun d => decide (d.dongle_id = dongle))
      (fun d => { d with online, last_athena_ping := time }) fun _ => rfl }

/-- One tick of the reaper. -/
def reap (h : Hub) : Hub :=
  { h with
    devices := h.devices.update
      (fun d => d.online = 1 && decide (d.last_athena_ping < h.now - OFFLINE_AFTER_SECS))
      (fun d => { d with online := 0 }) fun _ => rfl }

/-- The device was heard just now. -/
def hear (h : Hub) (dongle : Text) : Hub := { h with heard := (dongle, h.now) :: h.heard }

/-- When the device was last heard. -/
def last_heard (h : Hub) (dongle : Text) : Option Int :=
  (h.heard.find? fun e => decide (e.1 = dongle)).map Prod.snd

end Hub

/-- The first address of `X-Forwarded-For`. -/
def client_addr (xff : Option Text) : Option Text :=
  let first (s : Text) : Text :=
    match Text.split_once ',' s with
    | some (ip, _) => Text.trim ip
    | none => Text.trim s
  (xff.map first).filter fun ip => decide (ip ≠ [])

/-- The upgrade is refused unless the token is the device's own. -/
def ws_handler (identity : Text) (device : Option Device) (dongle : Text) : AppResult Unit :=
  match device with
  | none => .error (.Unauthorized "device token required")
  | some d =>
      if d.dongle_id ≠ dongle ∨ identity ≠ dongle then .error (.Forbidden "token does not match dongle")
      else .ok ()

/-! ## A handler -/

inductive Phase
  /-- The upgrade is answered. -/
  | accepted
  /-- `connected` is done; `mark_online(true)` is to come. -/
  | registered
  /-- ... and has read the clock. -/
  | greeting (time : Int)
  | greeted
  /-- Both tasks run; the receiving one may be about to write a frame's time. -/
  | running (last_seen : Int) (touching : Option Int)
  /-- A task has ended and the other is aborted; `disconnected` is to come. -/
  | closing
  /-- ... and is done; `mark_online(false)` is to come. -/
  | leaving
  /-- ... and has read the clock. -/
  | parting (time : Int)
  | closed
deriving DecidableEq, Repr

structure Socket where
  dongle : Text
  phase : Phase := .accepted
  /-- When a frame was last received on this socket. -/
  frame_at : Option Int := none
deriving DecidableEq, Repr

namespace Socket

/-- Started, and not at its teardown. -/
def live (s : Socket) : Bool :=
  match s.phase with
  | .registered | .greeting _ | .greeted | .running .. => true
  | _ => false

/-- Both tasks run. -/
def is_open (s : Socket) : Bool :=
  match s.phase with
  | .running .. => true
  | _ => false

/-- Removed from the manager, and not yet done. -/
def tearing (s : Socket) : Bool :=
  match s.phase with
  | .leaving | .parting _ => true
  | _ => false

/-- What happens to a handler next. -/
inductive Turn
  /-- It goes on; a statement is carried out. -/
  | go
  /-- Its statement fails, which is ignored. -/
  | failed
  /-- A frame arrives. -/
  | frame
  /-- A close frame arrives. -/
  | close
  /-- The connection breaks. -/
  | broken
  /-- The interval ticks and the ping is sent. -/
  | ping
  /-- The interval ticks and the ping cannot be sent. -/
  | ping_failed
deriving DecidableEq, Repr

/-- The ping task ends: the receiving one is aborted, perhaps in a statement. -/
def hang_up (s : Socket) (touching : Option Int) (h : Hub) : Hub × Socket :=
  ({ h with strays := (touching.map fun time => (s.dongle, time)).toList ++ h.strays },
    { s with phase := .closing })

/-- One step of `handle_socket`. -/
def turn (s : Socket) (o : Turn) (h : Hub) : Option (Hub × Socket) :=
  match s.phase, o with
  | .accepted, .go => some ({ h with athena := h.athena.connected s.dongle }, { s with phase := .registered })
  | .registered, .go => some (h, { s with phase := .greeting h.now })
  | .greeting time, .go => some (h.mark_online s.dongle 1 time, { s with phase := .greeted })
  | .greeting _, .failed => some (h, { s with phase := .greeted })
  | .greeted, .go => some (h, { s with phase := .running h.now none })
  | .running _ none, .frame =>
      some (h.hear s.dongle, { s with phase := .running h.now (some h.now), frame_at := some h.now })
  | .running _ none, .close => some (h.hear s.dongle, { s with phase := .closing })
  | .running _ none, .broken => some (h, { s with phase := .closing })
  | .running seen (some time), .go => some (h.touch_ping s.dongle time, { s with phase := .running seen none })
  | .running seen (some _), .failed => some (h, { s with phase := .running seen none })
  | .running seen touching, .ping =>
      if OFFLINE_AFTER_SECS < h.now - seen then some (s.hang_up touching h) else some (h, s)
  | .running _ touching, .ping_failed => some (s.hang_up touching h)
  | .closing, .go => some ({ h with athena := h.athena.disconnected s.dongle }, { s with phase := .leaving })
  | .leaving, .go => some (h, { s with phase := .parting h.now })
  | .parting time, .go => some (h.mark_online s.dongle 0 time, { s with phase := .closed })
  | .parting _, .failed => some (h, { s with phase := .closed })
  | _, _ => none

end Socket

/-! ## Any number of sockets -/

inductive Act
  /-- Seconds pass. -/
  | tick (secs : Nat)
  /-- An upgrade request. -/
  | upgrade (identity : Text) (device : Option Device) (dongle : Text) (xff : Option Text)
  | reap
  /-- A statement of an aborted task runs after all. -/
  | stray (i : Nat)

/-- Record the address the device reached us from. -/
def set_last_addr (h : Hub) (dongle : Text) (addr : Option Text) : Hub :=
  match addr with
  | none => h
  | some last_addr =>
      { h with
        devices := h.devices.update (fun d => decide (d.dongle_id = dongle))
          (fun d => { d with last_addr }) fun _ => rfl }

def act : Act → Hub → Option (Hub × List Socket)
  | .tick secs, h => some ({ h with now := h.now + secs }, [])
  | .upgrade identity device dongle xff, h =>
      match ws_handler identity device dongle with
      | .error _ => some (h, [])
      | .ok () => some ((set_last_addr h dongle (client_addr xff)).hear dongle, [{ dongle }])
  | .reap, h => some (h.reap, [])
  | .stray i, h =>
      match h.strays[i]? with
      | none => none
      | some (dongle, time) =>
          some ({ h with strays := h.strays.eraseIdx i }.touch_ping dongle time, [])

def sockets : Pool.Rules Hub Socket Act Socket.Turn := ⟨act, Socket.turn⟩

end HomeConnect.Athena
