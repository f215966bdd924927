/-
# Athena.Liveness -- whose doing last_athena_ping is

The column is meant to say when the device was last heard.  Frames write the time they
arrived at, and so does the connect; but the teardown writes the time of the teardown,
also when it comes of the device's silence (`hang_up_counts_as_heard`).

`Prompted` rules that out, and delay: a socket is given up without the device's doing only in
a second in which the device was heard, and no second passes between an upgrade or a close and
the clock reading that it leads to.  In every run that meets it the column never says more than
when the device was heard (`ping_is_heard`).
-/
import HomeConnect.Athena.Sockets

namespace HomeConnect.Athena

open HomeConnect.Theory HomeConnect.Accounts

set_option autoImplicit false

/-- When the device was last heard; 0, the column's default, for one that never was. -/
def Hub.heard_at (h : Hub) (dongle : Text) : Int := (h.last_heard dongle).getD 0

/-- No device's column says more than when the device was heard, whatever becomes of the
statements under way. -/
structure Honest (h : Hub) : Prop where
  rows : ∀ d ∈ h.devices.rows, d.last_athena_ping ≤ h.heard_at d.dongle_id
  strays : ∀ e ∈ h.strays, e.2 ≤ h.heard_at e.1
  past : ∀ dongle, h.heard_at dongle ≤ h.now

/-- The device is not heard earlier than before. -/
def Hub.Later (h h' : Hub) : Prop := ∀ dongle, h.heard_at dongle ≤ h'.heard_at dongle

theorem Hub.Later.of_same {h h' : Hub} (same : h'.heard = h.heard) : h.Later h' := by
  intro dongle
  have heard : h'.heard_at dongle = h.heard_at dongle := by
    unfold Hub.heard_at Hub.last_heard
    rw [same]
  exact Int.le_of_eq heard.symm

theorem heard_at_hear (h : Hub) (dongle d : Text) :
    (h.hear dongle).heard_at d = if d = dongle then h.now else h.heard_at d := by
  unfold Hub.hear Hub.heard_at Hub.last_heard
  rw [List.find?_cons]
  by_cases own : d = dongle
  · rw [if_pos own]
    simp [own]
  · rw [if_neg own]
    have other : ¬ dongle = d := fun is => own is.symm
    simp [other]

theorem later_hear {h : Hub} (honest : Honest h) (dongle : Text) : h.Later (h.hear dongle) := by
  intro d
  rw [heard_at_hear]
  split
  · exact honest.past d
  · exact Int.le_refl _

/-- Hearing a device keeps the column behind. -/
theorem Honest.hear {h : Hub} (honest : Honest h) (dongle : Text) : Honest (h.hear dongle) where
  rows := fun d member => Int.le_trans (honest.rows d member) (later_hear honest dongle d.dongle_id)
  strays := fun e member => Int.le_trans (honest.strays e member) (later_hear honest dongle e.1)
  past := by
    intro d
    rw [heard_at_hear]
    split
    · exact Int.le_refl _
    · exact honest.past d

/-- A statement on a device's row that writes a time at which it had been heard, or none. -/
theorem Honest.update {h : Hub} (honest : Honest h) (pick : Device → Bool) (f : Device → Device)
    (same : ∀ d, (f d).dongle_id = d.dongle_id)
    (honest_write : ∀ d ∈ h.devices.rows, pick d = true →
      (f d).last_athena_ping ≤ h.heard_at d.dongle_id) :
    Honest { h with devices := h.devices.update pick f same } where
  rows := by
    intro d member
    obtain ⟨d', old, rfl⟩ := List.mem_map.1 member
    show (if pick d' = true then f d' else d').last_athena_ping ≤ _
    by_cases picked : pick d' = true
    · rw [if_pos picked, same]
      exact honest_write d' old picked
    · rw [if_neg picked]
      exact honest.rows d' old
  strays := honest.strays
  past := honest.past

theorem Honest.touch_ping {h : Hub} (honest : Honest h) {dongle : Text} {time : Int}
    (heard : time ≤ h.heard_at dongle) : Honest (h.touch_ping dongle time) := by
  refine honest.update (fun d => decide (d.dongle_id = dongle))
    (fun d => { d with last_athena_ping := time, online := 1 }) (fun _ => rfl) fun d _ picked => ?_
  rw [of_decide_eq_true picked]
  exact heard

theorem Honest.mark_online {h : Hub} (honest : Honest h) {dongle : Text} (online : Int) {time : Int}
    (heard : time ≤ h.heard_at dongle) : Honest (h.mark_online dongle online time) := by
  refine honest.update (fun d => decide (d.dongle_id = dongle))
    (fun d => { d with online, last_athena_ping := time }) (fun _ => rfl) fun d _ picked => ?_
  rw [of_decide_eq_true picked]
  exact heard

/-! ## Handlers -/

/-- A handler about to write a time has it from when the device had been heard. -/
def Socket.Honest (h : Hub) (s : Socket) : Prop :=
  match s.phase with
  | .greeting time | .parting time | .running _ (some time) => time ≤ h.heard_at s.dongle
  | _ => True

theorem Socket.Honest.later {h h' : Hub} {s : Socket} (honest : s.Honest h) (later : h.Later h') :
    s.Honest h' := by
  obtain ⟨dongle, phase, frame_at⟩ := s
  cases phase with
  | greeting time => exact Int.le_trans honest (later dongle)
  | parting time => exact Int.le_trans honest (later dongle)
  | running seen touching =>
      cases touching with
      | none => trivial
      | some time => exact Int.le_trans honest (later dongle)
  | _ => trivial

namespace Socket

/-- The handler has not yet read the clock for the `mark_online` it is on its way to. -/
def due (s : Socket) : Bool :=
  match s.phase with
  | .accepted | .registered | .closing | .leaving => true
  | _ => false

/-- The turn gives the socket up, and not because the device closed it: it has been quiet for
too long, a ping cannot be sent, or the connection is broken. -/
def gives_up (s : Socket) (o : Turn) (h : Hub) : Bool :=
  match s.phase, o with
  | .running seen _, .ping => OFFLINE_AFTER_SECS < h.now - seen
  | .running .., .ping_failed | .running .., .broken => true
  | _, _ => false

/-- What made a handler due was of the device, in this second. -/
def Prompt (h : Hub) (s : Socket) : Prop := s.due = true → h.now ≤ h.heard_at s.dongle

theorem Prompt.later {h h' : Hub} {s : Socket} (prompt : s.Prompt h) (later : h.Later h')
    (now : h'.now = h.now) : s.Prompt h' := by
  intro due
  rw [now]
  exact Int.le_trans (prompt due) (later s.dongle)

end Socket

/-- No second passes while a handler is due, and a socket is given up only in a second in which
its device was heard. -/
def Prompted (p : Pool Hub Socket) : Pool.Event Act Socket.Turn → Prop
  | .act (.tick secs) => secs = 0 ∨ ∀ s ∈ p.tasks, s.due = false
  | .act _ => True
  | .turn i o => ∀ s, p.tasks[i]? = some s → s.gives_up o p.shared = true →
      p.shared.last_heard s.dongle = some p.shared.now

theorem honest_hang_up {h : Hub} {s : Socket} {touching : Option Int} (honest : Honest h)
    (own : ∀ time ∈ touching, time ≤ h.heard_at s.dongle) :
    Honest (s.hang_up touching h).1 ∧ (s.hang_up touching h).2.Honest (s.hang_up touching h).1 ∧
      h.Later (s.hang_up touching h).1 := by
  refine ⟨⟨honest.rows, fun e member => ?_, honest.past⟩, trivial, .of_same rfl⟩
  rcases List.mem_append.1 member with new | old
  · obtain ⟨time, is, rfl⟩ := Option.map_eq_some_iff.1 (Option.mem_toList.1 new)
    exact own time is
  · exact honest.strays e old

/-- One step of a handler. -/
theorem honest_turn {s s' : Socket} {o : Socket.Turn} {h h' : Hub} (honest : Honest h) (own : s.Honest h)
    (prompt : s.Prompt h) (turned : s.turn o h = some (h', s')) :
    Honest h' ∧ s'.Honest h' ∧ h.Later h' := by
  obtain ⟨dongle, phase, frame_at⟩ := s
  cases phase with
  | accepted =>
      cases o <;> cases turned
      exact ⟨⟨honest.rows, honest.strays, honest.past⟩, trivial, .of_same rfl⟩
  | registered =>
      cases o <;> cases turned
      exact ⟨honest, prompt rfl, .of_same rfl⟩
  | greeting time =>
      cases o <;> cases turned
      · exact ⟨honest.mark_online 1 own, trivial, .of_same rfl⟩
      · exact ⟨honest, trivial, .of_same rfl⟩
  | greeted =>
      cases o <;> cases turned
      exact ⟨honest, trivial, .of_same rfl⟩
  | running seen touching =>
      have writes : ∀ time ∈ touching, time ≤ h.heard_at dongle := by
        cases touching with
        | none => nofun
        | some time =>
            intro t is
            cases is
            exact own
      cases o with
      | ping =>
          simp only [Socket.turn] at turned
          split at turned
          · cases turned
            exact honest_hang_up honest writes
          · cases turned
            exact ⟨honest, own, .of_same rfl⟩
      | ping_failed =>
          have hung_up : Socket.hang_up ⟨dongle, .running seen touching, frame_at⟩ touching h = (h', s') := by
            cases touching <;> exact Option.some.inj turned
          have kept := honest_hang_up (s := ⟨dongle, .running seen touching, frame_at⟩) honest writes
          rw [hung_up] at kept
          exact kept
      | frame =>
          cases touching <;> cases turned
          have just_now : h.now ≤ (h.hear dongle).heard_at dongle := by
            have heard : (h.hear dongle).heard_at dongle = h.now := by rw [heard_at_hear, if_pos rfl]
            exact Int.le_of_eq heard.symm
          exact ⟨honest.hear dongle, just_now, later_hear honest dongle⟩
      | close =>
          cases touching <;> cases turned
          exact ⟨honest.hear dongle, trivial, later_hear honest dongle⟩
      | broken =>
          cases touching <;> cases turned
          exact ⟨honest, trivial, .of_same rfl⟩
      | go =>
          cases touching <;> cases turned
          exact ⟨honest.touch_ping own, trivial, .of_same rfl⟩
      | failed =>
          cases touching <;> cases turned
          exact ⟨honest, trivial, .of_same rfl⟩
  | closing =>
      cases o <;> cases turned
      exact ⟨⟨honest.rows, honest.strays, honest.past⟩, trivial, .of_same rfl⟩
  | leaving =>
      cases o <;> cases turned
      exact ⟨honest, prompt rfl, .of_same rfl⟩
  | parting time =>
      cases o <;> cases turned
      · exact ⟨honest.mark_online 0 own, trivial, .of_same rfl⟩
      · exact ⟨honest, trivial, .of_same rfl⟩
  | closed => cases o <;> cases turned

theorem heard_at_of_last {h : Hub} {dongle : Text} {time : Int} (last : h.last_heard dongle = some time) :
    h.heard_at dongle = time := by
  rw [Hub.heard_at, last, Option.getD_some]

/-- A handler becomes due in a second in which its device is heard, and takes no time. -/
theorem prompt_turn {s s' : Socket} {o : Socket.Turn} {h h' : Hub} (prompt : s.Prompt h)
    (heard : s.gives_up o h = true → h.last_heard s.dongle = some h.now)
    (turned : s.turn o h = some (h', s')) : h'.now = h.now ∧ s'.Prompt h' := by
  obtain ⟨dongle, phase, frame_at⟩ := s
  cases phase with
  | accepted =>
      cases o <;> cases turned
      exact ⟨rfl, fun _ => prompt rfl⟩
  | registered =>
      cases o <;> cases turned
      exact ⟨rfl, nofun⟩
  | greeting time =>
      cases o <;> cases turned
      all_goals exact ⟨rfl, nofun⟩
  | greeted =>
      cases o <;> cases turned
      exact ⟨rfl, nofun⟩
  | running seen touching =>
      have given_up : Socket.gives_up ⟨dongle, .running seen touching, frame_at⟩ o h = true →
          h.now ≤ h.heard_at dongle := fun gives_up => Int.le_of_eq (heard_at_of_last (heard gives_up)).symm
      cases o with
      | ping =>
          simp only [Socket.turn] at turned
          split at turned
          · rename_i quiet
            cases turned
            exact ⟨rfl, fun _ => given_up (decide_eq_true quiet)⟩
          · cases turned
            exact ⟨rfl, nofun⟩
      | ping_failed =>
          cases touching <;> cases turned
          all_goals exact ⟨rfl, fun _ => given_up rfl⟩
      | frame =>
          cases touching <;> cases turned
          exact ⟨rfl, nofun⟩
      | close =>
          cases touching <;> cases turned
          refine ⟨rfl, fun _ => ?_⟩
          show h.now ≤ (h.hear dongle).heard_at dongle
          rw [heard_at_hear, if_pos rfl]
      | broken =>
          cases touching <;> cases turned
          exact ⟨rfl, fun _ => given_up rfl⟩
      | go =>
          cases touching <;> cases turned
          exact ⟨rfl, nofun⟩
      | failed =>
          cases touching <;> cases turned
          exact ⟨rfl, nofun⟩
  | closing =>
      cases o <;> cases turned
      exact ⟨rfl, fun _ => prompt rfl⟩
  | leaving =>
      cases o <;> cases turned
      exact ⟨rfl, nofun⟩
  | parting time =>
      cases o <;> cases turned
      all_goals exact ⟨rfl, nofun⟩
  | closed => cases o <;> cases turned

theorem honest_set_last_addr {h : Hub} (honest : Honest h) (dongle : Text) (addr : Option Text) :
    Honest (set_last_addr h dongle addr) ∧ (set_last_addr h dongle addr).heard = h.heard := by
  unfold set_last_addr
  cases addr with
  | none => exact ⟨honest, rfl⟩
  | some last_addr =>
      refine ⟨honest.update (fun d => decide (d.dongle_id = dongle))
        (fun d => { d with last_addr }) (fun _ => rfl) fun d member _ => ?_, rfl⟩
      exact honest.rows d member

/-- Whatever else happens. -/
theorem honest_act {a : Act} {h h' : Hub} {started : List Socket} (honest : Honest h)
    (acted : act a h = some (h', started)) :
    Honest h' ∧ (∀ s ∈ started, s.Honest h') ∧ h.Later h' := by
  cases a with
  | tick secs =>
      cases acted
      refine ⟨⟨honest.rows, honest.strays, fun d => ?_⟩, nofun, .of_same rfl⟩
      have past := honest.past d
      show h.heard_at d ≤ h.now + secs
      omega
  | upgrade identity device dongle xff =>
      simp only [act] at acted
      split at acted
      · cases acted
        exact ⟨honest, nofun, .of_same rfl⟩
      · cases acted
        obtain ⟨kept, same⟩ := honest_set_last_addr honest dongle (client_addr xff)
        refine ⟨kept.hear dongle, fun s member => ?_, fun d => ?_⟩
        · rw [List.mem_singleton.1 member]
          trivial
        · exact Int.le_trans (Hub.Later.of_same same d) (later_hear kept dongle d)
  | reap =>
      cases acted
      refine ⟨honest.update (fun d => d.online = 1 && decide (d.last_athena_ping < h.now - OFFLINE_AFTER_SECS))
        (fun d => { d with online := 0 }) (fun _ => rfl) fun d member _ => ?_, nofun, .of_same rfl⟩
      exact honest.rows d member
  | stray i =>
      simp only [act] at acted
      split at acted
      · cases acted
      · rename_i dongle time found
        cases acted
        have heard := honest.strays _ (List.mem_of_getElem? found)
        have fewer : Honest { h with strays := h.strays.eraseIdx i } :=
          ⟨honest.rows, fun e member => honest.strays e (List.mem_of_mem_eraseIdx member), honest.past⟩
        exact ⟨fewer.touch_ping heard, nofun, .of_same rfl⟩

/-- Whatever else happens takes no time, and an upgrade is heard as it is accepted. -/
theorem prompt_act {a : Act} {h h' : Hub} {started : List Socket} (acted : act a h = some (h', started)) :
    (h'.now = h.now ∨ ∃ secs, a = .tick secs ∧ h'.now = h.now + secs) ∧ ∀ s ∈ started, s.Prompt h' := by
  cases a with
  | tick secs =>
      cases acted
      exact ⟨.inr ⟨secs, rfl, rfl⟩, nofun⟩
  | upgrade identity device dongle xff =>
      simp only [act] at acted
      split at acted
      · cases acted
        exact ⟨.inl rfl, nofun⟩
      · cases acted
        have now : (set_last_addr h dongle (client_addr xff)).now = h.now := by
          unfold set_last_addr
          split <;> rfl
        refine ⟨.inl now, fun s member _ => ?_⟩
        rw [List.mem_singleton.1 member, heard_at_hear, if_pos rfl]
        exact Int.le_refl _
  | reap =>
      cases acted
      exact ⟨.inl rfl, nofun⟩
  | stray i =>
      simp only [act] at acted
      split at acted
      · cases acted
      · cases acted
        exact ⟨.inl rfl, nofun⟩

/-- **Liveness comes from the device.**  In a run in which sockets are given up only in a second
in which the device was heard, and no second passes while a handler is due, no device's
`last_athena_ping` is later than when the device was last heard. -/
theorem ping_is_heard (h : Hub) (honest : Honest h) (p : Pool Hub Socket)
    (reached : sockets.system.Reach Prompted ⟨h, []⟩ p) :
    ∀ d ∈ p.shared.devices.rows, d.last_athena_ping ≤ p.shared.heard_at d.dongle_id := by
  have kept := Pool.Rules.Reach.owned (I := Honest) (J := fun h s => s.Honest h ∧ s.Prompt h) reached
    ⟨honest, nofun⟩ ?_ ?_
  · exact kept.1.rows
  · intro p a h' started honest _ prompted acted
    obtain ⟨kept, fresh, later⟩ := honest_act honest acted
    obtain ⟨time, prompt⟩ := prompt_act acted
    refine ⟨kept, fun s member => ⟨fresh s member, prompt s member⟩, fun s member own =>
      ⟨own.1.later later, ?_⟩⟩
    rcases time with now | ⟨secs, rfl, now⟩
    · exact own.2.later later now
    · rcases prompted with none | idle
      · exact own.2.later later (by rw [now, none]; exact Int.add_zero _)
      · intro due
        rw [idle s member] at due
        cases due
  · intro p i o s h' s' honest each prompted found turned
    obtain ⟨own, prompt⟩ := each s (List.mem_of_getElem? found)
    obtain ⟨kept, own', later⟩ := honest_turn honest own prompt turned
    obtain ⟨now, prompt'⟩ := prompt_turn prompt (prompted s found) turned
    exact ⟨kept, ⟨own', prompt'⟩, fun s _ own => ⟨own.1.later later, own.2.later later now⟩⟩

/-! ## Poles -/

private def seen_device : Device := { dongle_id := "d" }

private def quiet_hub : Hub := { devices := .single seen_device, now := 100 }

private theorem quiet_hub_honest : Honest quiet_hub where
  rows := by decide
  strays := nofun
  past := by
    intro dongle
    show (0 : Int) ≤ 100
    decide

private def comes_online : List (Pool.Event Act Socket.Turn) :=
  .act (.upgrade "d" (some seen_device) "d" none) :: List.replicate 4 (.turn 0 .go)

/-- Nothing is heard after the upgrade; 31 s later the server hangs up, and writes that it
has just heard of the device. -/
theorem hang_up_counts_as_heard : ¬ ∀ (h : Hub), Honest h → ∀ p : Pool Hub Socket,
    sockets.system.Reach System.free ⟨h, []⟩ p →
    ∀ d ∈ p.shared.devices.rows, d.last_athena_ping ≤ p.shared.heard_at d.dongle_id := by
  intro claim
  have run : (sockets.system.replay ⟨quiet_hub, []⟩
      (comes_online ++ [.act (.tick 31), .turn 0 .ping] ++ List.replicate 3 (.turn 0 .go))).any (fun p =>
      p.shared.devices.rows.any fun d => decide (p.shared.heard_at d.dongle_id < d.last_athena_ping)) = true := by
    decide
  obtain ⟨p, replayed, late⟩ := (Option.any_eq_true _ _).1 run
  obtain ⟨d, member, is⟩ := List.any_eq_true.1 late
  have heard := claim _ quiet_hub_honest p (System.reach_of_replay replayed) d member
  have later := of_decide_eq_true is
  omega

private instance (p : Pool Hub Socket) (e : Pool.Event Act Socket.Turn) : Decidable (Prompted p e) :=
  match e with
  | .act (.tick secs) => inferInstanceAs (Decidable (secs = 0 ∨ ∀ s ∈ p.tasks, s.due = false))
  | .act (.upgrade ..) | .act .reap | .act (.stray _) => isTrue trivial
  | .turn i o => decidable_of_iff (∀ s ∈ p.tasks[i]?, s.gives_up o p.shared = true →
      p.shared.last_heard s.dongle = some p.shared.now) Iff.rfl

/-- A frame arrives, and the device closes the socket itself. -/
theorem ping_is_heard_until_closed : ∃ p : Pool Hub Socket,
    sockets.system.Reach Prompted ⟨quiet_hub, []⟩ p ∧ p.shared.now = 120 ∧
      ∀ d ∈ p.shared.devices.rows, d.last_athena_ping ≤ p.shared.heard_at d.dongle_id := by
  have run : ((sockets.system.guard Prompted).replay ⟨quiet_hub, []⟩
      (comes_online ++ [.act (.tick 10), .turn 0 .frame, .turn 0 .go, .act (.tick 10), .turn 0 .close] ++
        List.replicate 3 (.turn 0 .go))).any (fun p => decide (p.shared.now = 120)) = true := by
    decide
  obtain ⟨p, replayed, now⟩ := (Option.any_eq_true _ _).1 run
  have reached := System.reach_of_replay_guard replayed
  exact ⟨p, reached, of_decide_eq_true now, ping_is_heard quiet_hub quiet_hub_honest p reached⟩

end HomeConnect.Athena
