/-
# Athena.Presence -- who counts as connected when sockets overlap

The manager keeps dongles, not sockets.  When a device reconnects before the handler of
its previous socket is done, the old handler's teardown removes the entry of the new one,
and marks the device offline (`reconnected_and_gone`).

Presence follows the sockets in every run in which a handler is registered only while no
older one of its device is between its `disconnected` and its end, and removed only while
no other is live (`presence_follows_sockets`).
-/
import HomeConnect.Athena.Sockets
import HomeConnect.Drives.Poles

namespace HomeConnect.Athena

open HomeConnect.Theory HomeConnect.Accounts

set_option autoImplicit false

/-! ## What a step does to the manager -/

/-- A handler registers its dongle, removes it, or leaves the manager alone and becomes
neither live nor tearing if it was not. -/
theorem turn_kinds {s s' : Socket} {o : Socket.Turn} {h h' : Hub} (turned : s.turn o h = some (h', s')) :
    s'.dongle = s.dongle ∧
    ((s.phase = .accepted ∧ s'.tearing = false ∧ h'.athena = h.athena.connected s.dongle) ∨
      (s.phase = .closing ∧ s'.live = false ∧ h'.athena = h.athena.disconnected s.dongle) ∨
      (h'.athena = h.athena ∧ (s'.live = true → s.live = true) ∧ (s'.tearing = true → s.tearing = true))) := by
  obtain ⟨dongle, phase, frame_at⟩ := s
  cases phase with
  | accepted =>
      cases o <;> cases turned
      exact ⟨rfl, .inl ⟨rfl, rfl, rfl⟩⟩
  | registered =>
      cases o <;> cases turned
      exact ⟨rfl, .inr (.inr ⟨rfl, fun _ => rfl, nofun⟩)⟩
  | greeting time =>
      cases o <;> cases turned
      all_goals exact ⟨rfl, .inr (.inr ⟨rfl, fun _ => rfl, nofun⟩)⟩
  | greeted =>
      cases o <;> cases turned
      exact ⟨rfl, .inr (.inr ⟨rfl, fun _ => rfl, nofun⟩)⟩
  | running seen touching =>
      cases o with
      | ping =>
          simp only [Socket.turn] at turned
          split at turned
          · cases turned
            exact ⟨rfl, .inr (.inr ⟨rfl, nofun, nofun⟩)⟩
          · cases turned
            exact ⟨rfl, .inr (.inr ⟨rfl, fun _ => rfl, nofun⟩)⟩
      | ping_failed =>
          cases touching <;> cases turned
          all_goals exact ⟨rfl, .inr (.inr ⟨rfl, nofun, nofun⟩)⟩
      | _ =>
          cases touching <;> cases turned
          all_goals exact ⟨rfl, .inr (.inr ⟨rfl, fun _ => rfl, nofun⟩)⟩
  | closing =>
      cases o <;> cases turned
      exact ⟨rfl, .inr (.inl ⟨rfl, rfl, rfl⟩)⟩
  | leaving =>
      cases o <;> cases turned
      exact ⟨rfl, .inr (.inr ⟨rfl, nofun, fun _ => rfl⟩)⟩
  | parting time =>
      cases o <;> cases turned
      all_goals exact ⟨rfl, .inr (.inr ⟨rfl, nofun, nofun⟩)⟩
  | closed => cases o <;> cases turned

/-- Nothing but a handler touches the manager, and a handler is started before it registers. -/
theorem act_kinds {a : Act} {h h' : Hub} {started : List Socket} (acted : act a h = some (h', started)) :
    h'.athena = h.athena ∧ ∀ s ∈ started, s.live = false ∧ s.tearing = false := by
  cases a with
  | tick secs =>
      cases acted
      exact ⟨rfl, nofun⟩
  | upgrade identity device dongle xff =>
      simp only [act] at acted
      split at acted
      · cases acted
        exact ⟨rfl, nofun⟩
      · cases acted
        refine ⟨?_, fun s member => ?_⟩
        · show (set_last_addr h dongle (client_addr xff)).athena = h.athena
          unfold set_last_addr
          split <;> rfl
        · rw [List.mem_singleton.1 member]
          exact ⟨rfl, rfl⟩
  | reap =>
      cases acted
      exact ⟨rfl, nofun⟩
  | stray i =>
      simp only [act] at acted
      split at acted
      · cases acted
      · cases acted
        exact ⟨rfl, nofun⟩

/-! ## Runs without overlap -/

/-- A handler registers only while no older one of its device is in its teardown, and is
removed only while no other is live. -/
def Apart (p : Pool Hub Socket) : Pool.Event Act Socket.Turn → Prop
  | .act _ => True
  | .turn i _ => ∀ s, p.tasks[i]? = some s → ∀ j t, j ≠ i → p.tasks[j]? = some t → t.dongle = s.dongle →
      (s.phase = .accepted → j < i → t.tearing = false) ∧ (s.phase = .closing → t.live = false)

/-- Live handlers are registered, and none is live while an older one of its device is in
its teardown. -/
structure Present (p : Pool Hub Socket) : Prop where
  registered : ∀ s ∈ p.tasks, s.live = true → s.dongle ∈ p.shared.athena
  alone : ∀ (i j : Nat) (s t : Socket), i < j → p.tasks[i]? = some s → p.tasks[j]? = some t →
    t.dongle = s.dongle → s.tearing = true → t.live = false

/-- A handler other than the one that moved is what it was. -/
theorem other_after_set {tasks : List Socket} {i j : Nat} {s' t : Socket} (ne : j ≠ i)
    (at_j : (tasks.set i s')[j]? = some t) : tasks[j]? = some t := by
  rwa [List.getElem?_set_ne (Ne.symm ne)] at at_j

theorem own_after_set {tasks : List Socket} {i : Nat} {s s' t : Socket} (found : tasks[i]? = some s)
    (at_i : (tasks.set i s')[i]? = some t) : t = s' := by
  rw [List.getElem?_set_self (List.getElem?_eq_some_iff.1 found).1] at at_i
  exact (Option.some.inj at_i).symm

theorem Present.turn {p : Pool Hub Socket} {i : Nat} {o : Socket.Turn} {s s' : Socket} {h' : Hub}
    (present : Present p) (apart : Apart p (.turn i o)) (found : p.tasks[i]? = some s)
    (turned : s.turn o p.shared = some (h', s')) : Present ⟨h', p.tasks.set i s'⟩ := by
  obtain ⟨same, kind⟩ := turn_kinds turned
  have apart := apart s found
  constructor
  · intro t member live
    show t.dongle ∈ h'.athena
    rcases Pool.mem_set_cases member with rfl | ⟨j, ne, at_j⟩
    · rcases kind with ⟨_, _, registered⟩ | ⟨_, gone, _⟩ | ⟨kept, was, _⟩
      · rw [registered, ConnectionManager.mem_connected]
        exact .inl same
      · rw [gone] at live
        cases live
      · rw [kept, same]
        exact present.registered s (List.mem_of_getElem? found) (was live)
    · have there := present.registered t (List.mem_of_getElem? at_j) live
      rcases kind with ⟨_, _, registered⟩ | ⟨closing, _, removed⟩ | ⟨kept, _, _⟩
      · rw [registered, ConnectionManager.mem_connected]
        exact .inr there
      · rw [removed, ConnectionManager.mem_disconnected]
        refine ⟨there, fun own => ?_⟩
        -- another handler of the device is live
        have not_live := (apart j t ne at_j own).2 closing
        rw [live] at not_live
        cases not_live
      · rw [kept]
        exact there
  · intro k j u t newer at_k at_j one_device tearing
    by_cases mine : k = i
    · subst mine
      have ne : j ≠ k := by omega
      have is := own_after_set found at_k
      subst is
      have there := other_after_set ne at_j
      have one_device : t.dongle = s.dongle := by rw [one_device, same]
      rcases kind with ⟨_, not_tearing, _⟩ | ⟨closing, _, _⟩ | ⟨_, _, was⟩
      · rw [not_tearing] at tearing
        cases tearing
      · exact (apart j t ne there one_device).2 closing
      · exact present.alone k j s t newer found there one_device (was tearing)
    · have tears := other_after_set mine at_k
      by_cases yours : j = i
      · subst yours
        have is := own_after_set found at_j
        subst is
        have one_device' : u.dongle = s.dongle := by rw [← one_device, same]
        have before : s.live = true → False := by
          intro live
          have not_live := present.alone k j u s newer tears found one_device'.symm tearing
          rw [live] at not_live
          cases not_live
        rcases kind with ⟨accepted, _, _⟩ | ⟨_, gone, _⟩ | ⟨_, was, _⟩
        · have not_tearing := (apart k u mine tears one_device').1 accepted newer
          rw [tearing] at not_tearing
          cases not_tearing
        · exact gone
        · rw [Bool.eq_false_iff]
          exact fun live => before (was live)
      · exact present.alone k j u t newer tears (other_after_set yours at_j) one_device tearing

theorem present_of_reach {h : Hub} {p : Pool Hub Socket}
    (reached : sockets.system.Reach Apart ⟨h, []⟩ p) : Present p := by
  refine reached.invariant ⟨nofun, fun i j s t _ none => ?_⟩ ?_
  · cases none
  intro p e p' present apart stepped
  obtain ⟨a, h', started, rfl, acted, rfl⟩ | ⟨i, o, s, h', s', rfl, found, turned, rfl⟩ :=
    Pool.Rules.step_cases stepped
  · obtain ⟨kept, fresh⟩ := act_kinds acted
    -- a new handler is neither live nor tearing
    have old_or_new : ∀ (k : Nat) (u : Socket), (p.tasks ++ started)[k]? = some u →
        p.tasks[k]? = some u ∨ u.live = false ∧ u.tearing = false := by
      intro k u at_k
      rw [List.getElem?_append] at at_k
      split at at_k
      · exact .inl at_k
      · exact .inr (fresh u (List.mem_of_getElem? at_k))
    constructor
    · intro t member live
      show t.dongle ∈ h'.athena
      rw [kept]
      rcases List.mem_append.1 member with old | new
      · exact present.registered t old live
      · rw [(fresh t new).1] at live
        cases live
    · intro k j u t newer at_k at_j one_device tearing
      rcases old_or_new k u at_k with old_k | ⟨_, not_tearing⟩
      · rcases old_or_new j t at_j with old_j | ⟨not_live, _⟩
        · exact present.alone k j u t newer old_k old_j one_device tearing
        · exact not_live
      · rw [not_tearing] at tearing
        cases tearing
  · exact present.turn apart found turned

/-- **Presence follows the sockets.**  In a run without overlap a device with a live
handler is connected; and when a handler is about to mark the device offline, no newer
socket of the device is open on which a frame was received in the last 30 seconds. -/
theorem presence_follows_sockets (h : Hub) (p : Pool Hub Socket)
    (reached : sockets.system.Reach Apart ⟨h, []⟩ p) :
    (∀ s ∈ p.tasks, s.live = true → p.shared.athena.is_connected s.dongle = true) ∧
      ∀ (i j : Nat) (s t : Socket) (time : Int), p.tasks[i]? = some s → s.phase = .parting time →
        i < j → p.tasks[j]? = some t → t.dongle = s.dongle → t.is_open = true →
        ∀ frame, t.frame_at = some frame → OFFLINE_AFTER_SECS < p.shared.now - frame := by
  have present := present_of_reach reached
  refine ⟨fun s member live => decide_eq_true (present.registered s member live), ?_⟩
  intro i j s t time at_i parting newer at_j one_device is_open frame _
  have tearing : s.tearing = true := by
    unfold Socket.tearing
    rw [parting]
  have not_live := present.alone i j s t newer at_i at_j one_device tearing
  have live : t.live = true := by
    unfold Socket.is_open at is_open
    unfold Socket.live
    split at is_open
    · rename_i running
      rw [running]
    · cases is_open
  rw [live] at not_live
  cases not_live

/-- A handler that is removed while another of its device is live leaves that one
disconnected, so the condition on removals cannot be weakened. -/
theorem removal_disconnects {p p' : Pool Hub Socket} {i j : Nat} {s t : Socket}
    (found : p.tasks[i]? = some s) (closing : s.phase = .closing) (ne : j ≠ i)
    (other : p.tasks[j]? = some t) (one_device : t.dongle = s.dongle) (live : t.live = true)
    (stepped : sockets.system.step p (.turn i .go) = some p') :
    t ∈ p'.tasks ∧ t.live = true ∧ p'.shared.athena.is_connected t.dongle = false := by
  obtain ⟨_, _, _, act, _⟩ | ⟨k, o, u, h', s', is, at_k, turned, rfl⟩ := Pool.Rules.step_cases stepped
  · cases act
  · cases is
    rw [found] at at_k
    cases at_k
    have turned : s.turn .go p.shared = some (h', s') := turned
    unfold Socket.turn at turned
    rw [closing] at turned
    cases turned
    refine ⟨?_, live, ?_⟩
    · apply List.mem_of_getElem? (i := j)
      rw [List.getElem?_set_ne (Ne.symm ne)]
      exact other
    · show decide _ = false
      rw [decide_eq_false_iff_not, ConnectionManager.mem_disconnected]
      exact fun there => there.2 one_device

/-! ## Poles -/

private def comma : Device := { dongle_id := "d" }

private def one_comma : Hub := { devices := .single comma, now := 100 }

private def dials_in : Pool.Event Act Socket.Turn := .act (.upgrade "d" (some comma) "d" none)

private def goes (i n : Nat) : List (Pool.Event Act Socket.Turn) := List.replicate n (.turn i .go)

/-- The device reconnects, and its new socket is open and heard; then the old connection
breaks, and the device is not connected. -/
theorem reconnected_and_gone : ¬ ∀ (h : Hub) (p : Pool Hub Socket),
    sockets.system.Reach System.free ⟨h, []⟩ p →
    (∀ s ∈ p.tasks, s.live = true → p.shared.athena.is_connected s.dongle = true) ∧
      ∀ (i j : Nat) (s t : Socket) (time : Int), p.tasks[i]? = some s → s.phase = .parting time →
        i < j → p.tasks[j]? = some t → t.dongle = s.dongle → t.is_open = true →
        ∀ frame, t.frame_at = some frame → OFFLINE_AFTER_SECS < p.shared.now - frame := by
  intro claim
  have run : (sockets.system.replay ⟨one_comma, []⟩
      (dials_in :: goes 0 4 ++ dials_in :: goes 1 4 ++
        [.turn 1 .frame, .turn 0 .broken, .turn 0 .go, .turn 0 .go])).any (fun p =>
      p.tasks.any (fun s => s.live && !p.shared.athena.is_connected s.dongle)) = true := by
    decide
  obtain ⟨p, replayed, gone⟩ := (Option.any_eq_true _ _).1 run
  obtain ⟨s, member, is⟩ := List.any_eq_true.1 gone
  rw [Bool.and_eq_true, Bool.not_eq_true'] at is
  have there := (claim _ p (System.reach_of_replay replayed)).1 s member is.1
  rw [is.2] at there
  cases there

private theorem apart_turn_iff (p : Pool Hub Socket) (i : Nat) (o : Socket.Turn) :
    (∀ s ∈ p.tasks[i]?, ∀ j : Fin p.tasks.length, (j : Nat) ≠ i → (p.tasks.get j).dongle = s.dongle →
      (s.phase = .accepted → (j : Nat) < i → (p.tasks.get j).tearing = false) ∧
        (s.phase = .closing → (p.tasks.get j).live = false)) ↔ Apart p (.turn i o) := by
  constructor
  · intro each s found j t ne at_j one_device
    obtain ⟨bound, rfl⟩ := List.getElem?_eq_some_iff.1 at_j
    exact each s found ⟨j, bound⟩ ne one_device
  · intro apart s found j ne one_device
    exact apart s found j _ ne (List.getElem?_eq_getElem j.isLt) one_device

private instance (p : Pool Hub Socket) (e : Pool.Event Act Socket.Turn) : Decidable (Apart p e) :=
  match e with
  | .act _ => isTrue trivial
  | .turn i o => decidable_of_iff _ (apart_turn_iff p i o)

/-- The old handler is done before the new one is registered. -/
theorem presence_follows_reconnect : ∃ p : Pool Hub Socket,
    sockets.system.Reach Apart ⟨one_comma, []⟩ p ∧
      (∃ s ∈ p.tasks, s.live = true) ∧ p.shared.athena.is_connected "d" = true := by
  have run : ((sockets.system.guard Apart).replay ⟨one_comma, []⟩
      (dials_in :: goes 0 4 ++ [.turn 0 .broken] ++ goes 0 3 ++ dials_in :: goes 1 4)).any (fun p =>
      p.tasks.any fun s => s.live && decide (s.dongle = ("d" : Text))) = true := by
    decide
  obtain ⟨p, replayed, open_one⟩ := (Option.any_eq_true _ _).1 run
  obtain ⟨s, member, is⟩ := List.any_eq_true.1 open_one
  rw [Bool.and_eq_true, decide_eq_true_eq] at is
  have reached := System.reach_of_replay_guard replayed
  have there := (presence_follows_sockets one_comma p reached).1 s member is.1
  rw [is.2] at there
  exact ⟨p, reached, ⟨s, member, is.1⟩, there⟩

end HomeConnect.Athena
