/-
# Sync.Wake -- the worker that drains the queue wakes the movie builder

A worker that is done with an item looks at the queue, in a turn of its own, and asks for a
sweep if nothing is left; the movie builder, between sweeps, waits for its interval or for
such a request.  Other workers and scans move the queue in between, so the worker that
finishes last need not be the one that finds the queue empty.  A request made while nobody
waits is kept (one, however many are made), and the next wait returns at once.

`drained_queue_is_swept`: in every run, when the queue has drained, an item was finished
since the last sweep began, and no worker is on its way to ask, the builder starts a sweep
without waiting for its timer.

`Kick.fresh` is history: an item was finished since the last sweep began.
-/
import HomeConnect.Sync.Queue

namespace HomeConnect.Sync

open HomeConnect.Theory HomeConnect.Storage

set_option autoImplicit false

/-- Where the builder's loop is. -/
inductive Stage
  /-- About to look at its toggle. -/
  | top
  | sweeping
  /-- `wait_or_request`. -/
  | waiting
  /-- Encoding is off; it looks again in a minute. -/
  | resting
deriving DecidableEq, Repr

structure Kick where
  station : Station := {}
  /-- Workers that are done with an item and have yet to read the stats. -/
  checking : List Nat := []
  /-- Workers that have read that no file is left. -/
  drained : List Nat := []
  /-- `Notify`'s permit: a request nobody has waited for yet. -/
  wake : Bool := false
  builder : Stage := .top
  fresh : Bool := false
deriving DecidableEq, Repr

inductive KickEvent
  | enqueue (items : List QueueItem)
  | next (worker : Nat)
  | done (worker : Nat)
  /-- `let (_, files) = stats()`. -/
  | stats (worker : Nat)
  | request_sweep (worker : Nat)
  /-- `reencode_all` asks for a sweep. -/
  | reencode
  /-- The builder reads its toggle; if it is on, a sweep begins. -/
  | look (enabled : Bool)
  | swept
  /-- The wait returns for a request. -/
  | notified
  /-- The wait, or the minute's rest, is over. -/
  | timeout
deriving DecidableEq, Repr

def Kick.step (s : Kick) : KickEvent → Option Kick
  | .enqueue items => (s.station.step (.enqueue items)).map fun station => { s with station }
  | .next worker =>
      if worker ∈ s.checking ∨ worker ∈ s.drained then none
      else (s.station.step (.next worker)).map fun station => { s with station }
  | .done worker =>
      (s.station.step (.done worker)).map fun station =>
        { s with station, checking := worker :: s.checking, fresh := true }
  | .stats worker =>
      if worker ∈ s.checking then
        some { s with
          checking := s.checking.erase worker
          drained := if s.station.queue.stats.2 = 0 then worker :: s.drained else s.drained }
      else none
  | .request_sweep worker =>
      if worker ∈ s.drained then some { s with drained := s.drained.erase worker, wake := true }
      else none
  | .reencode => some { s with wake := true }
  | .look enabled =>
      if s.builder = .top then
        if enabled then some { s with builder := .sweeping, fresh := false }
        else some { s with builder := .resting }
      else none
  | .swept => if s.builder = .sweeping then some { s with builder := .waiting } else none
  | .notified =>
      if s.builder = .waiting ∧ s.wake = true then some { s with builder := .top, wake := false }
      else none
  | .timeout =>
      if s.builder = .waiting ∨ s.builder = .resting then some { s with builder := .top } else none

def kick : System Kick KickEvent := ⟨Kick.step⟩

/-- No file is queued or in flight, and no worker is on its way to ask for a sweep. -/
structure Quiet (s : Kick) : Prop where
  files : s.station.queue.stats.2 = 0
  checking : s.checking = []
  drained : s.drained = []

/-- What is fresh has not been forgotten: files are left, or a worker will look, or ask, or
has asked, or the builder is about to look. -/
structure Remembered (s : Kick) : Prop where
  chain : s.fresh = true → 0 < s.station.queue.stats.2 ∨ s.checking ≠ [] ∨ s.drained ≠ [] ∨
    s.wake = true ∨ s.builder = .top ∨ s.builder = .resting

variable {s s' : Kick}

/-! ## One step -/

/-- Scans only add files, and an item taken off the queue is in flight. -/
theorem files_of_step {st st' : Station} {e : QueueEvent} (stepped : station.step st e = some st')
    (busy : ∀ worker, e ≠ .done worker) (files : 0 < st.queue.stats.2) : 0 < st'.queue.stats.2 := by
  simp only [SyncQueue.stats] at files ⊢
  obtain ⟨items, rfl, rfl⟩ | ⟨worker, it, rest, rfl, -, -, q, next, rfl⟩ | ⟨worker, it, rfl, -, -⟩ :=
    station_cases stepped
  · simp only [SyncQueue.pending_foldl_push, active_pushes, List.length_append]
    omega
  · unfold SyncQueue.next at next
    split at next
    · cases next
    · cases next
      simp only [List.length_cons]
      omega
  · exact (busy worker rfl).elim

theorem Remembered.step {e : KickEvent} (before : Remembered s) (stepped : kick.step s e = some s') :
    Remembered s' := by
  obtain ⟨chain⟩ := before
  refine ⟨fun fresh => ?_⟩
  cases e with
  | enqueue items =>
      simp only [kick, Kick.step] at stepped
      obtain ⟨st, moved, rfl⟩ := Option.map_eq_some_iff.1 stepped
      exact (chain fresh).imp_left (files_of_step (e := .enqueue items) moved (by simp))
  | next worker =>
      simp only [kick, Kick.step, Option.ite_none_left_eq_some] at stepped
      obtain ⟨st, moved, rfl⟩ := Option.map_eq_some_iff.1 stepped.2
      exact (chain fresh).imp_left (files_of_step (e := .next worker) moved (by simp))
  | done worker =>
      simp only [kick, Kick.step] at stepped
      obtain ⟨st, moved, rfl⟩ := Option.map_eq_some_iff.1 stepped
      exact .inr (.inl (List.cons_ne_nil _ _))
  | stats worker =>
      simp only [kick, Kick.step, Option.ite_none_right_eq_some] at stepped
      obtain ⟨-, rfl⟩ := stepped.imp_right Option.some.inj
      by_cases none_left : s.station.queue.stats.2 = 0
      · refine .inr (.inr (.inl ?_))
        rw [if_pos none_left]
        exact List.cons_ne_nil _ _
      · exact .inl (Nat.pos_of_ne_zero none_left)
  | request_sweep worker =>
      simp only [kick, Kick.step, Option.ite_none_right_eq_some] at stepped
      obtain ⟨-, rfl⟩ := stepped.imp_right Option.some.inj
      exact .inr (.inr (.inr (.inl rfl)))
  | reencode =>
      cases stepped
      exact .inr (.inr (.inr (.inl rfl)))
  | look enabled =>
      simp only [kick, Kick.step, Option.ite_none_right_eq_some] at stepped
      obtain ⟨-, moved⟩ := stepped
      split at moved
      · cases moved
        cases fresh
      · cases moved
        exact .inr (.inr (.inr (.inr (.inr rfl))))
  | swept =>
      simp only [kick, Kick.step, Option.ite_none_right_eq_some] at stepped
      obtain ⟨sweeping, moved⟩ := stepped
      cases moved
      rcases chain fresh with files | checking | drained | wake | top | resting
      · exact .inl files
      · exact .inr (.inl checking)
      · exact .inr (.inr (.inl drained))
      · exact .inr (.inr (.inr (.inl wake)))
      · exact nomatch sweeping.symm.trans top
      · exact nomatch sweeping.symm.trans resting
  | notified =>
      simp only [kick, Kick.step, Option.ite_none_right_eq_some] at stepped
      obtain ⟨-, rfl⟩ := stepped.imp_right Option.some.inj
      exact .inr (.inr (.inr (.inr (.inl rfl))))
  | timeout =>
      simp only [kick, Kick.step, Option.ite_none_right_eq_some] at stepped
      obtain ⟨-, rfl⟩ := stepped.imp_right Option.some.inj
      exact .inr (.inr (.inr (.inr (.inl rfl))))

/-! ## Every run -/

/-- The builder's own steps from here to the beginning of a sweep, its timer apart. -/
def Stage.to_sweep : Stage → List KickEvent
  | .top => [.look true]
  | .sweeping => [.swept, .notified, .look true]
  | .waiting => [.notified, .look true]
  | .resting => [.timeout, .look true]

/-- **A drained queue is swept.**  When the queue has drained and nobody is on the way to ask,
a builder that is on goes to a sweep that sees everything finished: it has no timer to wait
for, but for the minute it rests while it is off. -/
theorem drained_queue_is_swept {s : Kick} (reached : kick.Reach System.free {} s) (quiet : Quiet s)
    (fresh : s.fresh = true) : ∃ s', kick.replay s s.builder.to_sweep = some s' ∧
      s'.builder = .sweeping ∧ s'.fresh = false ∧ s'.station = s.station := by
  have remembered : Remembered s := reached.invariant ⟨fun fresh => nomatch fresh⟩
    fun _ _ _ before _ stepped => before.step stepped
  have asked : s.builder = .waiting ∨ s.builder = .sweeping → s.wake = true := by
    intro between
    rcases remembered.chain fresh with files | checking | drained | wake | top | resting
    · rw [quiet.files] at files
      omega
    · exact (checking quiet.checking).elim
    · exact (drained quiet.drained).elim
    · exact wake
    · rw [top] at between
      rcases between with same | same <;> cases same
    · rw [resting] at between
      rcases between with same | same <;> cases same
  cases stage : s.builder with
  | top =>
      refine ⟨{ s with builder := .sweeping, fresh := false }, ?_, rfl, rfl, rfl⟩
      simp [kick, System.replay, Stage.to_sweep, Kick.step, stage]
  | sweeping =>
      refine ⟨{ s with builder := .sweeping, fresh := false, wake := false }, ?_, rfl, rfl, rfl⟩
      simp [kick, System.replay, Stage.to_sweep, Kick.step, stage, asked (.inr stage)]
  | waiting =>
      refine ⟨{ s with builder := .sweeping, fresh := false, wake := false }, ?_, rfl, rfl, rfl⟩
      simp [kick, System.replay, Stage.to_sweep, Kick.step, stage, asked (.inl stage)]
  | resting =>
      refine ⟨{ s with builder := .sweeping, fresh := false }, ?_, rfl, rfl, rfl⟩
      simp [kick, System.replay, Stage.to_sweep, Kick.step, stage]

/-! ## Pole -/

private def clip (n : Int) : QueueItem :=
  { dongle := "d", addr := "10.0.0.2", ts := "t", seg := n, file := "qlog.bz2" }

/-- Two workers finish while the builder sweeps; the one that finishes last asks, and the wait
that follows is over at once. -/
theorem drained_queue_is_swept_two_workers : ∃ s s', kick.Reach System.free {} s ∧
    s.builder = .sweeping ∧ kick.replay s [.swept, .notified, .look true] = some s' ∧
    s'.builder = .sweeping := by
  have run : ∃ s, kick.replay {} [.enqueue [clip 0, clip 1], .next 0, .next 1, .look true, .done 0,
      .stats 0, .done 1, .stats 1, .request_sweep 1] = some s ∧ s.builder = .sweeping ∧
      s.fresh = true ∧ s.station.queue.stats.2 = 0 ∧ s.checking = [] ∧ s.drained = [] := by
    refine ⟨_, rfl, ?_, ?_, ?_, ?_, ?_⟩ <;> decide
  obtain ⟨s, replayed, stage, fresh, files, checking, drained⟩ := run
  have reached := System.reach_of_replay replayed
  obtain ⟨s', sweeps, begun, -, -⟩ :=
    drained_queue_is_swept reached ⟨files, checking, drained⟩ fresh
  rw [stage] at sweeps
  exact ⟨s, s', reached, stage, sweeps, begun⟩

end HomeConnect.Sync
