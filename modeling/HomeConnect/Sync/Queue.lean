/-
# Sync.Queue -- the work queue between scans and workers

`enqueue` goes through a batch in order and adds each item whose key is not queued, in
flight, or added before it in the batch (`added`, `mem_added`), and returns how many it
added.

A `Station` is the queue with its producers and workers, every operation one turn with the
lock held: a producer enqueues a batch, an idle worker takes the next item, and a busy
worker marks the item it took as done.  `Accounted` ties the three parts of the queue to
each other, to what the workers hold, and to what was ever accepted, taken and finished;
`neither_lost_nor_duplicated` is what follows in every run.
-/
import HomeConnect.Storage.World
import HomeConnect.Theory.Transition

namespace HomeConnect.Storage.SyncQueue

set_option autoImplicit false

/-- The items of a batch that get added. -/
def added (q : SyncQueue) : List QueueItem → List QueueItem
  | [] => []
  | it :: rest => if q.holds it.key then added q rest else it :: added (q.push it) rest

/-- A pushed item's key is held, and no other becomes so. -/
theorem holds_push (q : SyncQueue) (it : QueueItem) (key : Text) :
    (q.push it).holds key = true ↔ q.holds key = true ∨ it.key = key := by
  unfold push
  by_cases held : q.holds it.key = true
  · rw [if_pos held]
    constructor
    · exact Or.inl
    · rintro (h | rfl)
      · exact h
      · exact held
  · rw [if_neg held]
    simp only [holds, Bool.or_eq_true, decide_eq_true_eq, List.mem_cons]
    constructor
    · rintro ((h | h) | h)
      · exact .inr h.symm
      · exact .inl (.inl h)
      · exact .inl (.inr h)
    · rintro ((h | h) | h)
      · exact .inl (.inr h)
      · exact .inr h
      · exact .inl (.inl h.symm)

theorem push_of_held {q : SyncQueue} {it : QueueItem} (held : q.holds it.key = true) :
    q.push it = q := if_pos held

theorem pending_push {q : SyncQueue} {it : QueueItem} (free : ¬ q.holds it.key = true) :
    (q.push it).pending = q.pending ++ [it] := by
  rw [push, if_neg free]

/-- Items are added at the end. -/
theorem pending_foldl_push (q : SyncQueue) (items : List QueueItem) :
    (items.foldl push q).pending = q.pending ++ q.added items := by
  induction items generalizing q with
  | nil => simp [added]
  | cons it rest ih =>
      rw [List.foldl_cons, added]
      by_cases held : q.holds it.key = true
      · rw [if_pos held, push_of_held held, ih]
      · rw [if_neg held, ih, pending_push held, List.append_assoc]
        rfl

/-- An item is added when its key is free and no item before it in the batch has it. -/
theorem mem_added {q : SyncQueue} {items : List QueueItem} {it : QueueItem} :
    it ∈ q.added items ↔ ∃ pre post, items = pre ++ it :: post ∧ q.holds it.key = false ∧
      ∀ x ∈ pre, x.key ≠ it.key := by
  induction items generalizing q with
  | nil => simp [added]
  | cons head rest ih =>
      rw [added]
      by_cases held : q.holds head.key = true
      · rw [if_pos held, ih]
        constructor
        · rintro ⟨pre, post, rfl, free, first⟩
          refine ⟨head :: pre, post, rfl, free, fun x member => ?_⟩
          rcases List.mem_cons.1 member with rfl | later
          · intro same
            rw [same, free] at held
            cases held
          · exact first x later
        · rintro ⟨pre, post, cut, free, first⟩
          cases pre with
          | nil =>
              cases cut
              rw [free] at held
              cases held
          | cons x pre =>
              cases cut
              exact ⟨pre, post, rfl, free, fun y member => first y (List.mem_cons_of_mem _ member)⟩
      · rw [if_neg held, List.mem_cons, ih]
        constructor
        · rintro (rfl | ⟨pre, post, rfl, free, first⟩)
          · exact ⟨[], rest, rfl, Bool.not_eq_true _ ▸ held, fun x member => (List.not_mem_nil member).elim⟩
          · have free' : ¬ (q.push head).holds it.key = true := by
              rw [free]
              exact Bool.false_ne_true
            rw [holds_push] at free'
            refine ⟨head :: pre, post, rfl, ?_, fun x member => ?_⟩
            · exact Bool.eq_false_iff.2 fun h => free' (.inl h)
            · rcases List.mem_cons.1 member with rfl | later
              · exact fun same => free' (.inr same)
              · exact first x later
        · rintro ⟨pre, post, cut, free, first⟩
          cases pre with
          | nil => exact .inl (by cases cut; rfl)
          | cons x pre =>
              cases cut
              refine .inr ⟨pre, post, rfl, ?_, fun y member =>
                first y (List.mem_cons_of_mem _ member)⟩
              refine Bool.eq_false_iff.2 fun h => ?_
              rcases (holds_push q head it.key).1 h with h | h
              · rw [free] at h
                cases h
              · exact first head List.mem_cons_self h

/-- Nothing is added exactly when every key is held. -/
theorem added_eq_nil {q : SyncQueue} {items : List QueueItem} :
    q.added items = [] ↔ ∀ it ∈ items, q.holds it.key = true := by
  induction items generalizing q with
  | nil => simp [added]
  | cons it rest ih =>
      rw [added]
      by_cases held : q.holds it.key = true
      · rw [if_pos held, ih, List.forall_mem_cons]
        exact (and_iff_right held).symm
      · rw [if_neg held]
        exact iff_of_false (List.cons_ne_nil _ _) fun all => held (all it List.mem_cons_self)

/-- A free key is added, if not for this item then for one before. -/
theorem exists_added {q : SyncQueue} {items : List QueueItem} {it : QueueItem} (member : it ∈ items)
    (free : q.holds it.key = false) : ∃ x ∈ q.added items, x.key = it.key := by
  induction items generalizing q with
  | nil => cases member
  | cons head rest ih =>
      rw [added]
      by_cases held : q.holds head.key = true
      · rw [if_pos held]
        rcases List.mem_cons.1 member with rfl | later
        · rw [free] at held
          cases held
        · exact ih later free
      · rw [if_neg held]
        by_cases same : head.key = it.key
        · exact ⟨head, List.mem_cons_self, same⟩
        · have later : it ∈ rest := by
            rcases List.mem_cons.1 member with rfl | later
            · exact (same rfl).elim
            · exact later
          have free' : (q.push head).holds it.key = false := by
            refine Bool.eq_false_iff.2 fun now => ?_
            rcases (holds_push q head it.key).1 now with before | here
            · rw [free] at before
              cases before
            · exact same here
          obtain ⟨x, added', key⟩ := ih later free'
          exact ⟨x, List.mem_cons_of_mem _ added', key⟩

/-- `enqueue` pushes the items in order and counts the ones it adds. -/
theorem enqueue_eq (q : SyncQueue) (items : List QueueItem) :
    q.enqueue items = ((q.added items).length, items.foldl push q) := by
  have counted : ∀ n, items.foldl
      (fun acc it => (if acc.2.holds it.key then acc.1 else acc.1 + 1, acc.2.push it)) (n, q) =
        (n + (q.added items).length, items.foldl push q) := by
    induction items generalizing q with
    | nil => exact fun n => rfl
    | cons it rest ih =>
        intro n
        rw [List.foldl_cons, List.foldl_cons, ih, added]
        by_cases held : q.holds it.key = true
        · simp only [if_pos held, push_of_held held]
        · rw [if_neg held, if_neg held, List.length_cons]
          refine Prod.ext ?_ rfl
          dsimp only
          omega
  have all := counted 0
  rwa [Nat.zero_add] at all

theorem enqueue_snd (q : SyncQueue) (items : List QueueItem) :
    (q.enqueue items).2 = items.foldl push q := by
  rw [enqueue_eq]

/-- The next item is the first one queued. -/
theorem pending_of_next {q q' : SyncQueue} {it : QueueItem} (next : q.next = some (it, q')) :
    q.pending = it :: q'.pending := by
  unfold SyncQueue.next at next
  split at next
  · cases next
  · rename_i first rest pending
    cases next
    exact pending

/-- What is added in two batches. -/
theorem added_append (q : SyncQueue) (xs ys : List QueueItem) :
    q.added (xs ++ ys) = q.added xs ++ (xs.foldl push q).added ys := by
  induction xs generalizing q with
  | nil => rfl
  | cons it rest ih =>
      rw [List.cons_append, added, added, List.foldl_cons]
      by_cases held : q.holds it.key = true
      · rw [if_pos held, if_pos held, ih, push_of_held held]
      · rw [if_neg held, if_neg held, ih, List.cons_append]

/-! ## The three parts of the queue -/

/-- Is an item with this key waiting or being processed? -/
def Busy (q : SyncQueue) (key : Text) : Prop :=
  key ∈ q.pending.map QueueItem.key ∨ key ∈ q.active.map Prod.fst

instance (q : SyncQueue) (key : Text) : Decidable (q.Busy key) :=
  inferInstanceAs (Decidable (_ ∨ _))

/-- The key set says which keys are pending, and no key is there twice. -/
structure Consistent (q : SyncQueue) : Prop where
  distinct : (q.pending.map QueueItem.key).Nodup
  keys : ∀ key, key ∈ q.pending_keys ↔ key ∈ q.pending.map QueueItem.key
  apart : ∀ key ∈ q.pending_keys, key ∉ q.active.map Prod.fst
  in_flight : (q.active.map Prod.fst).Nodup

/-- What `enqueue` looks up is whether the key is busy. -/
theorem Consistent.holds_iff {q : SyncQueue} (c : q.Consistent) (key : Text) :
    q.holds key = true ↔ q.Busy key := by
  rw [holds, Busy, Bool.or_eq_true, decide_eq_true_eq, c.keys, List.any_eq_true, List.mem_map]
  simp only [decide_eq_true_eq, List.mem_map]

theorem Consistent.push {q : SyncQueue} (c : q.Consistent) (it : QueueItem) :
    (q.push it).Consistent := by
  by_cases held : q.holds it.key = true
  · rw [push_of_held held]
    exact c
  · have free : ¬ q.Busy it.key := fun busy => held ((c.holds_iff it.key).2 busy)
    rw [SyncQueue.push, if_neg held]
    refine ⟨?_, fun key => ?_, fun key member => ?_, c.in_flight⟩
    · rw [List.map_append, List.nodup_append]
      refine ⟨c.distinct, List.nodup_singleton _, ?_⟩
      intro key old new added same
      rw [same, List.mem_singleton.1 added] at old
      exact free (.inl old)
    · rw [List.mem_cons, List.map_append, List.mem_append, c.keys, List.map_singleton,
        List.mem_singleton]
      exact or_comm
    · rcases List.mem_cons.1 member with rfl | old
      · exact fun active => free (.inr active)
      · exact c.apart key old

theorem Consistent.pushes {q : SyncQueue} (c : q.Consistent) (items : List QueueItem) :
    (items.foldl SyncQueue.push q).Consistent := by
  induction items generalizing q with
  | nil => exact c
  | cons it rest ih => exact ih (c.push it)

/-- Keys that are not there are not removed. -/
theorem filter_active {active : List (Text × Text × Text)} {key : Text}
    (absent : key ∉ active.map Prod.fst) :
    (active.filter fun a => decide (a.1 ≠ key)) = active := by
  refine List.filter_eq_self.2 fun a member => decide_eq_true fun same => ?_
  exact absent (List.mem_map.2 ⟨a, member, same⟩)

/-- The first pending item is moved to the active ones. -/
theorem Consistent.next {q q' : SyncQueue} (c : q.Consistent) {it : QueueItem}
    (next : q.next = some (it, q')) :
    q'.Consistent ∧ q.pending = it :: q'.pending ∧
      q'.active = (it.key, it.ts, it.file) :: q.active := by
  cases waiting : q.pending with
  | nil => rw [SyncQueue.next, waiting] at next; cases next
  | cons head rest =>
      have distinct := c.distinct
      have keys := c.keys
      rw [waiting, List.map_cons] at distinct keys
      obtain ⟨once, others⟩ := List.nodup_cons.1 distinct
      have pending : head.key ∈ q.pending_keys := (keys head.key).2 List.mem_cons_self
      have absent := c.apart head.key pending
      rw [SyncQueue.next, waiting] at next
      cases next
      dsimp only
      rw [filter_active absent]
      refine ⟨⟨others, fun key => ?_, fun key member => ?_, ?_⟩, rfl, rfl⟩
      · rw [List.mem_filter, decide_eq_true_eq, keys, List.mem_cons]
        constructor
        · rintro ⟨here | later, other⟩
          · exact (other here).elim
          · exact later
        · intro later
          exact ⟨.inr later, fun same => once (same ▸ later)⟩
      · have kept := List.mem_filter.1 member
        rw [List.map_cons, List.mem_cons, not_or]
        exact ⟨of_decide_eq_true kept.2, c.apart key kept.1⟩
      · rw [List.map_cons, List.nodup_cons]
        exact ⟨absent, c.in_flight⟩

theorem Consistent.done {q : SyncQueue} (c : q.Consistent) (key : Text) :
    (q.done key).Consistent := by
  refine ⟨c.distinct, c.keys, fun k member active => ?_, ?_⟩
  · obtain ⟨a, kept, is⟩ := List.mem_map.1 active
    exact c.apart k member (List.mem_map.2 ⟨a, (List.mem_filter.1 kept).1, is⟩)
  · exact c.in_flight.sublist (List.filter_sublist.map Prod.fst)

end HomeConnect.Storage.SyncQueue

namespace HomeConnect.Sync

open HomeConnect.Theory HomeConnect.Storage

set_option autoImplicit false

/-! ## The queue with its producers and workers -/

/-- The queue, what each busy worker took off it, and the history of its items. -/
structure Station where
  queue : SyncQueue := {}
  working : List (Nat × QueueItem) := []
  /-- What `enqueue` added, in order. -/
  accepted : List QueueItem := []
  /-- What `next` returned, in order. -/
  taken : List QueueItem := []
  /-- What `done` was called for, in order. -/
  finished : List QueueItem := []
deriving DecidableEq, Repr

inductive QueueEvent
  | enqueue (items : List QueueItem)
  /-- An idle worker takes an item; while there is none it waits. -/
  | next (worker : Nat)
  /-- A busy worker is done with the item it took. -/
  | done (worker : Nat)
deriving DecidableEq, Repr

def Station.step (s : Station) : QueueEvent → Option Station
  | .enqueue items =>
      some { s with
        queue := (s.queue.enqueue items).2, accepted := s.accepted ++ s.queue.added items }
  | .next worker =>
      if worker ∈ s.working.map Prod.fst then none
      else
        s.queue.next.map fun r =>
          { s with
            queue := r.2, working := (worker, r.1) :: s.working, taken := s.taken ++ [r.1] }
  | .done worker =>
      (s.working.find? fun h => decide (h.1 = worker)).map fun h =>
        { s with
          queue := s.queue.done h.2.key
          working := s.working.filter fun other => decide (other.1 ≠ worker)
          finished := s.finished ++ [h.2] }

def station : System Station QueueEvent := ⟨Station.step⟩

/-- Everything an event can do. -/
theorem station_cases {s s' : Station} {e : QueueEvent} (stepped : station.step s e = some s') :
    (∃ items, e = .enqueue items ∧ s' =
      { s with queue := items.foldl SyncQueue.push s.queue,
               accepted := s.accepted ++ s.queue.added items }) ∨
    (∃ worker it rest, e = .next worker ∧ worker ∉ s.working.map Prod.fst ∧
      s.queue.pending = it :: rest ∧ ∃ q, s.queue.next = some (it, q) ∧
      s' = { s with queue := q, working := (worker, it) :: s.working,
                    taken := s.taken ++ [it] }) ∨
    ∃ worker it, e = .done worker ∧ (worker, it) ∈ s.working ∧ s' =
      { s with queue := s.queue.done it.key,
               working := s.working.filter fun other => decide (other.1 ≠ worker),
               finished := s.finished ++ [it] } := by
  cases e with
  | enqueue items =>
      cases stepped
      exact .inl ⟨items, rfl, by rw [SyncQueue.enqueue_snd]⟩
  | next worker =>
      simp only [station, Station.step, Option.ite_none_left_eq_some] at stepped
      obtain ⟨idle, took⟩ := stepped
      obtain ⟨⟨it, q⟩, next, rfl⟩ := Option.map_eq_some_iff.1 took
      cases waiting : s.queue.pending with
      | nil => rw [SyncQueue.next, waiting] at next; cases next
      | cons head rest =>
          have head_is : head = it := by
            rw [SyncQueue.next, waiting] at next
            cases next
            rfl
          subst head_is
          exact .inr (.inl ⟨worker, head, rest, rfl, idle, rfl, q, next, rfl⟩)
  | done worker =>
      obtain ⟨⟨other, it⟩, found, rfl⟩ := Option.map_eq_some_iff.1 stepped
      have same : other = worker := by simpa using List.find?_some found
      subst same
      exact .inr (.inr ⟨other, it, rfl, List.mem_of_find?_eq_some found, rfl⟩)

/-- The entry of an item being processed. -/
def flight (h : Nat × QueueItem) : Text × Text × Text := (h.2.key, h.2.ts, h.2.file)

/-- The queue's parts agree with each other, with the workers and with the history. -/
structure Accounted (s : Station) : Prop where
  queue : s.queue.Consistent
  in_flight : s.queue.active = s.working.map flight
  workers : (s.working.map Prod.fst).Nodup
  in_order : s.accepted = s.taken ++ s.queue.pending
  out : s.taken.length = s.finished.length + s.working.length

theorem accounted_start : Accounted {} :=
  ⟨⟨List.nodup_nil, fun _ => Iff.rfl, fun _ member => (List.not_mem_nil member).elim,
    List.nodup_nil⟩, rfl, List.nodup_nil, rfl, rfl⟩

theorem active_pushes (q : SyncQueue) (items : List QueueItem) :
    (items.foldl SyncQueue.push q).active = q.active := by
  induction items generalizing q with
  | nil => rfl
  | cons it rest ih =>
      rw [List.foldl_cons, ih, SyncQueue.push]
      split <;> rfl

/-- A worker that is done takes its own item's entry away, and no other. -/
theorem done_filter {working : List (Nat × QueueItem)} {worker : Nat} {it : QueueItem}
    (workers : (working.map Prod.fst).Nodup) (keys : ((working.map flight).map Prod.fst).Nodup)
    (holds : (worker, it) ∈ working) :
    ((working.map flight).filter fun a => decide (a.1 ≠ it.key)) =
      (working.filter fun other => decide (other.1 ≠ worker)).map flight := by
  rw [List.filter_map]
  congr 1
  refine List.filter_congr fun other member => ?_
  refine decide_eq_decide.2 (not_congr ?_)
  rw [List.map_map] at keys
  constructor
  · intro same
    rw [List.inj_on_of_nodup_map keys member holds same]
  · intro same
    rw [List.inj_on_of_nodup_map workers member holds same]
    rfl

/-- A worker is busy with one item. -/
theorem length_done {working : List (Nat × QueueItem)} {worker : Nat} {it : QueueItem}
    (workers : (working.map Prod.fst).Nodup) (holds : (worker, it) ∈ working) :
    (working.filter fun other => decide (other.1 ≠ worker)).length + 1 = working.length := by
  have erased : (working.filter fun other => decide (other.1 ≠ worker)) =
      working.erase (worker, it) := by
    rw [List.Nodup.erase_eq_filter workers.of_map]
    refine List.filter_congr fun other member => ?_
    rw [decide_not, bne, beq_eq_decide]
    congr 1
    refine decide_eq_decide.2 ⟨fun same => ?_, fun same => by rw [same]⟩
    exact List.inj_on_of_nodup_map workers member holds same
  have some_one := List.length_pos_of_mem holds
  rw [erased, List.length_erase_of_mem holds]
  omega

/-- Every event keeps the account. -/
theorem Accounted.step {s s' : Station} {e : QueueEvent} (a : Accounted s)
    (stepped : station.step s e = some s') : Accounted s' := by
  obtain ⟨items, rfl, rfl⟩ | ⟨worker, it, rest, rfl, idle, waiting, q, next, rfl⟩ |
    ⟨worker, it, rfl, holds, rfl⟩ := station_cases stepped
  · refine ⟨a.queue.pushes items, ?_, a.workers, ?_, a.out⟩
    · dsimp only
      rw [active_pushes, a.in_flight]
    · dsimp only
      rw [SyncQueue.pending_foldl_push, a.in_order, List.append_assoc]
  · obtain ⟨consistent, pending, active⟩ := a.queue.next next
    refine ⟨consistent, ?_, List.nodup_cons.2 ⟨idle, a.workers⟩, ?_, ?_⟩
    · dsimp only
      rw [active, a.in_flight]
      rfl
    · dsimp only
      rw [a.in_order, pending, List.append_assoc]
      rfl
    · dsimp only
      have out := a.out
      rw [List.length_append, List.length_singleton, List.length_cons]
      omega
  · have keys := a.queue.in_flight
    rw [a.in_flight] at keys
    refine ⟨a.queue.done it.key, ?_, ?_, a.in_order, ?_⟩
    · rw [SyncQueue.done, a.in_flight]
      exact done_filter a.workers keys holds
    · exact a.workers.sublist (List.filter_sublist.map Prod.fst)
    · dsimp only
      have out := a.out
      have one := length_done a.workers holds
      rw [List.length_append, List.length_singleton]
      omega

theorem accounted {s : Station} (reached : station.Reach System.free {} s) : Accounted s :=
  reached.invariant accounted_start fun _ _ _ a _ stepped => a.step stepped

/-- The history only grows at its end. -/
theorem history_grows {s s' : Station} (later : station.Reach System.free s s') :
    s.accepted <+: s'.accepted ∧ s.taken <+: s'.taken := by
  refine later.invariant (I := fun t => s.accepted <+: t.accepted ∧ s.taken <+: t.taken)
    ⟨List.prefix_rfl, List.prefix_rfl⟩ ?_
  rintro t e t' ⟨accepted, taken⟩ _ stepped
  obtain ⟨items, rfl, rfl⟩ | ⟨worker, it, rest, rfl, _, _, q, _, rfl⟩ | ⟨worker, it, rfl, _, rfl⟩ :=
    station_cases stepped
  · exact ⟨accepted.trans (List.prefix_append _ _), taken⟩
  · exact ⟨accepted, taken.trans (List.prefix_append _ _)⟩
  · exact ⟨accepted, taken⟩

/-! ## Every run -/

/-- What can be said of the queue at a moment of a run. -/
structure Orderly (s : Station) : Prop where
  /-- No two pending items share a key; the key set says which keys are pending, and none of
  them is being processed. -/
  distinct : (s.queue.pending.map QueueItem.key).Nodup
  keys : ∀ key, key ∈ s.queue.pending_keys ↔ ∃ it ∈ s.queue.pending, it.key = key
  apart : ∀ key ∈ s.queue.pending_keys, ∀ a ∈ s.queue.active, a.1 ≠ key
  /-- What was returned is what was accepted, in that order, up to what is pending. -/
  in_order : s.accepted = s.taken ++ s.queue.pending
  /-- The first pending item goes to whichever idle worker asks next. -/
  served : ∀ worker it rest, worker ∉ s.working.map Prod.fst → s.queue.pending = it :: rest →
    ∃ s', station.step s (.next worker) = some s' ∧ s'.taken = s.taken ++ [it]
  /-- `enqueue` returns how many items it accepts. -/
  counted : ∀ items s', station.step s (.enqueue items) = some s' →
    s'.accepted.length = s.accepted.length + (s.queue.enqueue items).1
  /-- An item of a batch is rejected only if its key is busy when its turn comes. -/
  rejected : ∀ pre it post, s.queue.added (pre ++ it :: post) =
    s.queue.added pre ++ (if (s.queue.enqueue pre).2.Busy it.key then [] else [it]) ++
      (s.queue.enqueue (pre ++ [it])).2.added post
  files : s.queue.stats.2 + s.finished.length = s.accepted.length

theorem Accounted.orderly {s : Station} (a : Accounted s) : Orderly s where
  distinct := a.queue.distinct
  keys key := by rw [a.queue.keys, List.mem_map]
  apart key member entry active same :=
    a.queue.apart key member (List.mem_map.2 ⟨entry, active, same⟩)
  in_order := a.in_order
  served := by
    intro worker it rest idle waiting
    have next : ∃ q, s.queue.next = some (it, q) := by
      rw [SyncQueue.next, waiting]
      exact ⟨_, rfl⟩
    obtain ⟨q, next⟩ := next
    let s' : Station :=
      { s with queue := q, working := (worker, it) :: s.working, taken := s.taken ++ [it] }
    have took : station.step s (.next worker) = some s' := by
      simp only [station, Station.step, if_neg idle, next, Option.map_some]
      rfl
    exact ⟨s', took, rfl⟩
  counted := by
    intro items s' stepped
    cases stepped
    rw [SyncQueue.enqueue_eq, List.length_append]
  rejected := by
    intro pre it post
    have one : (s.queue.enqueue pre).2.added [it] =
        if (s.queue.enqueue pre).2.Busy it.key then [] else [it] := by
      rw [SyncQueue.enqueue_snd, SyncQueue.added]
      by_cases busy : (pre.foldl SyncQueue.push s.queue).Busy it.key
      · rw [if_pos busy, if_pos (((a.queue.pushes pre).holds_iff _).2 busy)]
        rfl
      · rw [if_neg busy, if_neg fun held => busy (((a.queue.pushes pre).holds_iff _).1 held)]
        rfl
    rw [← one, SyncQueue.enqueue_snd, SyncQueue.enqueue_snd, ← SyncQueue.added_append,
      ← SyncQueue.added_append, List.append_assoc]
    rfl
  files := by
    have out := a.out
    have active := congrArg List.length a.in_flight
    rw [List.length_map] at active
    rw [a.in_order, List.length_append, SyncQueue.stats, active]
    omega

/-- **No work is lost or done twice.**  Whatever producers enqueue and however their turns
and the workers' interleave, the queue is orderly at every moment, and what was accepted
and returned by then is a beginning of what is accepted and returned in the end. -/
theorem neither_lost_nor_duplicated {s : Station} (reached : station.Reach System.free {} s) :
    Orderly s ∧ ∀ s', station.Reach System.free s s' →
      s.accepted <+: s'.accepted ∧ s.taken <+: s'.taken :=
  ⟨(accounted reached).orderly, fun _ later => history_grows later⟩

private def log_of (seg : Int) : QueueItem :=
  { dongle := "a", addr := "x", ts := "t", seg, file := "qlog" }

/-- A batch with a duplicate, two workers, and an item enqueued again while in flight. -/
private def two_workers : List QueueEvent :=
  [.enqueue [log_of 0, log_of 1, log_of 0], .next 0, .next 1, .enqueue [log_of 1, log_of 2],
    .done 1, .enqueue [log_of 1]]

theorem neither_lost_nor_duplicated_two_workers :
    ∃ s, Orderly s ∧ s.accepted = [log_of 0, log_of 1, log_of 2, log_of 1] ∧
      s.taken = [log_of 0, log_of 1] ∧ s.queue.stats = (1, 3) := by
  have run : (station.replay {} two_workers).any (fun s =>
      decide (s.accepted = [log_of 0, log_of 1, log_of 2, log_of 1] ∧
        s.taken = [log_of 0, log_of 1] ∧ s.queue.stats = (1, 3))) = true := by
    decide
  obtain ⟨s, replayed, holds⟩ := (Option.any_eq_true _ _).1 run
  exact ⟨s, (neither_lost_nor_duplicated (System.reach_of_replay replayed)).1,
    of_decide_eq_true holds⟩

end HomeConnect.Sync
