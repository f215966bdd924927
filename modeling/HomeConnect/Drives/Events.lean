/-
# Drives.Events -- the event counts of a route, and what the drive view draws

The server counts disengagements, hard brakings and hard accelerations in each
segment's telemetry on its own (`telemetry_stats`) and adds the counts up
(`aggregate`).  The drive view reads the series of all segments in a row: it lists the
engagements (`engageEvents`) and marks the hard brakings and accelerations (`marks`).

Both are counts over the pairs of consecutive samples.  The whole drive has the pairs of
its segments, and in between the ones at which two segments meet (`pairs_flatten`); the
counts agree exactly when nothing is won or lost there (`counts_agree_iff`).  A braking
that goes on from one segment to the next is one mark and two counts
(`one_braking_two_segments`).
-/
import HomeConnect.Drives.Aggregate
import HomeConnect.Theory.Rises

namespace HomeConnect.Drives

open HomeConnect.Theory HomeConnect.Storage

set_option autoImplicit false

/-! ## What the drive view derives -/

inductive Reason
  | gas
  | brake
  | steering
  | manual
deriving DecidableEq, Repr

/-- Why a disengagement happened, from the driver's inputs at the transition. -/
def disengageReason (x : Telem) (before : Option Telem) : Reason :=
  let input (s : Telem) : Option Reason :=
    if s.gas then some .gas else if s.brake then some .brake
    else if s.steer_override then some .steering else none
  ((x :: before.toList).findSome? input).getD .manual

structure EngageEvent where
  t : Rat
  engaged : Bool
  reason : Option Reason
deriving DecidableEq, Repr

/-- The loop variables of `engageEvents`, with the sample before. -/
structure EngageLoop where
  out : List EngageEvent := []
  last : Option Telem := none
  prev : Bool := false

def EngageLoop.step (l : EngageLoop) (x : Telem) : EngageLoop :=
  if x.engaged ≠ l.prev then
    let reason := if x.engaged then none else some (disengageReason x l.last)
    { out := l.out ++ [{ t := x.t, engaged := x.engaged, reason }]
      last := some x
      prev := x.engaged }
  else { l with last := some x }

def engageEvents (telemetry : List Telem) : List EngageEvent := (telemetry.foldl EngageLoop.step {}).out

inductive MarkKind
  | brake
  | accel
deriving DecidableEq, Repr

structure Mark where
  x : Rat
  kind : MarkKind
deriving DecidableEq, Repr

/-- The width of the graph. -/
def W : Rat := 1000

def maxT (telemetry : List Telem) : Rat :=
  match telemetry.getLast? with
  | some s => if s.t = 0 then 1 else s.t
  | none => 1

/-- The loop variables of `marks`; `pv` is the speed of `last`. -/
structure MarksLoop where
  out : List Mark := []
  last : Option Telem := none
  inB : Bool := false
  inA : Bool := false

def MarksLoop.step (maxT : Rat) (l : MarksLoop) (s : Telem) : MarksLoop :=
  match l.last with
  | none => { l with last := some s }
  | some p =>
      let dt := s.t - p.t
      if 0 < dt ∧ dt < 2 then
        let a := (s.speed * MPH_TO_MS - p.speed * MPH_TO_MS) / dt
        let brake : Bool := a ≤ -3
        let accel : Bool := 5 / 2 ≤ a
        let x := s.t / maxT * W
        { out := l.out ++ (if brake && !l.inB then [⟨x, .brake⟩] else []) ++
            (if accel && !l.inA then [⟨x, .accel⟩] else [])
          last := some s
          inB := brake
          inA := accel }
      else { l with last := some s }

/-- Hard accel/brake from the speed derivative. -/
def marks (telemetry : List Telem) : List Mark :=
  (telemetry.foldl (MarksLoop.step (maxT telemetry)) {}).out

/-! ## Pairs of consecutive samples -/

/-- Each sample with the one before it. -/
def pairs : Option Telem → List Telem → List (Telem × Telem)
  | _, [] => []
  | none, x :: xs => pairs (some x) xs
  | some p, x :: xs => (p, x) :: pairs (some x) xs

/-- The last sample, `before` without one. -/
def last_sample : Option Telem → List Telem → Option Telem
  | before, [] => before
  | _, x :: xs => last_sample (some x) xs

theorem pairs_append (before : Option Telem) (xs ys : List Telem) :
    pairs before (xs ++ ys) = pairs before xs ++ pairs (last_sample before xs) ys := by
  induction xs generalizing before with
  | nil => rfl
  | cons x xs ih =>
      cases before with
      | none => exact ih (some x)
      | some p =>
          show (p, x) :: pairs (some x) (xs ++ ys) = (p, x) :: (pairs (some x) xs ++ _)
          rw [ih (some x)]
          rfl

/-- The pair a series makes with the sample before it, and the pairs inside it. -/
theorem pairs_split (before : Option Telem) (xs : List Telem) :
    pairs before xs = pairs before (xs.take 1) ++ pairs none xs := by
  cases xs with
  | nil => cases before <;> rfl
  | cons x xs => cases before <;> rfl

/-- The segments of a drive: the pair at which each meets what came before, and the pairs
inside it. -/
def parts : Option Telem → List (List Telem) → List (List (Telem × Telem) × List (Telem × Telem))
  | _, [] => []
  | before, seg :: segs => (pairs before (seg.take 1), pairs none seg) :: parts (last_sample before seg) segs

/-- The pairs at which two segments of a drive meet. -/
def meetings (segs : List (List Telem)) : List (Telem × Telem) := (parts none segs).flatMap Prod.fst

theorem pairs_flatten (before : Option Telem) (segs : List (List Telem)) :
    pairs before segs.flatten = (parts before segs).flatMap fun part => part.1 ++ part.2 := by
  induction segs generalizing before with
  | nil => cases before <;> rfl
  | cons seg segs ih =>
      rw [List.flatten_cons, pairs_append, ih, pairs_split before seg]
      rfl

theorem parts_inside (before : Option Telem) (segs : List (List Telem)) :
    (parts before segs).map Prod.snd = segs.map (pairs none) := by
  induction segs generalizing before with
  | nil => rfl
  | cons seg segs ih =>
      show _ :: _ = _ :: _
      rw [ih]

/-! ## Hard brakings and accelerations -/

/-- The acceleration from one sample to the next, when they are less than 2 s apart. -/
def acceleration (p x : Telem) : Option Rat :=
  let dt := x.t - p.t
  if 0 < dt ∧ dt < 2 then some ((x.speed * MPH_TO_MS - p.speed * MPH_TO_MS) / dt) else none

def hard_braking (a : Rat) : Bool := a ≤ HARD_BRAKE_MS2

def hard_acceleration (a : Rat) : Bool := HARD_ACCEL_MS2 ≤ a

/-- Where in a drive the acceleration is of a kind, pair by pair. -/
def signal (kind : Rat → Bool) (ps : List (Telem × Telem)) : List Bool :=
  ps.filterMap fun p => (acceleration p.1 p.2).map kind

/-- The same in the segments of a drive, as `parts`. -/
def signals (kind : Rat → Bool) (segs : List (List Telem)) : List (List Bool × List Bool) :=
  (parts none segs).map fun part => (signal kind part.1, signal kind part.2)

theorem signal_append (kind : Rat → Bool) (ps qs : List (Telem × Telem)) :
    signal kind (ps ++ qs) = signal kind ps ++ signal kind qs := List.filterMap_append

theorem signal_flatten (kind : Rat → Bool) (segs : List (List Telem)) :
    signal kind (pairs none segs.flatten) =
      (signals kind segs).flatMap fun part => part.1 ++ part.2 := by
  rw [pairs_flatten]
  unfold signal signals
  rw [List.filterMap_flatMap, List.flatMap_map]
  congr 1
  funext part
  exact signal_append kind part.1 part.2

theorem signals_inside (kind : Rat → Bool) (segs : List (List Telem)) :
    (signals kind segs).map Prod.snd = segs.map fun seg => signal kind (pairs none seg) := by
  unfold signals
  rw [List.map_map]
  show (parts none segs).map (signal kind ∘ Prod.snd) = _
  rw [← List.map_map, parts_inside, List.map_map]
  rfl

/-- Is a disengagement between two samples? -/
def lets_go (p : Telem × Telem) : Bool := p.1.engaged && !p.2.engaged

/-- A loop over the samples that does to `value`, at each one, what `over` does for the
pair it makes with the sample before, has done it for all pairs. -/
theorem foldl_along {σ β : Type} (step : σ → Telem → σ) (last : σ → Option Telem) (value : σ → β)
    (along : β → List (Telem × Telem) → β) (nothing : ∀ b, along b [] = b)
    (append : ∀ b ps qs, along b (ps ++ qs) = along (along b ps) qs)
    (next : ∀ l x, last (step l x) = some x)
    (one : ∀ l x, value (step l x) = along (value l) (pairs (last l) [x])) (l : σ) (xs : List Telem) :
    value (xs.foldl step l) = along (value l) (pairs (last l) xs) := by
  induction xs generalizing l with
  | nil =>
      have none_left : pairs (last l) [] = [] := by cases last l <;> rfl
      rw [none_left, nothing]
      rfl
  | cons x xs ih =>
      have first : pairs (last l) (x :: xs) = pairs (last l) [x] ++ pairs (some x) xs :=
        pairs_append (last l) [x] xs
      rw [List.foldl_cons, ih, one, next, first, append]

/-- A count of rises, and whether the signal is up. -/
structure Counter where
  count : Int
  up : Bool

namespace Counter

def along (kind : Rat → Bool) (c : Counter) (ps : List (Telem × Telem)) : Counter :=
  ⟨c.count + rises c.up (signal kind ps), level c.up (signal kind ps)⟩

theorem along_nil (kind : Rat → Bool) (c : Counter) : c.along kind [] = c := by
  simp [along, signal]

theorem along_append (kind : Rat → Bool) (c : Counter) (ps qs : List (Telem × Telem)) :
    c.along kind (ps ++ qs) = (c.along kind ps).along kind qs := by
  unfold along
  rw [signal_append, rises_append, level_append]
  congr 1
  push_cast
  omega

/-- One more sample without a sample before it. -/
theorem along_none (kind : Rat → Bool) (c : Counter) (x : Telem) : c.along kind (pairs none [x]) = c :=
  along_nil kind c

/-- One more sample: nothing when it is too far from the one before, else one step of
the signal. -/
theorem along_some (kind : Rat → Bool) (c : Counter) (p x : Telem) :
    c.along kind (pairs (some p) [x]) =
      match acceleration p x with
      | none => c
      | some a => ⟨if kind a && !c.up then c.count + 1 else c.count, kind a⟩ := by
  unfold along signal
  simp only [pairs, List.filterMap_cons, List.filterMap_nil]
  cases acceleration p x with
  | none => simp
  | some a =>
      simp only [Option.map_some, level_cons, level_nil, rises]
      split <;> simp

end Counter

/-! ## Counted by the server -/

namespace StatsLoop

def brakes (l : StatsLoop) : Counter := ⟨l.s.hard_brake, l.in_brake⟩

def accels (l : StatsLoop) : Counter := ⟨l.s.hard_accel, l.in_accel⟩

/-- A sample seen, before it is compared with the one before. -/
def seen (l : StatsLoop) (x : Telem) : StatsLoop :=
  { l with s := { l.s with max_speed := max l.s.max_speed x.speed } }

theorem interval_disengage (l : StatsLoop) (p x : Telem) :
    (l.interval p x).s.disengage = l.s.disengage := by
  unfold interval
  dsimp only
  split <;> rfl

theorem step_first (l : StatsLoop) (x : Telem) (first : l.prev = none) :
    l.step x = { l.seen x with prev := some x } := by
  simp only [step, seen, first]

theorem step_next (l : StatsLoop) (p x : Telem) (before : l.prev = some p) :
    ∃ d, l.step x = { (l.seen x).interval p x with
        s := { ((l.seen x).interval p x).s with disengage := d }
        prev := some x } ∧
      d = l.s.disengage + (if p.engaged && !x.engaged then 1 else 0) := by
  refine ⟨_, by simp only [step, seen, before]; rfl, ?_⟩
  simp only [interval_disengage]
  split <;> simp

theorem step_prev (l : StatsLoop) (x : Telem) : (l.step x).prev = some x := by
  cases before : l.prev with
  | none => rw [step_first l x before]
  | some p =>
      obtain ⟨d, step, _⟩ := step_next l p x before
      rw [step]

theorem step_brakes (l : StatsLoop) (x : Telem) :
    (l.step x).brakes = l.brakes.along hard_braking (pairs l.prev [x]) := by
  cases before : l.prev with
  | none =>
      rw [step_first l x before, Counter.along_none]
      rfl
  | some p =>
      obtain ⟨d, step, _⟩ := step_next l p x before
      rw [step, Counter.along_some]
      unfold interval acceleration brakes hard_braking
      by_cases close : 0 < x.t - p.t ∧ x.t - p.t < 2
      · simp only [if_pos close]
        simp [seen]
      · simp only [if_neg close]
        simp [seen]

theorem step_accels (l : StatsLoop) (x : Telem) :
    (l.step x).accels = l.accels.along hard_acceleration (pairs l.prev [x]) := by
  cases before : l.prev with
  | none =>
      rw [step_first l x before, Counter.along_none]
      rfl
  | some p =>
      obtain ⟨d, step, _⟩ := step_next l p x before
      rw [step, Counter.along_some]
      unfold interval acceleration accels hard_acceleration
      by_cases close : 0 < x.t - p.t ∧ x.t - p.t < 2
      · simp only [if_pos close]
        simp [seen]
      · simp only [if_neg close]
        simp [seen]

theorem step_disengage (l : StatsLoop) (x : Telem) :
    (l.step x).s.disengage = l.s.disengage + ((pairs l.prev [x]).countP lets_go : Nat) := by
  cases before : l.prev with
  | none =>
      rw [step_first l x before]
      simp [pairs, seen]
  | some p =>
      obtain ⟨d, step, counted⟩ := step_next l p x before
      rw [step]
      show d = _
      rw [counted]
      by_cases go : (p.engaged && !x.engaged) = true <;> simp [pairs, lets_go, go]

end StatsLoop

theorem hard_brake_eq (t : List Telem) :
    (telemetry_stats t).hard_brake = rises false (signal hard_braking (pairs none t)) := by
  have counted := foldl_along StatsLoop.step StatsLoop.prev StatsLoop.brakes (Counter.along hard_braking)
    (Counter.along_nil _) (Counter.along_append _) StatsLoop.step_prev StatsLoop.step_brakes {} t
  have count := congrArg Counter.count counted
  show (t.foldl StatsLoop.step {}).brakes.count = _
  rw [count]
  simp [Counter.along, StatsLoop.brakes]

theorem hard_accel_eq (t : List Telem) :
    (telemetry_stats t).hard_accel = rises false (signal hard_acceleration (pairs none t)) := by
  have counted := foldl_along StatsLoop.step StatsLoop.prev StatsLoop.accels (Counter.along hard_acceleration)
    (Counter.along_nil _) (Counter.along_append _) StatsLoop.step_prev StatsLoop.step_accels {} t
  have count := congrArg Counter.count counted
  show (t.foldl StatsLoop.step {}).accels.count = _
  rw [count]
  simp [Counter.along, StatsLoop.accels]

theorem disengage_eq (t : List Telem) :
    (telemetry_stats t).disengage = ((pairs none t).countP lets_go : Nat) := by
  have counted := foldl_along StatsLoop.step StatsLoop.prev (fun l => l.s.disengage)
    (fun d ps => d + ((ps.countP lets_go : Nat) : Int)) (by intro b; simp)
    (by intro b ps qs; rw [List.countP_append]; omega)
    StatsLoop.step_prev StatsLoop.step_disengage {} t
  simpa [telemetry_stats] using counted

/-! ## Counted in the view -/

def Mark.is (kind : MarkKind) (m : Mark) : Bool := m.kind = kind

def EngageEvent.lets_go (e : EngageEvent) : Bool := !e.engaged

namespace MarksLoop

def brakes (l : MarksLoop) : Counter := ⟨(l.out.countP (Mark.is .brake) : Nat), l.inB⟩

def accels (l : MarksLoop) : Counter := ⟨(l.out.countP (Mark.is .accel) : Nat), l.inA⟩

theorem step_last (m : Rat) (l : MarksLoop) (x : Telem) : (l.step m x).last = some x := by
  unfold step
  split
  · rfl
  · dsimp only
    split <;> rfl

theorem step_brakes (m : Rat) (l : MarksLoop) (x : Telem) :
    (l.step m x).brakes = l.brakes.along hard_braking (pairs l.last [x]) := by
  unfold step
  split
  · rename_i first
    simp only [first]
    rw [Counter.along_none]
    rfl
  · rename_i p before
    simp only [before]
    rw [Counter.along_some]
    unfold acceleration brakes hard_braking HARD_BRAKE_MS2
    by_cases close : 0 < x.t - p.t ∧ x.t - p.t < 2
    · simp only [if_pos close, List.countP_append]
      congr 1
      split <;> split <;> simp [Mark.is]
    · simp only [if_neg close]

theorem step_accels (m : Rat) (l : MarksLoop) (x : Telem) :
    (l.step m x).accels = l.accels.along hard_acceleration (pairs l.last [x]) := by
  unfold step
  split
  · rename_i first
    simp only [first]
    rw [Counter.along_none]
    rfl
  · rename_i p before
    simp only [before]
    rw [Counter.along_some]
    unfold acceleration accels hard_acceleration HARD_ACCEL_MS2
    by_cases close : 0 < x.t - p.t ∧ x.t - p.t < 2
    · simp only [if_pos close, List.countP_append]
      congr 1
      split <;> split <;> simp [Mark.is]
    · simp only [if_neg close]

end MarksLoop

theorem brake_marks_eq (t : List Telem) :
    ((marks t).countP (Mark.is .brake) : Int) = rises false (signal hard_braking (pairs none t)) := by
  have counted := foldl_along (MarksLoop.step (maxT t)) MarksLoop.last MarksLoop.brakes
    (Counter.along hard_braking) (Counter.along_nil _) (Counter.along_append _) (MarksLoop.step_last _)
    (MarksLoop.step_brakes _) {} t
  have count := congrArg Counter.count counted
  show (t.foldl (MarksLoop.step (maxT t)) {}).brakes.count = _
  rw [count]
  simp [Counter.along, MarksLoop.brakes]

theorem accel_marks_eq (t : List Telem) :
    ((marks t).countP (Mark.is .accel) : Int) = rises false (signal hard_acceleration (pairs none t)) := by
  have counted := foldl_along (MarksLoop.step (maxT t)) MarksLoop.last MarksLoop.accels
    (Counter.along hard_acceleration) (Counter.along_nil _) (Counter.along_append _) (MarksLoop.step_last _)
    (MarksLoop.step_accels _) {} t
  have count := congrArg Counter.count counted
  show (t.foldl (MarksLoop.step (maxT t)) {}).accels.count = _
  rw [count]
  simp [Counter.along, MarksLoop.accels]

/-- `prev` follows the last sample, so a change is a change between two samples. -/
theorem engage_fold (t : List Telem) (l : EngageLoop)
    (follows : l.prev = (l.last.map Telem.engaged).getD false) :
    (t.foldl EngageLoop.step l).out.countP EngageEvent.lets_go =
      l.out.countP EngageEvent.lets_go + (pairs l.last t).countP lets_go := by
  induction t generalizing l with
  | nil => cases last : l.last <;> simp [pairs]
  | cons x t ih =>
      have next : (l.step x).last = some x := by
        unfold EngageLoop.step
        split <;> rfl
      have kept : (l.step x).prev = ((l.step x).last.map Telem.engaged).getD false := by
        rw [next]
        unfold EngageLoop.step
        by_cases same : x.engaged = l.prev <;> simp [same]
      have one : (l.step x).out.countP EngageEvent.lets_go =
          l.out.countP EngageEvent.lets_go + (pairs l.last [x]).countP lets_go := by
        unfold EngageLoop.step
        cases last : l.last with
        | none =>
            have low : l.prev = false := by rw [follows, last]; rfl
            cases up : x.engaged <;> simp [low, pairs, EngageEvent.lets_go]
        | some p =>
            have prev : l.prev = p.engaged := by rw [follows, last]; rfl
            cases up : x.engaged <;> cases was : p.engaged <;>
              simp [prev, up, was, pairs, EngageEvent.lets_go, lets_go]
      have first : pairs l.last (x :: t) = pairs l.last [x] ++ pairs (some x) t := pairs_append l.last [x] t
      rw [List.foldl_cons, ih _ kept, one, next, first, List.countP_append]
      omega

theorem disengagements_eq (t : List Telem) :
    (engageEvents t).countP EngageEvent.lets_go = (pairs none t).countP lets_go := by
  unfold engageEvents
  rw [engage_fold t {} rfl]
  simp

/-! ## The counts of a route -/

/-- The row of a segment whose qlog has been parsed. -/
def parsed_row (part : Segment × Accum) : Segment := { part.1 with data := part.2.data }

/-- The telemetry of a drive, segment by segment. -/
def series (drive : List (Segment × Accum)) : List (List Telem) := drive.map fun part => part.2.telemetry

/-- The route's counts are what the drive view shows. -/
def CountsAgree (drive : List (Segment × Accum)) : Prop :=
  let row := aggregate (drive.map parsed_row)
  let telemetry := (series drive).flatten
  row.disengage_count = (engageEvents telemetry).countP EngageEvent.lets_go ∧
  row.hard_brake_count = (marks telemetry).countP (Mark.is .brake) ∧
  row.hard_accel_count = (marks telemetry).countP (Mark.is .accel)

/-- A count summed over the segments' rows. -/
theorem sum_counts (drive : List (Segment × Accum)) (column : SegData → Int) (value : List Telem → Nat)
    (reads : ∀ acc : Accum, column acc.data = value acc.telemetry) :
    ((drive.map parsed_row).map fun s => column s.data).sum = (((series drive).map value).sum : Nat) := by
  induction drive with
  | nil => rfl
  | cons part drive ih =>
      simp only [List.map_cons, List.sum_cons, series] at ih ⊢
      rw [ih]
      push_cast
      congr 1
      exact reads part.2

/-- The rises inside the segments, beside those of the whole drive. -/
theorem rises_of_segments (kind : Rat → Bool) (segs : List (List Telem)) :
    rises false (signal kind (pairs none segs.flatten)) + carried_over false (signals kind segs) =
      (segs.map fun seg => rises false (signal kind (pairs none seg))).sum +
        seam_rises false (signals kind segs) := by
  rw [signal_flatten, rises_parts]
  congr 2
  show (signals kind segs).map (rises false ∘ Prod.snd) = _
  rw [← List.map_map, signals_inside, List.map_map]
  rfl

theorem lets_go_of_segments (segs : List (List Telem)) :
    (pairs none segs.flatten).countP lets_go =
      (segs.map fun seg => (pairs none seg).countP lets_go).sum + (meetings segs).countP lets_go := by
  have inside : (segs.map fun seg => (pairs none seg).countP lets_go) =
      ((parts none segs).map Prod.snd).map (List.countP lets_go) := by
    rw [parts_inside, List.map_map]
    rfl
  rw [pairs_flatten, inside]
  unfold meetings
  induction parts none segs with
  | nil => rfl
  | cons part rest ih =>
      simp only [List.flatMap_cons, List.map_cons, List.sum_cons, List.countP_append]
      rw [ih]
      omega

/-- The counts agree exactly when the driver is not handed control between two segments,
and as many hard brakings (and accelerations) start between two segments as segments
begin with one that goes on. -/
theorem counts_agree_iff (drive : List (Segment × Accum)) :
    CountsAgree drive ↔
      (∀ p ∈ meetings (series drive), p.1.engaged = true → p.2.engaged = true) ∧
      seam_rises false (signals hard_braking (series drive)) =
        carried_over false (signals hard_braking (series drive)) ∧
      seam_rises false (signals hard_acceleration (series drive)) =
        carried_over false (signals hard_acceleration (series drive)) := by
  have dis := sum_counts drive SegData.disengage_count (fun t => (pairs none t).countP lets_go)
    fun acc => disengage_eq acc.telemetry
  have brakes := sum_counts drive SegData.hard_brake_count
    (fun t => rises false (signal hard_braking (pairs none t))) fun acc => hard_brake_eq acc.telemetry
  have accels := sum_counts drive SegData.hard_accel_count
    (fun t => rises false (signal hard_acceleration (pairs none t))) fun acc => hard_accel_eq acc.telemetry
  have none_lost : (∀ p ∈ meetings (series drive), p.1.engaged = true → p.2.engaged = true) ↔
      (meetings (series drive)).countP lets_go = 0 := by
    rw [List.countP_eq_zero]
    simp [lets_go]
  rw [none_lost]
  unfold CountsAgree
  dsimp only [aggregate]
  rw [dis, brakes, accels, disengagements_eq, brake_marks_eq, accel_marks_eq]
  have let_go := lets_go_of_segments (series drive)
  have braked := rises_of_segments hard_braking (series drive)
  have sped := rises_of_segments hard_acceleration (series drive)
  refine and_congr ?_ (and_congr ?_ ?_)
  · omega
  · omega
  · omega

private def braked_drive : List (Segment × Accum) :=
  let segment (n : Int) : Segment := { canonical_name := [], canonical_route_name := [], number := n }
  let sample (t speed : Rat) : Telem := { t, speed, engaged := false }
  [(segment 0, { telemetry := [sample 58 60, sample 59 50] }),
    (segment 1, { telemetry := [sample 60 40, sample 61 30] })]

/-- One braking over two segments is counted twice by the server, and marked once. -/
theorem one_braking_two_segments : ¬ ∀ drive : List (Segment × Accum), CountsAgree drive := by
  intro agree
  have apart := agree braked_drive
  unfold CountsAgree at apart
  revert apart
  decide +kernel

end HomeConnect.Drives
