/-
# Media.Reencode -- rebuilding everything

`reencode_all` and `rebuild_all` delete the outputs and the rows of a pipeline, for the sweep to
build them again.  Neither waits for a build that is under way or tells it.  A build reads its
settings minutes before it records its row, and a sweep takes an output for fresh when it is
stored and its row counts all the segments.

The two pipelines differ in little, and the model is one of both: sweeps, calls and the user's
deletions over a `World`, a statement or a file operation at a time.  `Media.Stages` has how these
stages are those of the programs in `Media.Movies` and `Media.Subs`.  A build has the permit
until it returns, so the one that has it is part of the world.  `World.cleared` and
`Blob.read_at` are history: no code reads them.
-/
import HomeConnect.Storage.Names
import HomeConnect.Theory.Pool
import HomeConnect.Theory.Table
import Mathlib.Logic.Function.Basic

namespace HomeConnect.Media.Reencode

open HomeConnect.Theory

set_option autoImplicit false

inductive Pipeline
  | movie
  | subs
deriving DecidableEq, Repr

/-- A row of `movies` or `subs`; the column `disabled` holds 0 or 1. -/
structure Row (K : Type) where
  key : K
  seg_count : Int
  bytes : Int
  disabled : Bool
deriving DecidableEq, Repr

abbrev Rows (K : Type) [DecidableEq K] := Table (Row K) Row.key

/-- The segments of a drive, and those that have the camera. -/
structure Cover where
  total : Int
  with_camera : Int
deriving DecidableEq, Repr

structure Blob where
  size : Int
  /-- How many calls had cleared the rows when the build that wrote it read its settings. -/
  read_at : Nat
deriving DecidableEq, Repr

/-! ## Builds -/

/-- Where a build is, by what it does next; with when it began to read its settings. -/
inductive BuildStep
  | prepare
  | denoise
  | settings (read_at : Nat)
  | produce (read_at : Nat)
  | store (read_at : Nat)
  | measure (read_at : Nat)
  | record (read_at : Nat) (bytes : Int)
  | fail
deriving DecidableEq, Repr

structure Build (K : Type) where
  key : K
  seg_count : Int
  step : BuildStep
deriving DecidableEq, Repr

def Build.read_at? {K : Type} (b : Build K) : Option Nat :=
  match b.step with
  | .prepare | .denoise | .fail => none
  | .settings read_at | .produce read_at | .store read_at | .measure read_at | .record read_at _ =>
      some read_at

structure World (K N : Type) [DecidableEq K] where
  rows : Rows K
  blobs : N → Option Blob
  /-- The drives' outputs, in the order of the routes. -/
  routes : List K
  cover : K → Option Cover
  /-- A source file of it is stored, and not empty. -/
  usable : K → Bool
  enabled : Bool
  /-- The build that has the permit. -/
  building : Option (Build K)
  /-- How many calls have cleared the rows. -/
  cleared : Nat

/-- What an operation comes to: it is done (with this size, where it has one), it fails, or the
build ends without a record. -/
inductive Outcome
  | done (size : Int)
  | failed
  | aborted
deriving DecidableEq, Repr

section Model

variable {K N : Type} [DecidableEq K] [DecidableEq N]

/-- `INSERT … ON CONFLICT DO UPDATE`, which leaves `disabled` as it is. -/
def record (rows : Rows K) (key : K) (seg_count bytes : Int) : Rows K :=
  rows.upsert ⟨key, seg_count, bytes, false⟩ (fun r => { r with seg_count, bytes }) fun _ => rfl

def disable_row (rows : Rows K) (key : K) : Rows K :=
  rows.upsert ⟨key, 0, 0, true⟩ (fun r => { r with disabled := true, bytes := 0 }) fun _ => rfl

namespace World

/-- The record of a build, whose error is dropped. -/
def recorded (s : World K N) (key : K) (seg_count bytes : Int) : Outcome → World K N
  | .done _ => { s with rows := record s.rows key seg_count bytes }
  | _ => s

def without (s : World K N) (n : N) : World K N := { s with blobs := Function.update s.blobs n none }

def put (s : World K N) (n : N) (blob : Blob) : World K N :=
  { s with blobs := Function.update s.blobs n (some blob) }

def next (s : World K N) (b : Build K) (step : BuildStep) : World K N :=
  { s with building := some { b with step } }

/-- The build returns, and lets go of the permit. -/
def leave (s : World K N) : World K N := { s with building := none }

end World

variable (pipeline : Pipeline) (name : K → N)

/-- One step of the build that has the permit. -/
def Build.turn (b : Build K) (o : Outcome) (s : World K N) : World K N :=
  match b.step with
  | .prepare =>
      match o with
      | .done _ => s.next b .denoise
      | _ => s.leave
  | .denoise => s.next b (.settings s.cleared)
  | .settings read_at =>
      match pipeline with
      | .movie => s.next b (.produce read_at)   -- the encoder's options and the device
      | .subs =>
          -- the track is extracted, and the server's url read
          match o with
          | .done _ => s.next b (.produce read_at)
          | .failed => s.next b .fail
          | .aborted => s.leave
  | .produce read_at =>
      match o with
      | .done _ => s.next b (.store read_at)
      | .failed => s.next b .fail
      | .aborted => s.leave
  | .store read_at =>
      match o with
      | .done size =>
          match pipeline with
          | .movie => (s.put (name b.key) ⟨size, read_at⟩).next b (.measure read_at)
          | .subs => (s.put (name b.key) ⟨size, read_at⟩).next b (.record read_at size)
      | _ => s.leave
  | .measure read_at =>
      match o, s.blobs (name b.key) with
      | .done _, some blob => s.next b (.record read_at blob.size)
      | _, _ => s.next b (.record read_at 0)
  | .record _ bytes => (s.recorded b.key b.seg_count bytes o).leave
  | .fail => (s.recorded b.key b.seg_count 0 o).leave

/-! ## Sweeps -/

/-- Where a sweep is.  `rest` is what it has yet to look at, `todo` what it has found to build. -/
inductive SweepStage (K : Type)
  | idle
  | list
  | built (routes : List K)
  | covering (routes : List K)
  | look (rest todo : List K)
  | queue (todo : List K)
  | count (key : K) (rest todo : List K)
  | note (key : K) (seg_count : Int) (rest todo : List K)
  | wait (key : K) (seg_count : Int) (rest todo : List K)
  | inside (rest todo : List K)
deriving DecidableEq, Repr

structure Sweep (K : Type) [DecidableEq K] where
  /-- How many calls had cleared the rows when it started. -/
  started : Nat
  built : Rows K
  cover : K → Option Cover
  stage : SweepStage K

namespace Sweep

def go (w : Sweep K) (stage : SweepStage K) : Sweep K := { w with stage }

/-- Every segment has the camera. -/
def covered (w : Sweep K) (key : K) : Bool :=
  match w.cover key with
  | some c => decide (c.total ≠ 0 ∧ c.with_camera = c.total)
  | none => false

/-- Already attempted at this coverage. -/
def attempted (w : Sweep K) (r : Row K) : Bool := decide ((w.cover r.key).map Cover.total = some r.seg_count)

/-- Nothing to build: the camera does not cover the drive, or its row says so. -/
def skips (w : Sweep K) (key : K) (stored : Bool) : Bool :=
  !w.covered key ||
    match w.built.get? key with
    | some r => r.disabled || (w.attempted r && (decide (r.bytes = 0) || stored))
    | none => false

/-- The next output, whose row is the reason why it is not built: it is taken for fresh. -/
def takes_for_fresh (w : Sweep K) (s : World K N) (key : K) : Bool :=
  match w.stage with
  | .look (k :: _) _ =>
      decide (k = key) && w.covered key && (s.blobs (name key)).isSome &&
        match w.built.get? key with
        | some r => !r.disabled && w.attempted r && decide (r.bytes ≠ 0)
        | none => false
  | _ => false

/-- Where the sweep goes on when a build has returned. -/
def resume (rest todo : List K) : SweepStage K :=
  match pipeline with
  | .movie => .queue todo
  | .subs => .look rest todo

def turn (w : Sweep K) (o : Outcome) (s : World K N) : Option (World K N × Sweep K) :=
  match w.stage with
  | .idle =>
      if s.enabled then some (s, { w with started := s.cleared, built := .empty, stage := .list })
      else some (s, w)
  | .list =>
      match o with
      | .done _ => some (s, w.go (.built s.routes))
      | _ => some (s, w.go .idle)
  | .built routes =>
      let built := match o with
        | .done _ => s.rows
        | _ => .empty
      some (s, { w with built, stage := .covering routes })
  | .covering routes =>
      let cover := match o with
        | .done _ => s.cover
        | _ => fun _ => none
      some (s, { w with cover, stage := .look routes [] })
  | .look [] todo => some (s, w.go (.queue todo))
  | .look (key :: rest) todo =>
      let stored := match o with
        | .done _ => (s.blobs (name key)).isSome
        | _ => false
      match pipeline with
      | .movie => some (s, w.go (.look rest (if w.skips key stored then todo else todo ++ [key])))
      | .subs =>
          if s.enabled then
            some (s, w.go (if w.skips key stored then .look rest todo else .count key rest todo))
          else some (s, w.go .idle)
  | .queue [] => some (s, w.go .idle)
  | .queue (key :: todo) => some (s, w.go (if s.enabled then .count key [] todo else .idle))
  | .count key rest todo =>
      let found := ((s.cover key).map Cover.with_camera).getD 0
      match pipeline, o with
      | .movie, .done _ =>
          some (s, w.go (if found = 0 then resume pipeline rest todo
            else if s.usable key then .wait key found rest todo
            else .note key found rest todo))
      | .movie, _ => some (s, w.go (resume pipeline rest todo))
      | .subs, _ =>
          let segs := match o with
            | .done _ => found
            | _ => 0
          some (s, w.go (if segs ≠ 0 ∧ s.usable key then .wait key segs rest todo
            else .note key segs rest todo))
  | .note key seg_count rest todo =>
      some (s.recorded key seg_count 0 o, w.go (resume pipeline rest todo))
  | .wait key seg_count rest todo =>
      if s.building = none then
        some ({ s with building := some ⟨key, seg_count, .prepare⟩ }, w.go (.inside rest todo))
      else none
  | .inside rest todo =>
      s.building.map fun b =>
        let s' := b.turn pipeline name o s
        (s', w.go (if s'.building = none then resume pipeline rest todo else .inside rest todo))

end Sweep

/-! ## Calls and deletions -/

/-- `reencode_all` and `rebuild_all`. -/
inductive CallStage (K : Type)
  | select
  | blobs (keys : List K)
  | clear
  | returned
deriving DecidableEq, Repr

def CallStage.turn (c : CallStage K) (o : Outcome) (s : World K N) : Option (World K N × CallStage K) :=
  match c with
  | .select =>
      match o with
      | .done _ => some (s, .blobs ((s.rows.rows.filter fun r => !r.disabled).map Row.key))
      | _ => some (s, .blobs [])
  | .blobs [] => some (s, .clear)
  | .blobs (key :: keys) =>
      match o with
      | .done _ => some (s.without (name key), .blobs keys)
      | _ => some (s, .blobs keys)
  | .clear =>
      -- the error of the statement is dropped
      let rows := match o with
        | .done _ => s.rows.delete fun r => !r.disabled
        | _ => s.rows
      some ({ s with rows, cleared := s.cleared + 1 }, .returned)
  | .returned => none

/-- `disable`, and `delete`, of one output. -/
inductive RemovalStage
  | blob
  | row
  | returned
deriving DecidableEq, Repr

def RemovalStage.turn (disable : Bool) (key : K) (r : RemovalStage) (o : Outcome) (s : World K N) :
    Option (World K N × RemovalStage) :=
  match r, o with
  | .blob, .done _ => some (s.without (name key), .row)
  | .blob, _ => some (s, .row)
  | .row, .done _ =>
      some ({ s with
        rows := if disable then disable_row s.rows key else s.rows.delete fun r => decide (r.key = key) },
        .returned)
  | .row, _ => some (s, .returned)
  | .returned, _ => none

/-! ## Everything together -/

inductive Worker (K : Type) [DecidableEq K]
  | sweep (w : Sweep K)
  | call (c : CallStage K)
  | removal (disable : Bool) (key : K) (r : RemovalStage)

def Worker.turn : Worker K → Outcome → World K N → Option (World K N × Worker K)
  | .sweep w, o, s => (w.turn pipeline name o s).map fun r => (r.1, .sweep r.2)
  | .call c, o, s => (c.turn name o s).map fun r => (r.1, .call r.2)
  | .removal disable key r, o, s => (r.turn name disable key o s).map fun r => (r.1, .removal disable key r.2)

inductive Action (K : Type)
  | spawn
  | rebuild_all
  | remove (disable : Bool) (key : K)
  /-- Uploads, syncs, retention and the settings. -/
  | change (routes : List K) (cover : K → Option Cover) (usable : K → Bool) (enabled : Bool)

def act : Action K → World K N → Option (World K N × List (Worker K))
  | .spawn, s => some (s, [.sweep ⟨s.cleared, .empty, fun _ => none, .idle⟩])
  | .rebuild_all, s => some (s, [.call .select])
  | .remove disable key, s => some (s, [.removal disable key .blob])
  | .change routes cover usable enabled, s => some ({ s with routes, cover, usable, enabled }, [])

def rules : Pool.Rules (World K N) (Worker K) (Action K) Outcome := ⟨act, Worker.turn pipeline name⟩

/-- The server has started: rows, and outputs of these sizes. -/
def World.boot (rows : Rows K) (sizes : N → Option Int) : World K N where
  rows := rows
  blobs := fun n => (sizes n).map fun size => ⟨size, 0⟩
  routes := []
  cover := fun _ => none
  usable := fun _ => false
  enabled := false
  building := none
  cleared := 0

/-- What a sweep takes for fresh was made with settings read after every call that had cleared
the rows when the sweep started. -/
def NeverOld (p : Pool (World K N) (Worker K)) : Prop :=
  ∀ w, .sweep w ∈ p.tasks → ∀ key, w.takes_for_fresh name p.shared key = true →
    ∀ blob, p.shared.blobs (name key) = some blob → w.started ≤ blob.read_at

/-- A build does not record an output when a call has cleared the rows since it read its settings,
unless the output has been deleted again or its row is disabled. -/
def Build.current (b : Build K) (s : World K N) : Prop :=
  match b.step with
  | .record read_at bytes =>
      bytes = 0 ∨ s.cleared ≤ read_at ∨ s.blobs (name b.key) = none ∨
        (s.rows.get? b.key).map Row.disabled = some true
  | _ => True

instance (b : Build K) (s : World K N) : Decidable (b.current name s) :=
  match b with
  | ⟨key, _, .record read_at bytes⟩ =>
      inferInstanceAs (Decidable (bytes = 0 ∨ s.cleared ≤ read_at ∨ s.blobs (name key) = none ∨
        (s.rows.get? key).map Row.disabled = some true))
  | ⟨_, _, .prepare⟩ | ⟨_, _, .denoise⟩ | ⟨_, _, .fail⟩ => .isTrue trivial
  | ⟨_, _, .settings _⟩ | ⟨_, _, .produce _⟩ | ⟨_, _, .store _⟩ | ⟨_, _, .measure _⟩ => .isTrue trivial

/-- A call's `DELETE` is carried out, unless there is nothing to clear. -/
def CallStage.current (c : CallStage K) (o : Outcome) (s : World K N) : Prop :=
  c = .clear → (o = .failed ∨ o = .aborted) → ∀ r ∈ s.rows.rows, r.disabled = true ∨ r.bytes = 0

instance (c : CallStage K) (o : Outcome) (s : World K N) : Decidable (c.current o s) :=
  inferInstanceAs (Decidable (c = .clear → (o = .failed ∨ o = .aborted) →
    ∀ r ∈ s.rows.rows, r.disabled = true ∨ r.bytes = 0))

/-- The sweep is in a build. -/
def Sweep.builds (w : Sweep K) : Bool :=
  match w.stage with
  | .inside _ _ => true
  | _ => false

def Worker.current (s : World K N) (o : Outcome) : Worker K → Prop
  | .sweep w => w.builds = true → o ≠ .failed → o ≠ .aborted → ∀ b ∈ s.building, b.current name s
  | .call c => c.current o s
  | .removal _ _ _ => True

instance (s : World K N) (o : Outcome) : (l : Worker K) → Decidable (l.current name s o)
  | .sweep w => inferInstanceAs (Decidable (w.builds = true → o ≠ .failed → o ≠ .aborted →
      ∀ b ∈ s.building, b.current name s))
  | .call c => inferInstanceAs (Decidable (c.current o s))
  | .removal _ _ _ => .isTrue trivial

/-- A step that lets no output get old: of the build and of the calls. -/
def Current (p : Pool (World K N) (Worker K)) : Pool.Event (Action K) Outcome → Prop
  | .act _ => True
  | .turn i o => ∀ l ∈ p.tasks[i]?, l.current name p.shared o

instance (p : Pool (World K N) (Worker K)) :
    (e : Pool.Event (Action K) Outcome) → Decidable (Current name p e)
  | .act _ => .isTrue trivial
  | .turn i o => inferInstanceAs (Decidable (∀ l ∈ p.tasks[i]?, l.current name p.shared o))

end Model

/-! ## What holds of the world -/

section Facts

variable {K N : Type} [DecidableEq K] {name : K → N} {s s' : World K N} {since : Nat}

/-- Its output, and the one that is being made, come from settings read since then. -/
def Since (name : K → N) (s : World K N) (since : Nat) (key : K) : Prop :=
  (∀ blob, s.blobs (name key) = some blob → since ≤ blob.read_at) ∧
  ∀ b read_at, s.building = some b → b.read_at? = some read_at → since ≤ read_at

/-- So it is for every row of a successful build. -/
def RowsSince (name : K → N) (s : World K N) (since : Nat) (rows : Rows K) : Prop :=
  ∀ r ∈ rows.rows, r.disabled = false → r.bytes ≠ 0 → Since name s since r.key

/-- The output of a build that has stored it, if nobody has deleted it. -/
def Stored (name : K → N) (s : World K N) : Prop :=
  ∀ b read_at, s.building = some b → (b.step = .measure read_at ∨ ∃ bytes, b.step = .record read_at bytes) →
    ∀ blob, s.blobs (name b.key) = some blob → read_at ≤ blob.read_at

structure Sound (name : K → N) (s : World K N) : Prop where
  fresh : RowsSince name s s.cleared s.rows
  stored : Stored name s

/-- A sweep's copy of the rows is good since the sweep started. -/
def Carried (name : K → N) (s : World K N) : Worker K → Prop
  | .sweep w => w.started ≤ s.cleared ∧ RowsSince name s w.started w.built
  | _ => True

/-- What a step may do to the outputs: new ones come from the build, and the build reads its
settings when it does. -/
structure Follows (s s' : World K N) : Prop where
  cleared : s.cleared ≤ s'.cleared
  blobs : ∀ n blob, s'.blobs n = some blob →
    s.blobs n = some blob ∨ ∃ b, s.building = some b ∧ b.read_at? = some blob.read_at
  building : ∀ b' read_at, s'.building = some b' → b'.read_at? = some read_at →
    (∃ b, s.building = some b ∧ b.read_at? = some read_at) ∨ s.cleared ≤ read_at

theorem Follows.refl (s : World K N) : Follows s s :=
  ⟨Nat.le_refl _, fun _ _ found => Or.inl found, fun b _ here read => Or.inl ⟨b, here, read⟩⟩

theorem Since.follows {key : K} (good : Since name s since key) (before : since ≤ s.cleared)
    (step : Follows s s') : Since name s' since key := by
  constructor
  · intro blob found
    rcases step.blobs _ _ found with old | ⟨b, here, read⟩
    · exact good.1 blob old
    · exact good.2 b _ here read
  · intro b' read_at here read
    rcases step.building b' read_at here read with ⟨b, old, read⟩ | later
    · exact good.2 b read_at old read
    · omega

theorem RowsSince.follows {rows : Rows K} (good : RowsSince name s since rows) (before : since ≤ s.cleared)
    (step : Follows s s') : RowsSince name s' since rows := fun r member enabled success =>
  (good r member enabled success).follows before step

theorem Carried.follows {w : Worker K} (carried : Carried name s w) (step : Follows s s') :
    Carried name s' w := by
  cases w with
  | sweep w => exact ⟨Nat.le_trans carried.1 step.cleared, carried.2.follows carried.1 step⟩
  | call c => trivial
  | removal disable key r => trivial

/-- Steps that leave the build as it is keep what is known of its output. -/
theorem Stored.follows (stored : Stored name s) (step : Follows s s') (same : s'.building = s.building) :
    Stored name s' := by
  intro b read_at here stage blob found
  rw [same] at here
  rcases step.blobs _ _ found with old | ⟨b', here', read⟩
  · exact stored b read_at here stage blob old
  · rw [here, Option.some_inj] at here'
    subst here'
    have own : b.read_at? = some read_at := by
      rcases stage with stage | ⟨bytes, stage⟩ <;> simp only [Build.read_at?, stage]
    rw [own, Option.some_inj] at read
    exact Nat.le_of_eq read

/-! ## The statements on the rows -/

theorem mem_record {rows : Rows K} {key : K} {seg_count bytes : Int} {r : Row K}
    (member : r ∈ (record rows key seg_count bytes).rows) :
    r ∈ rows.rows ∨ r.key = key ∧ r.bytes = bytes ∧
      ((rows.get? key).map Row.disabled).getD false = r.disabled := by
  have found : (record rows key seg_count bytes).get? r.key = some r := Table.get?_eq_some.2 ⟨member, rfl⟩
  unfold record at found
  rw [Table.get?_upsert] at found
  by_cases here : r.key = key
  · right
    rw [if_pos here, here] at found
    refine ⟨here, ?_⟩
    cases before : rows.get? key with
    | none =>
        rw [before] at found
        cases found
        exact ⟨rfl, rfl⟩
    | some old =>
        rw [before] at found
        cases found
        exact ⟨rfl, rfl⟩
  · left
    rw [if_neg here] at found
    exact (Table.get?_eq_some.1 found).1

theorem mem_disable_row {rows : Rows K} {key : K} {r : Row K} (member : r ∈ (disable_row rows key).rows) :
    r ∈ rows.rows ∨ r.disabled = true := by
  have found : (disable_row rows key).get? r.key = some r := Table.get?_eq_some.2 ⟨member, rfl⟩
  unfold disable_row at found
  rw [Table.get?_upsert] at found
  by_cases here : r.key = key
  · right
    rw [if_pos here] at found
    cases before : rows.get? r.key with
    | none =>
        rw [before] at found
        cases found
        rfl
    | some old =>
        rw [before] at found
        cases found
        rfl
  · left
    rw [if_neg here] at found
    exact (Table.get?_eq_some.1 found).1

/-- The rows of a step that adds no successful one. -/
theorem RowsSince.subset {rows rows' : Rows K} (good : RowsSince name s since rows)
    (sub : ∀ r ∈ rows'.rows, r ∈ rows.rows ∨ r.disabled = true ∨ r.bytes = 0) :
    RowsSince name s since rows' := by
  intro r member enabled success
  rcases sub r member with old | disabled | failed
  · exact good r old enabled success
  · rw [enabled] at disabled
    cases disabled
  · exact absurd failed success

theorem rowsSince_of_none {rows : Rows K} (none : ∀ r ∈ rows.rows, r.disabled = true ∨ r.bytes = 0) :
    RowsSince name s since rows := by
  intro r member enabled success
  rcases none r member with disabled | failed
  · rw [enabled] at disabled
    cases disabled
  · exact absurd failed success

/-! ## Steps -/

theorem follows_of_same (cleared : s.cleared = s'.cleared) (blobs : s'.blobs = s.blobs)
    (building : s'.building = s.building) : Follows s s' := by
  refine ⟨Nat.le_of_eq cleared, fun n blob found => Or.inl (blobs ▸ found), fun b read_at here read => ?_⟩
  exact Or.inl ⟨b, building ▸ here, read⟩

theorem recorded_same (s : World K N) (key : K) (seg_count bytes : Int) (o : Outcome) :
    (s.recorded key seg_count bytes o).cleared = s.cleared ∧
      (s.recorded key seg_count bytes o).blobs = s.blobs ∧
      (s.recorded key seg_count bytes o).building = s.building := by
  cases o <;> exact ⟨rfl, rfl, rfl⟩

/-- Recording a failure adds no successful row. -/
theorem recorded_zero (s : World K N) (key : K) (seg_count : Int) (o : Outcome) :
    ∀ r ∈ (s.recorded key seg_count 0 o).rows.rows, r ∈ s.rows.rows ∨ r.disabled = true ∨ r.bytes = 0 := by
  intro r member
  cases o with
  | done size =>
      rcases mem_record member with old | ⟨-, failed, -⟩
      · exact Or.inl old
      · exact Or.inr (Or.inr failed)
  | failed => exact Or.inl member
  | aborted => exact Or.inl member

theorem Sound.of_follows (sound : Sound name s) (step : Follows s s') (cleared : s'.cleared = s.cleared)
    (building : s'.building = s.building)
    (sub : ∀ r ∈ s'.rows.rows, r ∈ s.rows.rows ∨ r.disabled = true ∨ r.bytes = 0) : Sound name s' := by
  refine ⟨?_, sound.stored.follows step building⟩
  rw [cleared]
  exact (sound.fresh.follows (Nat.le_refl _) step).subset sub

/-- The build goes on, with the settings it has read, or those of now. -/
theorem follows_next {b : Build K} (here : s.building = some b) (step : BuildStep)
    (reads : ∀ read_at, Build.read_at? { b with step } = some read_at →
      b.read_at? = some read_at ∨ s.cleared ≤ read_at) : Follows s (s.next b step) := by
  refine ⟨Nat.le_refl _, fun n blob found => Or.inl found, fun b' read_at next read => ?_⟩
  cases next
  exact (reads read_at read).imp (fun old => ⟨b, here, old⟩) id

theorem follows_leave (s : World K N) : Follows s s.leave :=
  ⟨Nat.le_refl _, fun _ _ found => Or.inl found, fun b _ here => by cases here⟩

theorem Sound.leave (sound : Sound name s) : Sound name s.leave :=
  ⟨sound.fresh.follows (Nat.le_refl _) (follows_leave s), fun b _ here => by cases here⟩

/-- A step before the output is stored. -/
theorem Sound.next {b : Build K} {step : BuildStep} (sound : Sound name s)
    (follows : Follows s (s.next b step))
    (early : ∀ read_at, step ≠ .measure read_at ∧ ∀ bytes, step ≠ .record read_at bytes) :
    Sound name (s.next b step) := by
  refine ⟨sound.fresh.follows (Nat.le_refl _) follows, fun b' read_at next stage => ?_⟩
  cases next
  rcases stage with stage | ⟨bytes, stage⟩
  · exact absurd stage (early read_at).1
  · exact absurd stage ((early read_at).2 bytes)

theorem sound_record {b : Build K} (sound : Sound name s) (bytes : Int) (o : Outcome)
    (good : bytes ≠ 0 → ∀ size, o = .done size → (s.rows.get? b.key).map Row.disabled ≠ some true →
      ∀ blob, s.blobs (name b.key) = some blob → s.cleared ≤ blob.read_at) :
    Sound name (s.recorded b.key b.seg_count bytes o).leave ∧
      Follows s (s.recorded b.key b.seg_count bytes o).leave := by
  obtain ⟨cleared, blobs, -⟩ := recorded_same s b.key b.seg_count bytes o
  have follows : Follows s (s.recorded b.key b.seg_count bytes o).leave := by
    refine ⟨Nat.le_of_eq cleared.symm, fun n blob found => Or.inl ?_, fun b' _ none => by cases none⟩
    show s.blobs n = some blob
    rw [← blobs]
    exact found
  refine ⟨⟨?_, fun b' _ none => by cases none⟩, follows⟩
  intro r member enabled success
  show Since name _ (s.recorded b.key b.seg_count bytes o).cleared r.key
  rw [cleared]
  have old : r ∈ s.rows.rows → Since name (s.recorded b.key b.seg_count bytes o).leave s.cleared r.key :=
    fun before => (sound.fresh r before enabled success).follows (Nat.le_refl _) follows
  cases o with
  | failed => exact old member
  | aborted => exact old member
  | done size =>
      rcases mem_record member with before | ⟨here, bytes_is, disabled⟩
      · exact old before
      · refine ⟨fun blob found => ?_, fun b' _ none => by cases none⟩
        rw [here] at found
        apply good (bytes_is ▸ success) size rfl ?_ blob found
        intro row_disabled
        rw [row_disabled, enabled] at disabled
        cases disabled

theorem Since.mono {since' : Nat} {key : K} (good : Since name s since key) (earlier : since' ≤ since) :
    Since name s since' key :=
  ⟨fun blob found => Nat.le_trans earlier (good.1 blob found),
    fun b read_at here read => Nat.le_trans earlier (good.2 b read_at here read)⟩

theorem rowsSince_empty : RowsSince name s since .empty := fun _ member => by cases member

/-- A sweep goes on in a world that follows, with the rows it had. -/
theorem carried_go {w : Sweep K} (carried : Carried name s (.sweep w)) (follows : Follows s s')
    (stage : SweepStage K) : Carried name s' (.sweep (w.go stage)) :=
  Carried.follows (w := .sweep (w.go stage)) carried follows

theorem sound_boot (name : K → N) (rows : Rows K) (sizes : N → Option Int) :
    Sound name (World.boot rows sizes) := by
  refine ⟨fun r _ _ _ => ⟨fun blob _ => Nat.zero_le _, fun b _ here => ?_⟩, fun b _ here => ?_⟩
  · cases here
  · cases here

end Facts

/-! ## A turn of each worker -/

section Turns

variable {K N : Type} [DecidableEq K] [DecidableEq N] {pipeline : Pipeline} {name : K → N}
  {s s' : World K N}

theorem follows_without (s : World K N) (n : N) : Follows s (s.without n) := by
  refine ⟨Nat.le_refl _, fun m blob found => Or.inl ?_, fun b _ here read => Or.inl ⟨b, here, read⟩⟩
  unfold World.without at found
  by_cases here : m = n
  · subst here
    simp at found
  · simpa [Function.update_of_ne here] using found

theorem sound_store {b : Build K} {read_at : Nat} (sound : Sound name s) (here : s.building = some b)
    (stage : b.step = .store read_at) (size : Int) {step : BuildStep}
    (next : Build.read_at? { b with step } = some read_at) :
    Sound name ((s.put (name b.key) ⟨size, read_at⟩).next b step) ∧
      Follows s ((s.put (name b.key) ⟨size, read_at⟩).next b step) := by
  have own : b.read_at? = some read_at := by simp only [Build.read_at?, stage]
  have blobs : ((s.put (name b.key) ⟨size, read_at⟩).next b step).blobs =
      Function.update s.blobs (name b.key) (some ⟨size, read_at⟩) := rfl
  have follows : Follows s ((s.put (name b.key) ⟨size, read_at⟩).next b step) := by
    refine ⟨Nat.le_refl _, fun n blob found => ?_, fun b' r is_next read => ?_⟩
    · rw [blobs] at found
      by_cases there : n = name b.key
      · subst there
        rw [Function.update_self] at found
        cases found
        exact Or.inr ⟨b, here, own⟩
      · rw [Function.update_of_ne there] at found
        exact Or.inl found
    · cases is_next
      rw [next] at read
      exact Or.inl ⟨b, here, own.trans read⟩
  refine ⟨⟨sound.fresh.follows (Nat.le_refl _) follows, ?_⟩, follows⟩
  intro b' r is_next staged blob found
  cases is_next
  have same : some read_at = some r := by
    rw [← next]
    rcases staged with staged | ⟨bytes, staged⟩
    · have step_is : step = .measure r := staged
      rw [step_is]
      rfl
    · have step_is : step = .record r bytes := staged
      rw [step_is]
      rfl
  rw [blobs, Function.update_self] at found
  cases found
  cases same
  exact Nat.le_refl _

/-- A step of the build that has the permit. -/
theorem build_turn {b : Build K} (sound : Sound name s) (here : s.building = some b) (o : Outcome)
    (current : ∀ size, o = .done size → b.current name s) :
    Sound name (b.turn pipeline name o s) ∧ Follows s (b.turn pipeline name o s) := by
  have goes : ∀ step, (∀ read_at, step ≠ .measure read_at ∧ ∀ bytes, step ≠ .record read_at bytes) →
      (∀ read_at, Build.read_at? { b with step } = some read_at →
        b.read_at? = some read_at ∨ s.cleared ≤ read_at) →
      Sound name (s.next b step) ∧ Follows s (s.next b step) := by
    intro step early reads
    have follows := follows_next here step reads
    exact ⟨sound.next follows early, follows⟩
  have leaves : Sound name s.leave ∧ Follows s s.leave := ⟨sound.leave, follows_leave s⟩
  unfold Build.turn
  cases stage : b.step with
  | prepare =>
      cases o with
      | done size => exact goes .denoise (by simp) (by simp [Build.read_at?])
      | failed => exact leaves
      | aborted => exact leaves
  | denoise =>
      apply goes (.settings s.cleared) (by simp)
      intro read_at read
      cases read
      exact Or.inr (Nat.le_refl _)
  | settings read_at =>
      have own : ∀ step, Build.read_at? { b with step } = some read_at ∨
          Build.read_at? { b with step } = none →
          ∀ r, Build.read_at? { b with step } = some r → b.read_at? = some r ∨ s.cleared ≤ r := by
        intro step which r read
        rcases which with same | none
        · rw [same] at read
          cases read
          exact Or.inl (by simp only [Build.read_at?, stage])
        · rw [none] at read
          cases read
      cases pipeline with
      | movie => exact goes _ (by simp) (own (.produce read_at) (Or.inl rfl))
      | subs =>
          cases o with
          | done size => exact goes _ (by simp) (own (.produce read_at) (Or.inl rfl))
          | failed => exact goes _ (by simp) (own .fail (Or.inr rfl))
          | aborted => exact leaves
  | produce read_at =>
      cases o with
      | done size =>
          apply goes (.store read_at) (by simp)
          intro r read
          cases read
          exact Or.inl (by simp only [Build.read_at?, stage])
      | failed => exact goes .fail (by simp) (by simp [Build.read_at?])
      | aborted => exact leaves
  | store read_at =>
      cases o with
      | done size =>
          cases pipeline with
          | movie => exact sound_store sound here stage size rfl
          | subs => exact sound_store sound here stage size rfl
      | failed => exact leaves
      | aborted => exact leaves
  | measure read_at =>
      have measured : ∀ bytes, Sound name (s.next b (.record read_at bytes)) ∧
          Follows s (s.next b (.record read_at bytes)) := by
        intro bytes
        have follows : Follows s (s.next b (.record read_at bytes)) := by
          apply follows_next here
          intro r read
          cases read
          exact Or.inl (by simp only [Build.read_at?, stage])
        refine ⟨⟨sound.fresh.follows (Nat.le_refl _) follows, ?_⟩, follows⟩
        intro b' r is_next staged blob found
        cases is_next
        rcases staged with staged | ⟨bytes', staged⟩
        · cases staged
        · cases staged
          exact sound.stored b read_at here (Or.inl stage) blob found
      cases o with
      | done size =>
          cases s.blobs (name b.key) with
          | none => exact measured 0
          | some blob => exact measured blob.size
      | failed => exact measured 0
      | aborted => exact measured 0
  | record read_at bytes =>
      apply sound_record sound
      intro success size done enabled blob found
      have current := current size done
      simp only [Build.current, stage] at current
      rcases current with failed | later | gone | disabled
      · exact absurd failed success
      · exact Nat.le_trans later (sound.stored b read_at here (Or.inr ⟨bytes, stage⟩) blob found)
      · rw [gone] at found
        cases found
      · exact absurd disabled enabled
  | fail =>
      apply sound_record sound
      intro success
      exact absurd rfl success

/-! ### Sweeps -/

/-- A turn of a sweep. -/
theorem sweep_turn {w w' : Sweep K} {o : Outcome} (sound : Sound name s) (carried : Carried name s (.sweep w))
    (current : Worker.current name s o (.sweep w))
    (turned : w.turn pipeline name o s = some (s', w')) :
    Sound name s' ∧ Follows s s' ∧ Carried name s' (.sweep w') := by
  have stays : ∀ stage, s = s' → w.go stage = w' → Sound name s' ∧ Follows s s' ∧ Carried name s' (.sweep w') := by
    rintro stage rfl rfl
    exact ⟨sound, Follows.refl s, carried_go carried (Follows.refl s) stage⟩
  unfold Sweep.turn at turned
  cases stage : w.stage with
  | idle =>
      simp only [stage] at turned
      by_cases enabled : s.enabled = true
      · rw [if_pos enabled] at turned
        cases turned
        exact ⟨sound, Follows.refl s, Nat.le_refl _, rowsSince_empty⟩
      · rw [if_neg enabled] at turned
        cases turned
        exact ⟨sound, Follows.refl s, carried⟩
  | list =>
      simp only [stage] at turned
      cases o with
      | done size =>
          cases turned
          exact stays (.built s.routes) rfl rfl
      | failed =>
          cases turned
          exact stays .idle rfl rfl
      | aborted =>
          cases turned
          exact stays .idle rfl rfl
  | built routes =>
      simp only [stage] at turned
      cases o with
      | done size =>
          cases turned
          exact ⟨sound, Follows.refl s, carried.1, fun r member enabled success =>
            (sound.fresh r member enabled success).mono carried.1⟩
      | failed =>
          cases turned
          exact ⟨sound, Follows.refl s, carried.1, rowsSince_empty⟩
      | aborted =>
          cases turned
          exact ⟨sound, Follows.refl s, carried.1, rowsSince_empty⟩
  | covering routes =>
      simp only [stage] at turned
      cases turned
      exact ⟨sound, Follows.refl s, carried⟩
  | look rest todo =>
      cases rest with
      | nil =>
          simp only [stage] at turned
          cases turned
          exact stays (.queue todo) rfl rfl
      | cons key rest =>
          simp only [stage] at turned
          cases pipeline with
          | movie =>
              cases turned
              exact stays _ rfl rfl
          | subs =>
              by_cases enabled : s.enabled = true
              · simp only [enabled, if_true] at turned
                cases turned
                exact stays _ rfl rfl
              · simp only [enabled] at turned
                cases turned
                exact stays _ rfl rfl
  | queue todo =>
      cases todo with
      | nil =>
          simp only [stage] at turned
          cases turned
          exact stays .idle rfl rfl
      | cons key todo =>
          simp only [stage] at turned
          cases turned
          exact stays _ rfl rfl
  | count key rest todo =>
      simp only [stage] at turned
      cases pipeline with
      | movie =>
          cases o <;> cases turned <;> exact stays _ rfl rfl
      | subs =>
          cases o <;> cases turned <;> exact stays _ rfl rfl
  | note key seg_count rest todo =>
      simp only [stage] at turned
      cases turned
      obtain ⟨cleared, blobs, building⟩ := recorded_same s key seg_count 0 o
      have follows : Follows s (s.recorded key seg_count 0 o) := follows_of_same cleared.symm blobs building
      exact ⟨sound.of_follows follows cleared building (recorded_zero s key seg_count o), follows,
        carried_go carried follows _⟩
  | wait key seg_count rest todo =>
      simp only [stage] at turned
      by_cases free : s.building = none
      · rw [if_pos free] at turned
        cases turned
        have follows : Follows s { s with building := some ⟨key, seg_count, .prepare⟩ } := by
          refine ⟨Nat.le_refl _, fun n blob found => Or.inl found, fun b read_at here read => ?_⟩
          cases here
          cases read
        refine ⟨⟨sound.fresh.follows (Nat.le_refl _) follows, ?_⟩, follows, carried_go carried follows _⟩
        intro b read_at here staged
        cases here
        rcases staged with staged | ⟨bytes, staged⟩ <;> cases staged
      · rw [if_neg free] at turned
        cases turned
  | inside rest todo =>
      simp only [stage] at turned
      obtain ⟨b, here, more⟩ := Option.map_eq_some_iff.1 turned
      cases more
      have now : ∀ size, o = .done size → b.current name s := by
        rintro size rfl
        have within : w.builds = true := by simp only [Sweep.builds, stage]
        exact current within (by simp) (by simp) b here
      obtain ⟨sound', follows⟩ := build_turn sound here o now
      exact ⟨sound', follows, carried_go carried follows _⟩

/-! ### Calls and deletions -/

theorem sound_without (sound : Sound name s) (n : N) : Sound name (s.without n) :=
  sound.of_follows (follows_without s n) rfl rfl fun _ member => Or.inl member

/-- A turn of a call. -/
theorem call_turn {c c' : CallStage K} {o : Outcome} (sound : Sound name s)
    (current : c.current o s)
    (turned : c.turn name o s = some (s', c')) : Sound name s' ∧ Follows s s' := by
  unfold CallStage.turn at turned
  cases c with
  | select =>
      cases o <;> cases turned <;> exact ⟨sound, Follows.refl s⟩
  | blobs keys =>
      cases keys with
      | nil =>
          cases turned
          exact ⟨sound, Follows.refl s⟩
      | cons key keys =>
          cases o with
          | done size =>
              cases turned
              exact ⟨sound_without sound _, follows_without s _⟩
          | failed =>
              cases turned
              exact ⟨sound, Follows.refl s⟩
          | aborted =>
              cases turned
              exact ⟨sound, Follows.refl s⟩
  | clear =>
      have cleared : ∀ rows : Rows K, (∀ r ∈ rows.rows, r.disabled = true ∨ r.bytes = 0) →
          Sound name { s with rows, cleared := s.cleared + 1 } ∧
            Follows s { s with rows, cleared := s.cleared + 1 } := by
        intro rows none
        have follows : Follows s { s with rows, cleared := s.cleared + 1 } :=
          ⟨Nat.le_succ _, fun _ _ found => Or.inl found, fun b _ here read => Or.inl ⟨b, here, read⟩⟩
        exact ⟨⟨rowsSince_of_none none, sound.stored.follows follows rfl⟩, follows⟩
      cases o with
      | done size =>
          cases turned
          apply cleared
          intro r member
          left
          simpa using (Table.mem_delete.1 member).2
      | failed =>
          cases turned
          exact cleared s.rows (current rfl (Or.inl rfl))
      | aborted =>
          cases turned
          exact cleared s.rows (current rfl (Or.inr rfl))
  | returned => cases turned

/-- A turn of a deletion. -/
theorem removal_turn {disable : Bool} {key : K} {r r' : RemovalStage} {o : Outcome} (sound : Sound name s)
    (turned : r.turn name disable key o s = some (s', r')) : Sound name s' ∧ Follows s s' := by
  unfold RemovalStage.turn at turned
  cases r with
  | blob =>
      cases o with
      | done size =>
          cases turned
          exact ⟨sound_without sound _, follows_without s _⟩
      | failed =>
          cases turned
          exact ⟨sound, Follows.refl s⟩
      | aborted =>
          cases turned
          exact ⟨sound, Follows.refl s⟩
  | row =>
      cases o with
      | done size =>
          cases turned
          have follows : Follows s { s with
              rows := if disable then disable_row s.rows key else s.rows.delete fun r => decide (r.key = key) } :=
            follows_of_same rfl rfl rfl
          refine ⟨sound.of_follows follows rfl rfl ?_, follows⟩
          intro r member
          cases disable with
          | true => exact (mem_disable_row member).imp id Or.inl
          | false => exact Or.inl (Table.mem_delete.1 member).1
      | failed =>
          cases turned
          exact ⟨sound, Follows.refl s⟩
      | aborted =>
          cases turned
          exact ⟨sound, Follows.refl s⟩
  | returned => cases o <;> cases turned

/-! ## Every run -/

/-- A turn of any worker. -/
theorem worker_turn {p : Pool (World K N) (Worker K)} {i : Nat} {o : Outcome} {l l' : Worker K} {s' : World K N}
    (sound : Sound name p.shared) (carried : Carried name p.shared l) (current : Current name p (.turn i o))
    (found : p.tasks[i]? = some l) (turned : l.turn pipeline name o p.shared = some (s', l')) :
    Sound name s' ∧ Follows p.shared s' ∧ Carried name s' l' := by
  have current : l.current name p.shared o := current l found
  cases l with
  | sweep w =>
      obtain ⟨⟨t, w'⟩, went, same⟩ := Option.map_eq_some_iff.1 turned
      cases same
      exact sweep_turn sound carried current went
  | call c =>
      obtain ⟨⟨t, c'⟩, went, same⟩ := Option.map_eq_some_iff.1 turned
      cases same
      obtain ⟨sound', follows⟩ := call_turn sound current went
      exact ⟨sound', follows, trivial⟩
  | removal disable key r =>
      obtain ⟨⟨t, r'⟩, went, same⟩ := Option.map_eq_some_iff.1 turned
      cases same
      obtain ⟨sound', follows⟩ := removal_turn sound went
      exact ⟨sound', follows, trivial⟩

/-- In every run in which no build records an output with settings from before a call, and no call's
`DELETE` fails, a sweep takes no output for fresh that is older than a call before it. -/
theorem never_old (pipeline : Pipeline) (name : K → N) (rows : Rows K) (sizes : N → Option Int)
    (p : Pool (World K N) (Worker K))
    (reached : (rules pipeline name).system.Reach (Current name) ⟨World.boot rows sizes, []⟩ p) :
    NeverOld name p := by
  have both : Sound name p.shared ∧ ∀ l ∈ p.tasks, Carried name p.shared l := by
    refine Pool.Rules.Reach.owned reached ⟨sound_boot name rows sizes, by simp⟩ ?_ ?_
    · intro p a s ls sound _ _ acted
      have keeps : p.shared.cleared = s.cleared → s.blobs = p.shared.blobs → s.building = p.shared.building →
          s.rows = p.shared.rows → Sound name s ∧ ∀ m ∈ p.tasks, Carried name p.shared m → Carried name s m := by
        intro cleared blobs building rows
        have follows := follows_of_same cleared blobs building
        refine ⟨sound.of_follows follows cleared.symm building fun r member => Or.inl (rows ▸ member), ?_⟩
        exact fun m _ carried => carried.follows follows
      cases a with
      | spawn =>
          cases acted
          obtain ⟨sound', others⟩ := keeps rfl rfl rfl rfl
          refine ⟨sound', fun l member => ?_, others⟩
          rw [List.mem_singleton.1 member]
          exact ⟨Nat.le_refl _, rowsSince_empty⟩
      | rebuild_all =>
          cases acted
          obtain ⟨sound', others⟩ := keeps rfl rfl rfl rfl
          refine ⟨sound', fun l member => ?_, others⟩
          rw [List.mem_singleton.1 member]
          trivial
      | remove disable key =>
          cases acted
          obtain ⟨sound', others⟩ := keeps rfl rfl rfl rfl
          refine ⟨sound', fun l member => ?_, others⟩
          rw [List.mem_singleton.1 member]
          trivial
      | change routes cover usable enabled =>
          cases acted
          obtain ⟨sound', others⟩ := keeps rfl rfl rfl rfl
          exact ⟨sound', by simp, others⟩
    · intro p i o l s l' sound each current found turned
      obtain ⟨sound', follows, own⟩ :=
        worker_turn sound (each l (List.mem_of_getElem? found)) current found turned
      exact ⟨sound', own, fun m _ carried => carried.follows follows⟩
  intro w member key taken blob found
  obtain ⟨_, built⟩ := both.2 _ member
  unfold Sweep.takes_for_fresh at taken
  split at taken
  · rename_i next rest todo stage
    simp only [Bool.and_eq_true] at taken
    obtain ⟨-, row⟩ := taken
    split at row
    · rename_i r listed
      simp only [Bool.and_eq_true, Bool.not_eq_true', decide_eq_true_eq] at row
      have here := Table.get?_eq_some.1 listed
      have good := built r here.1 row.1.1 row.2
      rw [here.2] at good
      exact good.1 blob found
    · cases row
  · cases taken

end Turns

/-! ## Poles -/

/-- The name of a movie, by the route's name and the camera. -/
private def movie_name (m : Text × Text) : Text :=
  ((Text.split_once '|' m.1).map fun p => Storage.movie_key p.1 p.2 m.2).getD []

private def transcript_name (name : Text) : Text :=
  ((Text.split_once '|' name).map fun p => Storage.subs_key p.1 p.2).getD []

private def turns (K : Type) (i n : Nat) : List (Pool.Event (Action K) Outcome) :=
  List.replicate n (.turn i (.done 7))

/-- One drive whose single segment is there, and a sweep; a call after its first turns. -/
private def raced {K : Type} (key : K) (first rest : Nat) : List (Pool.Event (Action K) Outcome) :=
  [.act (.change [key] (fun _ => some ⟨1, 1⟩) (fun _ => true) true), .act .spawn] ++ turns K 0 first ++
    .act .rebuild_all :: turns K 1 3 ++ turns K 0 rest

private def drive : Text := "d|t"

private def film : Text × Text := (drive, "qcamera")

/-- A build that has read its settings when the call comes, and records its output when it is over,
in either pipeline. -/
theorem old_output_taken_for_fresh :
    (¬ ∀ (rows : Rows (Text × Text)) (sizes : Text → Option Int) p,
      (rules .movie movie_name).system.Reach System.free ⟨World.boot rows sizes, []⟩ p →
        NeverOld movie_name p) ∧
    ¬ ∀ (rows : Rows Text) (sizes : Text → Option Int) p,
      (rules .subs transcript_name).system.Reach System.free ⟨World.boot rows sizes, []⟩ p →
        NeverOld transcript_name p := by
  constructor
  · intro claim
    have run : ∃ p w, (rules .movie movie_name).system.replay ⟨World.boot .empty fun _ => none, []⟩
        (raced film 11 10) = some p ∧
        p.tasks[0]? = some (.sweep w) ∧ w.takes_for_fresh movie_name p.shared film = true ∧
        p.shared.blobs (movie_name film) = some ⟨7, 0⟩ ∧ w.started = 1 := by
      refine ⟨_, _, rfl, rfl, ?_, ?_, ?_⟩ <;> decide
    obtain ⟨p, w, replayed, found, taken, stored, started⟩ := run
    have late := claim _ _ p (System.reach_of_replay replayed) w (List.mem_of_getElem? found) _ taken _ stored
    rw [started] at late
    exact absurd late (by decide)
  · intro claim
    have run : ∃ p w, (rules .subs transcript_name).system.replay ⟨World.boot .empty fun _ => none, []⟩
        (raced drive 9 10) = some p ∧
        p.tasks[0]? = some (.sweep w) ∧ w.takes_for_fresh transcript_name p.shared drive = true ∧
        p.shared.blobs (transcript_name drive) = some ⟨7, 0⟩ ∧ w.started = 1 := by
      refine ⟨_, _, rfl, rfl, ?_, ?_, ?_⟩ <;> decide
    obtain ⟨p, w, replayed, found, taken, stored, started⟩ := run
    have late := claim _ _ p (System.reach_of_replay replayed) w (List.mem_of_getElem? found) _ taken _ stored
    rw [started] at late
    exact absurd late (by decide)

/-- The call comes before the build reads its settings: the next sweep takes the movie for fresh. -/
theorem never_old_after_call : ∃ p w,
    (rules .movie movie_name).system.Reach (Current movie_name) ⟨World.boot .empty fun _ => none, []⟩ p ∧
      NeverOld movie_name p ∧ .sweep w ∈ p.tasks ∧ w.started = 1 ∧
      w.takes_for_fresh movie_name p.shared film = true := by
  have run : ∃ p w, ((rules .movie movie_name).system.guard (Current movie_name)).replay
      ⟨World.boot .empty fun _ => none, []⟩ (raced film 10 11) = some p ∧
      p.tasks[0]? = some (.sweep w) ∧ w.started = 1 ∧ w.takes_for_fresh movie_name p.shared film = true := by
    refine ⟨_, _, rfl, rfl, ?_, ?_⟩ <;> decide
  obtain ⟨p, w, replayed, found, started, taken⟩ := run
  have reached := System.reach_of_replay_guard replayed
  exact ⟨p, w, reached, never_old _ _ _ _ p reached, List.mem_of_getElem? found, started, taken⟩

end HomeConnect.Media.Reencode
