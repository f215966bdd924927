/-
# Drives.Position -- the device's last known position

The last thing `parse_and_store` does is to write the segment's last GPS fix to the
device's row, whatever fix is there.  Segments are parsed in the order the device lists
them, by several workers at once, and all over again after a change of the parser, so an
old fix can be written over a newer one (`older_drive_parsed_later`).

In a run in which segments come to this statement in the order of their last fixes, and it
fails only for one that is not the latest, the stored time never decreases and the position
is the latest of all segments parsed (`position_is_latest`).
-/
import HomeConnect.Drives.Footprint
import HomeConnect.Drives.Ingest
import HomeConnect.Drives.Poles
import HomeConnect.Theory.During

namespace HomeConnect.Drives

open HomeConnect.Theory HomeConnect.Storage

set_option autoImplicit false

/-! ## Positions -/

/-- lat, lng, unix ms -/
abbrev Fix := Rat × Rat × Int

abbrev Fix.time (f : Fix) : Int := f.2.2

/-- The `last_gps_*` columns of a device. -/
def position (w : World) (dongle : Text) : Option Fix :=
  (w.db.accounts.devices.get? dongle).map fun d => (d.last_gps_lat, d.last_gps_lng, d.last_gps_time)

/-- Only one statement writes positions, and it only writes its device's. -/
theorem position_exec {env : Env} {s : Write} {w w' : World} (done : s.exec env w = some w')
    (dongle : Text) :
    position w' dongle =
      match s with
      | .set_last_gps d lat lng time =>
          if d = dongle then (position w dongle).map fun _ => (lat, lng, time) else position w dongle
      | _ => position w dongle := by
  cases s
  case set_last_gps d lat lng time =>
    cases done
    simp only [position, Table.get?_update, Option.map_map]
    by_cases own : d = dongle
    · rw [if_pos own]
      refine Option.map_congr fun row found => ?_
      have key := Table.key_of_get? found
      simp [own, key]
    · rw [if_neg own]
      refine Option.map_congr fun row found => ?_
      have key := Table.key_of_get? found
      have other : row.dongle_id ≠ d := by rw [key]; exact Ne.symm own
      simp [other]
  case add_server_storage d len =>
    cases done
    simp only [position, Table.get?_update, Option.map_map]
    refine Option.map_congr fun row _ => ?_
    simp only [Function.comp]
    split <;> rfl
  all_goals
    have same := (Write.framed done).accounts (by simp [Write.part])
    simp only [position, same]

/-! ## What parsing a segment does to the position -/

/-- Any statement but that of the position. -/
def Write.stationary (s : Write) : Prop := ∀ d lat lng time, s ≠ .set_last_gps d lat lng time

section Stationary

variable (env : Env) (dongle ts : Text) (seg : Int)

theorem stationary_set_segment_file (file : Text) :
    Writes Write.stationary (set_segment_file env dongle ts seg file) := by
  rw [set_segment_file]
  split
  · exact .pure ()
  · refine .bind (.execute ?_) fun _ => .bind (.execute ?_) fun _ => .execute ?_
    all_goals
      intro _ _ _ _ is
      cases is

theorem stationary_upsert_segment (file : Text) (acc : Accum) :
    Writes Write.stationary (upsert_segment env dongle ts seg file acc) := by
  refine .bind (.execute nofun) fun _ => .bind (.execute nofun) fun _ => ?_
  refine .bind (stationary_set_segment_file env dongle ts seg file) fun _ => ?_
  refine Request.Uses.forM fun cam _ => ?_
  exact Writes.bind (.blob_exists env _) fun _ =>
    .ite (stationary_set_segment_file env dongle ts seg cam) (.pure _)

theorem stationary_recompute_route : Writes Write.stationary (recompute_route dongle ts) :=
  .bind (.select _) fun _ => .ite (.pure ()) (.execute nofun)

theorem stationary_artifacts (artifacts : List (Text × Bytes)) :
    Writes Write.stationary (artifacts.forM (put_artifact dongle ts seg)) :=
  Request.Uses.forM fun _ _ => Writes.attempt nofun

end Stationary

/-- A segment's qlog to parse: a new file, an older drive's, or one parsed before. -/
structure Parsing where
  dongle : Text
  ts : Text
  seg : Int
  file : Text
  raw : Bytes
deriving DecidableEq, Repr

def Parsing.program (env : Env) (x : Parsing) : Prog Op (AppResult Unit) :=
  (parse_and_store env x.dongle x.ts x.seg x.file x.raw).run

/-- The last fix of a segment. -/
def Parsing.fix (env : Env) (x : Parsing) : Option Fix :=
  match env.parse x.file x.raw with
  | .ok acc => acc.last_gps
  | .error _ => none

/-- An operation that leaves every position alone. -/
def Op.stationary {β : Type} (f : Op β) : Prop := ∀ s, f.write? = some s → s.stationary

/-- The end of parsing: an error, no fix, or the statement that writes the fix. -/
def Parsing.Ending (env : Env) (x : Parsing) (p : Prog Op (AppResult Unit)) : Prop :=
  (∃ e, p = .ret (.error e)) ∨
  (x.fix env = none ∧ p = .ret (.ok ())) ∨
  ∃ f : Fix, x.fix env = some f ∧
    p = .op (.write (.set_last_gps x.dongle f.1 f.2.1 f.time)) fun _ => .ret (.ok ())

/-- The fix has not been written yet. -/
def Parsing.Owes (env : Env) (x : Parsing) : Prog Op (AppResult Unit) → Prop :=
  Prog.Leads (fun f => f.stationary) (x.Ending env)

theorem Parsing.Owes.bind {env : Env} {x : Parsing} {α : Type} {p : Request Op α}
    {g : α → Request Op Unit} (first : Writes Write.stationary p) (rest : ∀ a, x.Owes env (g a).run) :
    x.Owes env (p >>= g).run := by
  rw [Request.run_bind]
  refine Prog.Leads.bind (Prog.Uses.mono first fun _ ok => ok.2) fun r => ?_
  cases r with
  | ok a => exact rest a
  | error e => exact .here (.inl ⟨e, rfl⟩)

theorem Parsing.owes_program (env : Env) (x : Parsing) : x.Owes env (x.program env) := by
  unfold Parsing.program
  cases parsed : env.parse x.file x.raw with
  | error e =>
      rw [parse_and_store, parsed]
      exact .inl ⟨e, rfl⟩
  | ok acc =>
      have fix : x.fix env = acc.last_gps := by simp only [Parsing.fix, parsed]
      have rest : parse_and_store env x.dongle x.ts x.seg x.file x.raw =
          ((acc.artifacts env).forM (put_artifact x.dongle x.ts x.seg) >>= fun _ =>
            upsert_segment env x.dongle x.ts x.seg x.file acc >>= fun _ =>
            recompute_route x.dongle x.ts >>= fun _ =>
            write_route_meta x.dongle x.ts acc >>= fun _ => update_last_gps x.dongle acc) := by
        rw [parse_and_store, parsed]
        rfl
      rw [rest]
      refine .bind (stationary_artifacts _ _ _ _) fun _ => ?_
      refine .bind (stationary_upsert_segment env _ _ _ _ acc) fun _ => ?_
      refine .bind (stationary_recompute_route _ _) fun _ => .bind (.execute nofun) fun _ => ?_
      rw [update_last_gps]
      cases last : acc.last_gps with
      | none => exact .here (.inr (.inl ⟨fix.trans last, rfl⟩))
      | some f => exact .here (.inr (.inr ⟨f, fix.trans last, rfl⟩))

/-! ## Any number of segments at once -/

abbrev ParseTask := Task Parsing Op (AppResult Unit)

/-- Another segment is parsed, or the rest of the server does something, which is never
to write a position. -/
inductive ParseAct
  | parse (x : Parsing)
  | meanwhile (w : World)

def positions (w : World) : List (Text × Fix) :=
  w.db.accounts.devices.rows.map fun d => (d.dongle_id, d.last_gps_lat, d.last_gps_lng, d.last_gps_time)

def parseRules (env : Env) : Pool.Rules World ParseTask ParseAct Outcome where
  act
    | .parse x, w => some (w, [⟨x, x.program env⟩])
    | .meanwhile w', w => if positions w' = positions w then some (w', []) else none
  turn := Task.turn (Op.exec env)

/-- A segment of the device has been parsed and has this last fix. -/
def ParsedFix (env : Env) (dongle : Text) (tasks : List ParseTask) (f : Fix) : Prop :=
  ∃ t ∈ tasks, t.tag.dongle = dongle ∧ t.prog.result? = some (.ok ()) ∧ t.tag.fix env = some f

/-- Segments of the device are parsed in the order of their last fixes: where a segment comes
to the statement that writes its fix, none parsed before has a later one, and neither had the
device at first.  The statement fails only where one parsed before has a fix as late. -/
def InFixOrder (env : Env) (dongle : Text) (first : Fix) (p : Pool World ParseTask) :
    Pool.Event ParseAct Outcome → Prop
  | .act _ => True
  | .turn i o => ∀ t, p.tasks[i]? = some t → ∀ f : Fix,
      next_write t = some (.set_last_gps dongle f.1 f.2.1 f.time) →
        if o = .failed then ∃ g, ParsedFix env dongle p.tasks g ∧ f.time ≤ g.time
        else first.time ≤ f.time ∧ ∀ g, ParsedFix env dongle p.tasks g → g.time ≤ f.time

/-- The position is the latest of those parsed; without one, what it was. -/
def Latest (first : Fix) (parsed : Fix → Prop) (pos : Fix) : Prop :=
  (∀ f, ¬ parsed f) ∧ pos = first ∨ parsed pos ∧ ∀ f, parsed f → f.time ≤ pos.time

theorem position_of_positions (w : World) (dongle : Text) :
    position w dongle = ((positions w).find? fun d => decide (d.1 = dongle)).map Prod.snd := by
  unfold position positions Table.get?
  rw [List.find?_map, Option.map_map]
  rfl

/-- What an operation does to a device's position. -/
theorem position_op (env : Env) {β : Type} (f : Op β) (o : Outcome) (w : World) (dongle : Text) :
    position (f.exec env o w).2 dongle = position w dongle ∨
      ∃ lat lng time, f.write? = some (.set_last_gps dongle lat lng time) ∧ o ≠ .failed ∧
        position (f.exec env o w).2 dongle = (position w dongle).map fun _ => (lat, lng, time) := by
  rcases Op.exec_cases env f o w with same | ⟨s, w', is, carried, done, after⟩ | ⟨q, same⟩
  · exact .inl (by rw [same])
  · rw [after, position_exec done]
    cases s
    case set_last_gps d lat lng time =>
      by_cases own : d = dongle
      · subst own
        exact .inr ⟨lat, lng, time, is, carried, if_pos rfl⟩
      · exact .inl (if_neg own)
    all_goals exact .inl rfl
  · exact .inl (by rw [same]; rfl)

section Run

variable {env : Env} {dongle : Text}

/-- What a task is: it owes its fix, or has written it and returned. -/
def Orderly (env : Env) (t : ParseTask) : Prop := t.tag.Owes env t.prog ∨ t.prog = .ret (.ok ())

/-- A task that still owes its fix has no part in the parsed ones. -/
theorem no_fix_of_owes {t : ParseTask} (owes : t.tag.Owes env t.prog) {f : Fix}
    (returned : t.prog.result? = some (.ok ())) : t.tag.fix env ≠ some f := by
  intro fix
  obtain ⟨x, prog⟩ := t
  cases prog with
  | op g k => cases returned
  | ret r =>
      cases returned
      rcases owes with ⟨e, error⟩ | ⟨none, _⟩ | ⟨f', _, op⟩
      · cases error
      · rw [none] at fix
        cases fix
      · cases op

/-- The invariant of a run in order. -/
structure Tracked (env : Env) (dongle : Text) (first : Fix) (p : Pool World ParseTask) : Prop where
  latest : ∃ pos, position p.shared dongle = some pos ∧ Latest first (ParsedFix env dongle p.tasks) pos
  orderly : ∀ t ∈ p.tasks, Orderly env t

/-- One more is parsed whose fix is no later than that of another. -/
theorem Latest.behind {first pos f g : Fix} {parsed parsed' : Fix → Prop} (latest : Latest first parsed pos)
    (before : parsed g) (le : f.time ≤ g.time) (now : ∀ h, parsed' h ↔ parsed h ∨ h = f) :
    Latest first parsed' pos := by
  rcases latest with ⟨none, _⟩ | ⟨mine, bound⟩
  · exact absurd before (none g)
  · refine .inr ⟨(now pos).2 (.inl mine), fun h is => ?_⟩
    rcases (now h).1 is with old | rfl
    · exact bound h old
    · exact Int.le_trans le (bound g before)

/-- A fix that is no older than the one stored, stored as the next. -/
theorem Latest.advance {first pos f : Fix} {parsed parsed' : Fix → Prop} (latest : Latest first parsed pos)
    (later : pos.time ≤ f.time) (now : ∀ g, parsed' g ↔ parsed g ∨ g = f) : Latest first parsed' f := by
  right
  refine ⟨(now f).2 (.inr rfl), fun g is => ?_⟩
  rcases (now g).1 is with old | rfl
  · rcases latest with ⟨none, _⟩ | ⟨_, bound⟩
    · exact absurd old (none g)
    · exact Int.le_trans (bound g old) later
  · exact Int.le_refl _

/-- No fix in order is older than the position. -/
theorem Latest.le {first pos : Fix} {parsed : Fix → Prop} (latest : Latest first parsed pos) {time : Int}
    (after_first : first.time ≤ time) (after : ∀ g, parsed g → g.time ≤ time) : pos.time ≤ time := by
  rcases latest with ⟨_, rfl⟩ | ⟨mine, _⟩
  · exact after_first
  · exact after pos mine

theorem Latest.congr {first pos : Fix} {parsed parsed' : Fix → Prop} (latest : Latest first parsed pos)
    (same : ∀ g, parsed' g ↔ parsed g) : Latest first parsed' pos := by
  rcases latest with ⟨none, is⟩ | ⟨mine, bound⟩
  · exact .inl ⟨fun g => by rw [same]; exact none g, is⟩
  · exact .inr ⟨(same pos).2 mine, fun g is => bound g ((same g).1 is)⟩

/-- The parsed fixes after a task's turn: those of before, and the task's own. -/
theorem parsed_after_turn {tasks : List ParseTask} {i : Nat} {t t' : ParseTask}
    (found : tasks[i]? = some t) (running : t.prog.result? = none) (f : Fix) :
    ParsedFix env dongle (tasks.set i t') f ↔
      ParsedFix env dongle tasks f ∨
        t'.tag.dongle = dongle ∧ t'.prog.result? = some (.ok ()) ∧ t'.tag.fix env = some f := by
  constructor
  · rintro ⟨u, member, is⟩
    rcases Pool.mem_set_cases member with rfl | ⟨j, _, at_j⟩
    · exact .inr is
    · exact .inl ⟨u, List.mem_of_getElem? at_j, is⟩
  · rintro (⟨u, member, is⟩ | is)
    · rcases Pool.mem_set_of_mem t' found member with rfl | still
      · rw [running] at is
        cases is.2.1
      · exact ⟨u, still, is⟩
    · exact ⟨t', Pool.mem_set_self t' found, is⟩

/-- A step of a run in order keeps the device's row and the invariant, and the time does not
decrease. -/
theorem Tracked.turn {first pos : Fix} {p : Pool World ParseTask} {i : Nat} {o : Outcome} {t t' : ParseTask}
    {w : World} (stored : position p.shared dongle = some pos)
    (latest : Latest first (ParsedFix env dongle p.tasks) pos) (orderly : ∀ t ∈ p.tasks, Orderly env t)
    (in_order : InFixOrder env dongle first p (.turn i o)) (found : p.tasks[i]? = some t)
    (turned : t.turn (Op.exec env) o p.shared = some (w, t')) :
    ∃ pos', position w dongle = some pos' ∧ pos.time ≤ pos'.time ∧
      Latest first (ParsedFix env dongle (p.tasks.set i t')) pos' ∧ ∀ t ∈ p.tasks.set i t', Orderly env t := by
  have own := orderly t (List.mem_of_getElem? found)
  obtain ⟨β, f, k, next, rfl, rfl⟩ := Task.turn_cases turned
  have running : t.prog.result? = none := by rw [next]; rfl
  have parsed := fun g => @parsed_after_turn env dongle _ _ _ ⟨t.tag, k (f.exec env o p.shared).1⟩ found running g
  have others : Orderly env ⟨t.tag, k (f.exec env o p.shared).1⟩ → ∀ u ∈ p.tasks.set i
      ⟨t.tag, k (f.exec env o p.shared).1⟩, Orderly env u := by
    intro own u member
    rcases List.mem_or_eq_of_mem_set member with old | rfl
    · exact orderly u old
    · exact own
  rcases own with owes | returned
  · rw [next] at owes
    rcases owes with ending | ⟨quiet, rest⟩
    · -- the statement that writes the fix
      rcases ending with ⟨e, error⟩ | ⟨_, above⟩ | ⟨g, fix, update⟩
      · cases error
      · cases above
      · cases update
        by_cases own : t.tag.dongle = dongle
        · have about : next_write t = some (.set_last_gps dongle g.1 g.2.1 g.time) := by
            rw [← own]
            simp only [next_write, next]
            rfl
          have order := in_order t found g about
          have now : ∀ h, ParsedFix env dongle (p.tasks.set i ⟨t.tag, .ret (.ok ())⟩) h ↔
              ParsedFix env dongle p.tasks h ∨ h = g := by
            intro h
            rw [parsed]
            refine or_congr_right ⟨?_, ?_⟩
            · rintro ⟨_, _, is⟩
              rw [fix] at is
              exact (Option.some.inj is).symm
            · rintro rfl
              exact ⟨own, rfl, fix⟩
          by_cases failed : o = .failed
          · rw [if_pos failed] at order
            obtain ⟨h, before, le⟩ := order
            subst failed
            exact ⟨pos, stored, Int.le_refl _, latest.behind before le now, others (.inr rfl)⟩
          · rw [if_neg failed] at order
            have later := latest.le order.1 order.2
            have written : position ((Op.write (.set_last_gps t.tag.dongle g.1 g.2.1 g.time)).exec
                env o p.shared).2 dongle = some g := by
              rw [own]
              cases o with
              | failed => exact absurd rfl failed
              | _ =>
                  have done : Write.exec env (.set_last_gps dongle g.1 g.2.1 g.time) p.shared = some _ := rfl
                  have after := position_exec done dongle
                  simp only [if_true, stored, Option.map_some] at after
                  exact after
            exact ⟨g, written, later, latest.advance later now, others (.inr rfl)⟩
        · refine ⟨pos, ?_, Int.le_refl _, latest.congr fun h => ?_, others (.inr rfl)⟩
          · rcases position_op env (Op.write (.set_last_gps t.tag.dongle g.1 g.2.1 g.time)) o
              p.shared dongle with same | ⟨lat, lng, time, is, _, _⟩
            · exact same.trans stored
            · cases is
              exact absurd rfl own
          · rw [parsed]
            exact ⟨fun is => is.elim id fun mine => absurd mine.1 own, .inl⟩
    · refine ⟨pos, ?_, Int.le_refl _, latest.congr fun h => ?_, others (.inl (rest _))⟩
      · rcases position_op env f o p.shared dongle with same | ⟨lat, lng, time, is, _, _⟩
        · exact same.trans stored
        · exact absurd rfl (quiet _ is dongle lat lng time)
      · rw [parsed]
        exact ⟨fun is => is.elim id fun mine => absurd mine.2.2
          (no_fix_of_owes (t := ⟨t.tag, k (f.exec env o p.shared).1⟩) (rest _) mine.2.1), .inl⟩
  · rw [next] at returned
    cases returned

theorem Tracked.step {first pos : Fix} {p p' : Pool World ParseTask} {e : Pool.Event ParseAct Outcome}
    (tracked : Tracked env dongle first p) (stored : position p.shared dongle = some pos)
    (in_order : InFixOrder env dongle first p e) (stepped : (parseRules env).system.step p e = some p') :
    Tracked env dongle first p' ∧ ∃ pos', position p'.shared dongle = some pos' ∧ pos.time ≤ pos'.time := by
  obtain ⟨⟨pos₀, stored₀, latest⟩, orderly⟩ := tracked
  rw [stored] at stored₀
  cases stored₀
  obtain ⟨a, w', ts, rfl, acted, rfl⟩ | ⟨i, o, t, w', t', rfl, found, turned, rfl⟩ :=
    Pool.Rules.step_cases stepped
  · cases a with
    | parse x =>
        cases acted
        have owes := x.owes_program env
        refine ⟨⟨⟨pos, stored, latest.congr fun f => ⟨?_, ?_⟩⟩, fun t member => ?_⟩, pos, stored, Int.le_refl _⟩
        · rintro ⟨t, member, own, returned, fix⟩
          rcases List.mem_append.1 member with old | new
          · exact ⟨t, old, own, returned, fix⟩
          · rw [List.mem_singleton.1 new] at returned fix
            exact absurd fix (no_fix_of_owes (t := ⟨x, _⟩) owes returned)
        · rintro ⟨t, member, is⟩
          exact ⟨t, List.mem_append_left _ member, is⟩
        · rcases List.mem_append.1 member with old | new
          · exact orderly t old
          · rw [List.mem_singleton.1 new]
            exact .inl owes
    | meanwhile w'' =>
        obtain ⟨same, acted⟩ := Option.ite_none_right_eq_some.1 acted
        cases acted
        have kept : position w' dongle = some pos := by
          rw [position_of_positions, same, ← position_of_positions, stored]
        show Tracked env dongle first ⟨w', p.tasks ++ []⟩ ∧ _
        rw [List.append_nil]
        exact ⟨⟨⟨pos, kept, latest⟩, orderly⟩, pos, kept, Int.le_refl _⟩
  · obtain ⟨pos', after, le, latest', orderly'⟩ := Tracked.turn stored latest orderly in_order found turned
    exact ⟨⟨⟨pos', after, latest'⟩, orderly'⟩, pos', after, le⟩

theorem tracked_of_reach {w : World} {first : Fix} {p : Pool World ParseTask}
    (stored : position w dongle = some first)
    (reached : (parseRules env).system.Reach (InFixOrder env dongle first) ⟨w, []⟩ p) :
    Tracked env dongle first p := by
  refine reached.invariant ⟨⟨first, stored, .inl ⟨?_, rfl⟩⟩, fun t none => (List.not_mem_nil none).elim⟩ ?_
  · rintro f ⟨t, none, _⟩
    exact List.not_mem_nil none
  · intro p e p' tracked in_order stepped
    obtain ⟨pos, stored, _⟩ := tracked.latest
    exact (tracked.step stored in_order stepped).1

/-- **The position is the latest.**  In a run whose segments come in the order of their last
fixes, the position's time never decreases, and at any time it is the latest fix of the
segments parsed so far. -/
theorem position_is_latest (env : Env) (dongle : Text) (w : World) (first : Fix)
    (registered : position w dongle = some first) (p p' : Pool World ParseTask)
    (reached : (parseRules env).system.Reach (InFixOrder env dongle first) ⟨w, []⟩ p)
    (onwards : (parseRules env).system.Reach (InFixOrder env dongle first) p p') :
    ∃ pos pos', position p.shared dongle = some pos ∧ position p'.shared dongle = some pos' ∧
      pos.time ≤ pos'.time ∧ Latest first (ParsedFix env dongle p'.tasks) pos' := by
  have tracked := tracked_of_reach registered reached
  obtain ⟨pos, stored, _⟩ := tracked.latest
  have later : Tracked env dongle first p' ∧
      ∃ later, position p'.shared dongle = some later ∧ pos.time ≤ later.time := by
    refine onwards.invariant (I := fun q => Tracked env dongle first q ∧
      ∃ later, position q.shared dongle = some later ∧ pos.time ≤ later.time)
      ⟨tracked, pos, stored, Int.le_refl _⟩ ?_
    rintro q e q' ⟨tracked, later, at_later, le⟩ in_order stepped
    obtain ⟨tracked', later', at_later', le'⟩ := tracked.step at_later in_order stepped
    exact ⟨tracked', later', at_later', Int.le_trans le le'⟩
  obtain ⟨tracked', later, at_later, le⟩ := later
  obtain ⟨pos', stored', latest⟩ := tracked'.latest
  rw [stored'] at at_later
  cases Option.some.inj at_later
  exact ⟨pos, _, stored, stored', le, latest⟩

end Run

/-! ## Poles -/

private def one_car : World := one_device { dongle_id := "d" }

/-- A log is one byte long: its last fix was taken that many seconds after 1970. -/
private def dated_env : Env :=
  { plain_env with
    parse := fun _ raw => .ok { last_gps := (raw.head?).map fun b => (1, 2, 1000 * b.toNat) } }

private def parse_drive (ts : Text) (seconds : UInt8) : Pool.Event ParseAct Outcome :=
  .act (.parse ⟨"d", ts, 0, "qlog.zst", [seconds]⟩)

private def all_turns (i : Nat) : List (Pool.Event ParseAct Outcome) := List.replicate 13 (.turn i .ok)

/-- Yesterday's drive, pulled and parsed after today's, moves the device back. -/
theorem older_drive_parsed_later : ¬ ∀ (env : Env) (dongle : Text) (w : World) (first : Fix),
    position w dongle = some first → ∀ p p' : Pool World ParseTask,
    (parseRules env).system.Reach System.free ⟨w, []⟩ p →
    (parseRules env).system.Reach System.free p p' →
    ∃ pos pos', position p.shared dongle = some pos ∧ position p'.shared dongle = some pos' ∧
      pos.time ≤ pos'.time ∧ Latest first (ParsedFix env dongle p'.tasks) pos' := by
  intro claim
  have run : ((parseRules dated_env).system.replay ⟨one_car, []⟩
      (parse_drive "today" 2 :: all_turns 0)).any (fun p =>
        decide (position p.shared "d" = some (1, 2, 2000)) &&
        ((parseRules dated_env).system.replay p (parse_drive "yesterday" 1 :: all_turns 1)).any fun p' =>
          decide (position p'.shared "d" = some (1, 2, 1000))) = true := by
    decide
  obtain ⟨p, replayed, both⟩ := (Option.any_eq_true _ _).1 run
  rw [Bool.and_eq_true] at both
  obtain ⟨p', replayed', back⟩ := (Option.any_eq_true _ _).1 both.2
  obtain ⟨pos, pos', at_pos, at_pos', le, _⟩ := claim dated_env "d" one_car (0, 0, 0) (by decide)
    p p' (System.reach_of_replay replayed) (System.reach_of_replay replayed')
  rw [of_decide_eq_true both.1] at at_pos
  rw [of_decide_eq_true back] at at_pos'
  cases at_pos
  cases at_pos'
  exact absurd le (by decide)

/-- The last fixes of the car's parsed segments. -/
private def parsed_fixes (tasks : List ParseTask) : List Fix :=
  tasks.filterMap fun t =>
    if t.tag.dongle = ("d" : Text) ∧ t.prog.result? = some (.ok ()) then t.tag.fix dated_env else none

private theorem mem_parsed_fixes {tasks : List ParseTask} {f : Fix} :
    f ∈ parsed_fixes tasks ↔ ParsedFix dated_env "d" tasks f := by
  simp only [parsed_fixes, List.mem_filterMap, Option.ite_none_right_eq_some, ParsedFix, and_assoc]

/-- A check for `InFixOrder`. -/
private def in_order (p : Pool World ParseTask) : Pool.Event ParseAct Outcome → Bool
  | .act _ => true
  | .turn i .ok =>
      match (p.tasks[i]?).bind next_write with
      | some (.set_last_gps _ _ _ time) =>
          0 ≤ time && (parsed_fixes p.tasks).all fun g => g.time ≤ time
      | _ => true
  | .turn _ _ => false

private theorem inFixOrder_of_check (p : Pool World ParseTask) (e : Pool.Event ParseAct Outcome)
    (checked : in_order p e = true) : InFixOrder dated_env "d" (0, 0, 0) p e := by
  cases e with
  | act a => trivial
  | turn i o =>
      intro t found f about
      cases o with
      | ok =>
          rw [if_neg (by simp)]
          simp only [in_order, found, Option.bind_some, about, Bool.and_eq_true, decide_eq_true_eq,
            List.all_eq_true] at checked
          exact ⟨checked.1, fun g parsed => checked.2 g (mem_parsed_fixes.2 parsed)⟩
      | failed => cases checked
      | encoded bytes => cases checked
      | probed duration => cases checked

/-- The same two drives, the older one first. -/
theorem position_is_latest_in_order : ∃ p : Pool World ParseTask,
    (parseRules dated_env).system.Reach (InFixOrder dated_env "d" (0, 0, 0)) ⟨one_car, []⟩ p ∧
      position p.shared "d" = some (1, 2, 2000) ∧
      Latest (0, 0, 0) (ParsedFix dated_env "d" p.tasks) (1, 2, 2000) := by
  have run : (((parseRules dated_env).system.guard fun p e => in_order p e = true).replay ⟨one_car, []⟩
      (parse_drive "yesterday" 1 :: all_turns 0 ++ parse_drive "today" 2 :: all_turns 1)).any (fun p =>
        decide (position p.shared "d" = some (1, 2, 2000))) = true := by
    decide
  obtain ⟨p, replayed, now⟩ := (Option.any_eq_true _ _).1 run
  have reached := (System.reach_of_replay_guard replayed).mono inFixOrder_of_check
  obtain ⟨pos, pos', _, at_pos', _, latest⟩ := position_is_latest dated_env "d" one_car (0, 0, 0)
    (by decide) p p reached .start
  rw [of_decide_eq_true now] at at_pos'
  cases at_pos'
  exact ⟨p, reached, of_decide_eq_true now, latest⟩

end HomeConnect.Drives
