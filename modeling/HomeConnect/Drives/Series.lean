/-
# Drives.Series -- when the series of a segment are sorted by time

The viewer finds a sample by binary search over `t` (`findNearest`), in the coordinates
and telemetry of a qlog and in the model frames of an rlog.  `t` is the log time since
the log's first message, 0 for anything before it.

The telemetry takes a sample only a quarter of a second after the one before, so it is
always sorted (`telemetry_sorted`).  Nothing orders the positions and the model frames:
they are sorted exactly when their messages are (`series_sorted_iff`), and two positions
logged out of order are not (`positions_out_of_order`).
-/
import HomeConnect.Drives.Parse

namespace HomeConnect.Drives

open HomeConnect.Theory HomeConnect.Storage

set_option autoImplicit false

/-! ## The messages a series is made of -/

/-- Does a message add a position? -/
def Which.fix : Which → Bool
  | .gpsLocationExternal gps | .gpsLocation gps => gps.fix
  | _ => false

/-- The log times of the messages with a GPS fix. -/
def fixes (messages : List Message) : List UInt64 :=
  (messages.filter fun m => (m.which.map Which.fix).getD false).map Message.mono

/-- The log time of the first message of a known kind. -/
def first_known (messages : List Message) : UInt64 :=
  ((messages.find? fun m => m.which.isSome).map Message.mono).getD 0

def Which.is_model : Which → Bool
  | .modelV2 _ => true
  | _ => false

/-- The log times of the model messages. -/
def model_times (messages : List Message) : List UInt64 :=
  (messages.filter fun m => (m.which.map Which.is_model).getD false).map Message.mono

/-- Every `FRAME_STEP`-th, when `idx` have gone before. -/
def thinned : Nat → List UInt64 → List UInt64
  | _, [] => []
  | idx, mono :: rest =>
      if (idx + 1) % FRAME_STEP ≠ 0 then thinned (idx + 1) rest
      else mono :: thinned (idx + 1) rest

/-- The log time of the first message. -/
def first_message (messages : List Message) : UInt64 := (messages.head?.map Message.mono).getD 0

/-- Logged in order, save for times that are shown as 0. -/
def InOrder (base : UInt64) (times : List UInt64) : Prop := times.Pairwise fun a b => a ≤ b ∨ a ≤ base

/-- What the binary search requires. -/
def TimeSorted (series : List Rat) : Prop := series.Pairwise fun a b => a ≤ b

theorem sorted_clock_iff (base : UInt64) (times : List UInt64) :
    TimeSorted (times.map (clock base)) ↔ InOrder base times := by
  unfold TimeSorted InOrder
  rw [List.pairwise_map]
  constructor
  · intro sorted
    exact sorted.imp fun le => (clock_le_iff base _ _).1 le
  · intro order
    exact order.imp fun le => (clock_le_iff base _ _).2 le

/-! ## Positions and telemetry -/

/-- What an accumulator holds, once the base is known: a position for each fix, and
samples that are in order up to the last one's log time. -/
structure Timed (base : UInt64) (seen : List UInt64) (acc : Accum) : Prop where
  based : acc.route_base_mono = some base
  positions : acc.coords.map Coord.t = seen.map (clock base)
  samples : ∃ times : List UInt64, acc.telemetry.map Telem.t = times.map (clock base) ∧
    times.Pairwise (· ≤ ·) ∧ ∀ time ∈ times, time ≤ acc.last_telem_mono

/-- Nothing of this depends on what else was gathered. -/
theorem Timed.congr {base : UInt64} {seen : List UInt64} {acc acc' : Accum} (timed : Timed base seen acc)
    (based : acc'.route_base_mono = acc.route_base_mono) (coords : acc'.coords = acc.coords)
    (telemetry : acc'.telemetry = acc.telemetry)
    (last : acc'.last_telem_mono = acc.last_telem_mono) : Timed base seen acc' where
  based := by rw [based]; exact timed.based
  positions := by rw [coords]; exact timed.positions
  samples := by rw [telemetry, last]; exact timed.samples

theorem timed_emit {base : UInt64} {seen : List UInt64} {acc : Accum} (timed : Timed base seen acc)
    (fl : Floats) (t : Rat) (mono : UInt64) : Timed base seen (emit_state_change fl acc t mono) := by
  unfold emit_state_change
  dsimp only
  split
  · exact timed
  · exact timed.congr rfl rfl rfl rfl

theorem timed_gps {base : UInt64} {seen : List UInt64} {acc : Accum} (fl : Floats)
    (timed : Timed base seen acc) (gps : Gps) (mono : UInt64) :
    Timed base (seen ++ if gps.fix then [mono] else []) (accumulate_gps fl acc gps (clock base mono)) := by
  unfold accumulate_gps
  by_cases fix : gps.fix = true
  · simp only [fix, if_true]
    constructor
    · exact timed.based
    · show (acc.coords ++ [_]).map Coord.t = _
      rw [List.map_append, List.map_append, timed.positions]
      rfl
    · exact timed.samples
  · simp only [fix]
    rw [if_neg (by simp), if_neg (by simp), List.append_nil]
    exact timed

/-- A sample is taken no earlier than the last one. -/
theorem timed_car {base : UInt64} {seen : List UInt64} {acc : Accum} (timed : Timed base seen acc)
    (cs : CarState) (mono : UInt64) :
    Timed base seen (accumulate_car acc cs (clock base mono) mono) := by
  unfold accumulate_car
  split
  · rename_i due
    have later : acc.last_telem_mono ≤ mono := by
      simp only [Bool.and_eq_true, decide_eq_true_eq] at due
      exact UInt64.le_trans (le_saturating_add _ _) due.2
    obtain ⟨times, same, sorted, bounded⟩ := timed.samples
    refine ⟨timed.based, timed.positions, times ++ [mono], ?_, ?_, ?_⟩
    · show (acc.telemetry ++ [_]).map Telem.t = _
      rw [List.map_append, List.map_append, same]
      rfl
    · rw [List.pairwise_append]
      refine ⟨sorted, List.pairwise_singleton _ _, ?_⟩
      intro time member last is_last
      rw [List.mem_singleton.1 is_last]
      exact UInt64.le_trans (bounded time member) later
    · intro time member
      show time ≤ mono
      rcases List.mem_append.1 member with old | new
      · exact UInt64.le_trans (bounded time old) later
      · rw [List.mem_singleton.1 new]
        exact UInt64.le_refl mono
  · exact timed

theorem timed_accumulate {base : UInt64} {seen : List UInt64} {acc : Accum} (fl : Floats)
    (timed : Timed base seen acc) (which : Which) (mono : UInt64) :
    Timed base (seen ++ if which.fix then [mono] else []) (accumulate fl acc which mono) := by
  have based : acc.route_base_mono.getD mono = base := by rw [timed.based]; rfl
  have again : Timed base seen { acc with route_base_mono := some base } :=
    timed.congr timed.based.symm rfl rfl rfl
  unfold accumulate
  rw [based]
  cases which with
  | gpsLocationExternal gps => exact timed_gps fl again gps mono
  | gpsLocation gps => exact timed_gps fl again gps mono
  | selfdriveState ss =>
      show Timed base (seen ++ []) _
      rw [List.append_nil]
      refine timed_emit ?_ fl (clock base mono) mono
      exact again.congr rfl rfl rfl rfl
  | selfdriveStateSP active =>
      show Timed base (seen ++ []) _
      rw [List.append_nil]
      cases active with
      | none => exact again
      | some active =>
          refine timed_emit ?_ fl (clock base mono) mono
          exact again.congr rfl rfl rfl rfl
  | carState cs =>
      show Timed base (seen ++ []) _
      rw [List.append_nil]
      exact timed_car again cs mono
  | thumbnail bytes =>
      show Timed base (seen ++ []) _
      rw [List.append_nil]
      cases bytes <;> exact again.congr rfl rfl rfl rfl
  | _ =>
      show Timed base (seen ++ []) _
      rw [List.append_nil]
      exact again.congr rfl rfl rfl rfl

theorem timed_messages {base : UInt64} (fl : Floats) (messages : List Message) {seen : List UInt64}
    {acc : Accum} (timed : Timed base seen acc) :
    Timed base (seen ++ fixes messages) (messages.foldl (accumulate_message fl) acc) := by
  induction messages generalizing seen acc with
  | nil =>
      rw [show fixes [] = [] from rfl, List.append_nil]
      exact timed
  | cons m messages ih =>
      rw [List.foldl_cons]
      cases which : m.which with
      | none =>
          have skipped : accumulate_message fl acc m = acc := by simp only [accumulate_message, which]
          have same : fixes (m :: messages) = fixes messages := by simp [fixes, which]
          rw [skipped, same]
          exact ih timed
      | some w =>
          have taken : accumulate_message fl acc m = accumulate fl acc w m.mono := by
            simp only [accumulate_message, which]
          have more : fixes (m :: messages) = (if w.fix then [m.mono] else []) ++ fixes messages := by
            unfold fixes
            cases fix : w.fix <;> simp [which, fix]
          rw [taken, more, ← List.append_assoc]
          exact ih (timed_accumulate fl timed w m.mono)

/-- The first message of a known kind sets the base: it might as well have been set before. -/
theorem parse_from_first (fl : Floats) (messages : List Message) :
    parse_messages fl messages = {} ∧ fixes messages = [] ∨
      parse_messages fl messages =
        messages.foldl (accumulate_message fl) { route_base_mono := some (first_known messages) } := by
  unfold parse_messages
  induction messages with
  | nil => exact .inl ⟨rfl, rfl⟩
  | cons m messages ih =>
      rw [List.foldl_cons, List.foldl_cons]
      cases which : m.which with
      | none =>
          have skipped : ∀ acc, accumulate_message fl acc m = acc := by
            intro acc
            simp only [accumulate_message, which]
          have same : first_known (m :: messages) = first_known messages := by
            simp [first_known, which]
          have no_fix : fixes (m :: messages) = fixes messages := by simp [fixes, which]
          rw [skipped, skipped, same, no_fix]
          exact ih
      | some w =>
          have first : first_known (m :: messages) = m.mono := by simp [first_known, which]
          right
          rw [first]
          congr 1
          simp only [accumulate_message, which]
          rfl

/-- The positions are those of the fixes, and the samples are in order. -/
theorem series_of_qlog (fl : Floats) (messages : List Message) :
    (parse_messages fl messages).coords.map Coord.t =
        (fixes messages).map (clock (first_known messages)) ∧
      TimeSorted ((parse_messages fl messages).telemetry.map Telem.t) := by
  rcases parse_from_first fl messages with ⟨nothing, no_fix⟩ | known
  · rw [nothing, no_fix]
    exact ⟨rfl, List.Pairwise.nil⟩
  · have start : Timed (first_known messages) []
        ({ route_base_mono := some (first_known messages) } : Accum) :=
      ⟨rfl, rfl, [], rfl, List.Pairwise.nil, nofun⟩
    have timed := timed_messages fl messages start
    rw [← known] at timed
    refine ⟨timed.positions, ?_⟩
    obtain ⟨times, same, sorted, _⟩ := timed.samples
    rw [same, sorted_clock_iff]
    exact sorted.imp Or.inl

/-! ## Model frames -/

theorem frames_of_messages (fl : Floats) (base : UInt64) (messages : List Message) (l : ModelLoop)
    (based : l.base = some base) :
    (messages.foldl (ModelLoop.step fl) l).frames.map ModelFrame.t =
      l.frames.map ModelFrame.t ++ (thinned l.idx (model_times messages)).map (clock base) := by
  induction messages generalizing l with
  | nil => exact (List.append_nil _).symm
  | cons m messages ih =>
      have same : l.base.getD m.mono = base := by rw [based]; rfl
      have stays : (l.step fl m).base = some base := by
        unfold ModelLoop.step
        rw [same]
        split
        · rfl
        · dsimp only
          split <;> rfl
        · rfl
      rw [List.foldl_cons, ih _ stays]
      by_cases model : ∃ v2, m.which = some (.modelV2 v2)
      · obtain ⟨v2, which⟩ := model
        have more : model_times (m :: messages) = m.mono :: model_times messages := by
          simp [model_times, which, Which.is_model]
        rw [more]
        unfold ModelLoop.step
        simp only [which, same, thinned]
        by_cases skip : (l.idx + 1) % FRAME_STEP ≠ 0
        · rw [if_pos skip, if_pos skip]
        · rw [if_neg skip, if_neg skip, List.map_cons, List.map_append, List.append_assoc]
          rfl
      · have passed : (l.step fl m).frames = l.frames ∧ (l.step fl m).idx = l.idx := by
          unfold ModelLoop.step
          split
          · exact ⟨rfl, rfl⟩
          · rename_i v2 which
            exact absurd ⟨v2, which⟩ model
          · exact ⟨rfl, rfl⟩
        have same_models : model_times (m :: messages) = model_times messages := by
          unfold model_times
          rw [List.filter_cons_of_neg]
          intro is_model
          cases which : m.which with
          | none => simp [which] at is_model
          | some w =>
              cases w with
              | modelV2 v2 => exact model ⟨v2, which⟩
              | _ => simp [which, Which.is_model] at is_model
        rw [passed.1, passed.2, same_models]

theorem series_of_rlog (fl : Floats) (messages : List Message) :
    (extract_model fl messages).frames.map ModelFrame.t =
      (thinned 0 (model_times messages)).map (clock (first_message messages)) := by
  cases messages with
  | nil => rfl
  | cons m messages =>
      have started : extract_model fl (m :: messages) =
          let l := (m :: messages).foldl (ModelLoop.step fl) { base := some m.mono }
          { rpy := l.rpy, frames := l.frames } := rfl
      rw [started]
      exact frames_of_messages fl m.mono (m :: messages) { base := some m.mono } rfl

/-- The series of a segment are sorted exactly when its fixes, and the model messages it
keeps, are logged in order. -/
theorem series_sorted_iff (fl : Floats) (qlog rlog : List Message) :
    TimeSorted ((parse_messages fl qlog).coords.map Coord.t) ∧
        TimeSorted ((parse_messages fl qlog).telemetry.map Telem.t) ∧
        TimeSorted ((extract_model fl rlog).frames.map ModelFrame.t) ↔
      InOrder (first_known qlog) (fixes qlog) ∧
        InOrder (first_message rlog) (thinned 0 (model_times rlog)) := by
  obtain ⟨positions, telemetry⟩ := series_of_qlog fl qlog
  rw [positions, series_of_rlog, sorted_clock_iff, sorted_clock_iff]
  constructor
  · rintro ⟨in_order, _, frames⟩
    exact ⟨in_order, frames⟩
  · rintro ⟨in_order, frames⟩
    exact ⟨in_order, telemetry, frames⟩

private def fix_at (mono : UInt64) : Message :=
  let gps : Gps :=
    { flags := 1, has_fix := true, latitude := 0, longitude := 0, unix_timestamp_millis := 0, speed := 0 }
  { mono, which := some (.gpsLocation gps) }

/-- Two fixes that are logged the wrong way round are two coordinates out of order. -/
theorem positions_out_of_order :
    ¬ ∀ (fl : Floats) (qlog rlog : List Message),
      TimeSorted ((parse_messages fl qlog).coords.map Coord.t) ∧
        TimeSorted ((parse_messages fl qlog).telemetry.map Telem.t) ∧
        TimeSorted ((extract_model fl rlog).frames.map ModelFrame.t) := by
  intro sorted
  have first := (sorted ⟨fun _ _ _ _ => 0, fun x => x, fun t => (t * 1000).floor⟩
    [{ mono := 0, which := some .other }, fix_at 2000000000, fix_at 1000000000] []).1
  unfold TimeSorted at first
  revert first
  decide +kernel

end HomeConnect.Drives
