/-
# Drives.Timeline -- the state events and the samples of one log

`accumulate` keeps what was last heard from each service in registers of its own.  Two kinds
of message emit a state event when what they say together has changed, and close the event
before it; a `carState` is sampled at most every 250 ms, and not before the engagement is
known.

What the registers hold is what the latest message of each service said (`registers`).  From
it follow what the state events are (`timeline_exact`) and which samples are kept and with
which values (`samples_exact`).
-/
import HomeConnect.Drives.Parse
import Mathlib.Data.List.Chain

namespace HomeConnect.Drives

open HomeConnect.Theory HomeConnect.Storage

set_option autoImplicit false

/-! ## What was last heard -/

def selfdrive? (m : Message) : Option SelfdriveState :=
  match m.which with
  | some (.selfdriveState ss) => some ss
  | _ => none

/-- `mads.active` of a readable `selfdriveStateSP`. -/
def mads? (m : Message) : Option Bool :=
  match m.which with
  | some (.selfdriveStateSP active) => active
  | _ => none

def monitoring? (m : Message) : Option DriverMonitoringState :=
  match m.which with
  | some (.driverMonitoringState dm) => some dm
  | _ => none

def car? (m : Message) : Option CarState :=
  match m.which with
  | some (.carState cs) => some cs
  | _ => none

/-- One of the two kinds of message that say something about the engagement. -/
def state_message (m : Message) : Bool := (selfdrive? m).isSome || (mads? m).isSome

def latest {α : Type} (read : Message → Option α) (messages : List Message) : Option α :=
  (messages.filterMap read).getLast?

theorem latest_concat {α : Type} (read : Message → Option α) (messages : List Message) (m : Message) :
    latest read (messages ++ [m]) = (read m).or (latest read messages) := by
  unfold latest
  rw [List.filterMap_append, List.getLast?_append]
  cases heard : read m <;> simp [heard]

/-- Longitudinal engagement. -/
def longitudinal (messages : List Message) : Bool :=
  ((latest selfdrive? messages).map SelfdriveState.enabled).getD false

/-- Lateral engagement. -/
def lateral (messages : List Message) : Bool := (latest mads? messages).getD false

def alerted (messages : List Message) : Int := ((latest selfdrive? messages).map alert_level).getD 0

/-- Whether the driver's monitoring is active, with what it says; without a message it isn't. -/
def monitoring (messages : List Message) : DriverMonitoringState :=
  (latest monitoring? messages).getD ⟨false, false, false, 0⟩

/-- Engaged either way, and the alert level. -/
def current (messages : List Message) : Bool × Int :=
  (longitudinal messages || lateral messages, alerted messages)

/-- What the registers hold. -/
structure Heard where
  engaged : Bool
  lat : Bool
  alert : Int
  dm : DriverMonitoringState
  /-- Has either kind of state message been read? -/
  seen : Bool

def Accum.heard (acc : Accum) : Heard where
  engaged := acc.cur_engaged
  lat := acc.cur_lat
  alert := acc.cur_alert
  dm := ⟨acc.cur_dm_active, acc.cur_dm_face, acc.cur_dm_distracted, acc.cur_dm_aware⟩
  seen := acc.seen_selfdrive

/-- What the latest messages said. -/
def heard (messages : List Message) : Heard where
  engaged := longitudinal messages
  lat := lateral messages
  alert := alerted messages
  dm := monitoring messages
  seen := messages.any state_message

theorem heard_unheard {messages : List Message} {m : Message} (selfdrive : selfdrive? m = none)
    (mads : mads? m = none) (monitored : monitoring? m = none) :
    heard (messages ++ [m]) = heard messages := by
  simp [heard, longitudinal, lateral, alerted, monitoring, latest_concat, state_message, selfdrive, mads,
    monitored]

theorem parse_concat (fl : Floats) (messages : List Message) (m : Message) :
    parse_messages fl (messages ++ [m]) = accumulate_message fl (parse_messages fl messages) m := by
  unfold parse_messages
  rw [List.foldl_concat]

/-- Neither an event, nor a fix, nor a sample touches the registers. -/
theorem heard_emit_state_change (fl : Floats) (acc : Accum) (t : Rat) (mono : UInt64) :
    (emit_state_change fl acc t mono).heard = acc.heard := by
  by_cases same : acc.last_state = some (acc.cur_engaged || acc.cur_lat, acc.cur_alert)
  · rw [emit_state_change, if_pos same]
  · rw [emit_state_change, if_neg same]
    rfl

theorem heard_accumulate_gps (fl : Floats) (acc : Accum) (gps : Gps) (t : Rat) :
    (accumulate_gps fl acc gps t).heard = acc.heard := by
  unfold accumulate_gps
  split <;> rfl

theorem heard_accumulate_car (acc : Accum) (cs : CarState) (t : Rat) (mono : UInt64) :
    (accumulate_car acc cs t mono).heard = acc.heard := by
  unfold accumulate_car
  split <;> rfl

theorem registers (fl : Floats) (messages : List Message) :
    (parse_messages fl messages).heard = heard messages := by
  induction messages using List.reverseRecOn with
  | nil => rfl
  | append_singleton messages m ih =>
      rw [parse_concat]
      generalize parse_messages fl messages = acc at ih
      obtain ⟨mono, which⟩ := m
      cases which with
      | none => rw [heard_unheard rfl rfl rfl, ← ih]; rfl
      | some which =>
          cases which with
          | selfdriveState ss =>
              refine (heard_emit_state_change _ _ _ _).trans ?_
              have sideways : acc.cur_lat = lateral messages := congrArg Heard.lat ih
              have dm := congrArg Heard.dm ih
              unfold Accum.heard heard at dm ⊢
              simp_all [longitudinal, lateral, alerted, monitoring, latest_concat, selfdrive?, mads?,
                monitoring?, state_message]
          | selfdriveStateSP active =>
              cases active with
              | none => rw [heard_unheard rfl rfl rfl, ← ih]; rfl
              | some active =>
                  refine (heard_emit_state_change _ _ _ _).trans ?_
                  have engaged : acc.cur_engaged = longitudinal messages := congrArg Heard.engaged ih
                  have level : acc.cur_alert = alerted messages := congrArg Heard.alert ih
                  have dm := congrArg Heard.dm ih
                  unfold Accum.heard heard at dm ⊢
                  simp_all [longitudinal, lateral, alerted, monitoring, latest_concat, selfdrive?, mads?,
                    monitoring?, state_message]
          | driverMonitoringState dm =>
              have engaged : acc.cur_engaged = longitudinal messages := congrArg Heard.engaged ih
              have sideways : acc.cur_lat = lateral messages := congrArg Heard.lat ih
              have level : acc.cur_alert = alerted messages := congrArg Heard.alert ih
              have seen : acc.seen_selfdrive = messages.any state_message := congrArg Heard.seen ih
              simp_all [accumulate_message, accumulate, Accum.heard, heard, longitudinal, lateral, alerted,
                monitoring, latest_concat, selfdrive?, mads?, monitoring?, state_message]
          | carState cs =>
              rw [heard_unheard rfl rfl rfl, ← ih]
              exact heard_accumulate_car _ _ _ _
          | gpsLocation gps =>
              rw [heard_unheard rfl rfl rfl, ← ih]
              exact heard_accumulate_gps _ _ _ _
          | gpsLocationExternal gps =>
              rw [heard_unheard rfl rfl rfl, ← ih]
              exact heard_accumulate_gps _ _ _ _
          | thumbnail bytes =>
              rw [heard_unheard rfl rfl rfl, ← ih]
              cases bytes <;> rfl
          | _ =>
              rw [heard_unheard rfl rfl rfl, ← ih]
              rfl

/-! ## State events -/

/-- What the state messages say together, after each of them. -/
def states (messages : List Message) : List (Bool × Int) :=
  (messages.inits.filter fun read => read.getLast?.any state_message).map current

/-- How often the values of a list change, the first one included. -/
def changes : List (Bool × Int) → Nat
  | [] => 0
  | [_] => 1
  | p :: q :: rest => (if p = q then 0 else 1) + changes (q :: rest)

def DriveEvent.shows (e : DriveEvent) : Bool × Int := (e.data.enabled, e.data.alert_status)

/-- The first event ends where the second starts. -/
def Closes (e e' : DriveEvent) : Prop := e.data.end_route_offset_millis = some e'.route_offset_millis

/-- The events show the changes among the states: one each, closed by the next. -/
structure Exact (events : List DriveEvent) (said : List (Bool × Int)) : Prop where
  differ : (events.map DriveEvent.shows).IsChain (· ≠ ·)
  count : events.length = changes said
  current : (events.map DriveEvent.shows).getLast? = said.getLast?
  closed : events.IsChain Closes
  open_ended : ∀ e ∈ events.getLast?, e.data.end_route_offset_millis = none

theorem states_concat (messages : List Message) (m : Message) :
    states (messages ++ [m]) =
      states messages ++ if state_message m then [current (messages ++ [m])] else [] := by
  have inits : (messages ++ [m]).inits = messages.inits ++ [messages ++ [m]] := by
    simp [List.inits_append]
  rw [states, inits, List.filter_append, List.map_append, ← states]
  congr 1
  by_cases said : state_message m = true <;> simp [said]

theorem changes_concat (ps : List (Bool × Int)) (p : Bool × Int) :
    changes (ps ++ [p]) = changes ps + if ps.getLast? = some p then 0 else 1 := by
  induction ps with
  | nil => rfl
  | cons q ps ih =>
      cases ps with
      | nil =>
          by_cases same : q = p <;> simp [changes, same]
      | cons r rest =>
          have last : (q :: r :: rest).getLast? = (r :: rest).getLast? := List.getLast?_cons_cons
          show (if q = r then 0 else 1) + changes (r :: rest ++ [p]) = _
          rw [ih, last, changes]
          omega

/-- The event with its interval closed. -/
def DriveEvent.closed (e : DriveEvent) (at_millis : Int) : DriveEvent :=
  { e with data := { e.data with end_route_offset_millis := some at_millis } }

theorem close_last_concat (init : List DriveEvent) (e : DriveEvent) (at_millis : Int) :
    close_last (init ++ [e]) at_millis = init ++ [e.closed at_millis] := by
  unfold close_last
  rw [List.getLast?_concat]
  simp [DriveEvent.closed]

/-- One more event, closing the last. -/
theorem Exact.emit {events : List DriveEvent} {said : List (Bool × Int)} (exact : Exact events said)
    {e : DriveEvent} (new : said.getLast? ≠ some e.shows) (fresh : e.data.end_route_offset_millis = none) :
    Exact (close_last events e.route_offset_millis ++ [e]) (said ++ [e.shows]) := by
  have count : changes (said ++ [e.shows]) = changes said + 1 := by
    rw [changes_concat, if_neg new]
  rcases List.eq_nil_or_concat events with rfl | ⟨init, last, rfl⟩
  · exact ⟨.singleton _, by rw [count, ← exact.count]; rfl, by simp [close_last], .singleton _,
      by simpa [close_last] using fresh⟩
  · rw [List.concat_eq_append] at exact
    rw [List.concat_eq_append, close_last_concat]
    have shown : (init ++ [last.closed e.route_offset_millis]).map DriveEvent.shows =
        (init ++ [last]).map DriveEvent.shows := by
      simp [DriveEvent.shows, DriveEvent.closed]
    constructor
    · rw [List.map_append, shown, List.isChain_append]
      refine ⟨exact.differ, .singleton _, ?_⟩
      rintro p shows q first same
      rw [exact.current] at shows
      have is : e.shows = q := by simpa using first
      exact new (by rw [shows, same, is])
    · rw [count, ← exact.count]
      simp
    · simp
    · have before := exact.closed
      rw [List.isChain_append] at before
      rw [List.isChain_append, List.isChain_append]
      refine ⟨⟨before.1, .singleton _, fun a end_of b is => ?_⟩, .singleton _, fun a end_of b is => ?_⟩
      · have closes := before.2.2 a end_of last rfl
        have is : last.closed e.route_offset_millis = b := by simpa using is
        rw [← is]
        exact closes
      · have is : e = b := by simpa using is
        have end_of : last.closed e.route_offset_millis = a := by simpa using end_of
        rw [← is, ← end_of]
        rfl
    · simpa using fresh

/-- What is said again emits nothing. -/
theorem Exact.again {events : List DriveEvent} {said : List (Bool × Int)} (exact : Exact events said)
    {p : Bool × Int} (same : said.getLast? = some p) : Exact events (said ++ [p]) where
  differ := exact.differ
  count := by rw [changes_concat, if_pos same, exact.count]; rfl
  current := by rw [exact.current, same, List.getLast?_concat]
  closed := exact.closed
  open_ended := exact.open_ended

/-- The events so far, and the state they were last emitted for. -/
structure Emitted (acc : Accum) (said : List (Bool × Int)) : Prop where
  exact : Exact acc.events said
  last : acc.last_state = said.getLast?

theorem Emitted.emit_state_change {fl : Floats} {acc : Accum} {said : List (Bool × Int)} (emitted : Emitted acc said)
    (t : Rat) (mono : UInt64) :
    Emitted (emit_state_change fl acc t mono)
      (said ++ [(acc.cur_engaged || acc.cur_lat, acc.cur_alert)]) := by
  by_cases same : acc.last_state = some (acc.cur_engaged || acc.cur_lat, acc.cur_alert)
  · rw [Drives.emit_state_change, if_pos same]
    have again := same
    rw [emitted.last] at again
    exact ⟨emitted.exact.again again, by rw [same, List.getLast?_concat]⟩
  · rw [Drives.emit_state_change, if_neg same]
    let e : DriveEvent :=
      { kind := "state", time := mono, route_offset_millis := fl.millis t
        data := { enabled := acc.cur_engaged || acc.cur_lat, lat := acc.cur_lat,
                  long := acc.cur_engaged, alert_status := acc.cur_alert } }
    have new : said.getLast? ≠ some e.shows := by
      rw [← emitted.last]
      exact same
    exact ⟨emitted.exact.emit new rfl, by rw [List.getLast?_concat]⟩

/-- A state message sets registers and emits; no other message has to do with the events. -/
theorem state_cases (fl : Floats) (acc : Accum) (m : Message) :
    (state_message m = true ∧ ∃ acc₁ t, accumulate_message fl acc m = emit_state_change fl acc₁ t m.mono ∧
      acc₁.events = acc.events ∧ acc₁.last_state = acc.last_state) ∨
    (state_message m = false ∧ (accumulate_message fl acc m).events = acc.events ∧
      (accumulate_message fl acc m).last_state = acc.last_state) := by
  obtain ⟨mono, which⟩ := m
  cases which with
  | none => exact .inr ⟨rfl, rfl, rfl⟩
  | some which =>
      cases which with
      | selfdriveState ss => exact .inl ⟨rfl, _, _, rfl, rfl, rfl⟩
      | selfdriveStateSP active =>
          cases active with
          | none => exact .inr ⟨rfl, rfl, rfl⟩
          | some active => exact .inl ⟨rfl, _, _, rfl, rfl, rfl⟩
      | carState cs =>
          refine .inr ⟨rfl, ?_⟩
          simp only [accumulate_message, accumulate, accumulate_car]
          split <;> exact ⟨rfl, rfl⟩
      | gpsLocation gps =>
          refine .inr ⟨rfl, ?_⟩
          simp only [accumulate_message, accumulate, accumulate_gps]
          split <;> exact ⟨rfl, rfl⟩
      | gpsLocationExternal gps =>
          refine .inr ⟨rfl, ?_⟩
          simp only [accumulate_message, accumulate, accumulate_gps]
          split <;> exact ⟨rfl, rfl⟩
      | thumbnail bytes => cases bytes <;> exact .inr ⟨rfl, rfl, rfl⟩
      | _ => exact .inr ⟨rfl, rfl, rfl⟩

theorem emitted (fl : Floats) (messages : List Message) :
    Emitted (parse_messages fl messages) (states messages) := by
  induction messages using List.reverseRecOn with
  | nil => exact ⟨⟨.nil, rfl, rfl, .nil, fun e none => by cases none⟩, rfl⟩
  | append_singleton messages m ih =>
      have now := registers fl (messages ++ [m])
      rw [parse_concat] at now ⊢
      rw [states_concat]
      rcases state_cases fl (parse_messages fl messages) m with
        ⟨said, acc₁, t, is, events, last_state⟩ | ⟨other, events, last_state⟩
      · rw [is, heard_emit_state_change] at now
        have shown : (acc₁.cur_engaged || acc₁.cur_lat, acc₁.cur_alert) = current (messages ++ [m]) := by
          have engaged : acc₁.cur_engaged = longitudinal (messages ++ [m]) := congrArg Heard.engaged now
          have sideways : acc₁.cur_lat = lateral (messages ++ [m]) := congrArg Heard.lat now
          have level : acc₁.cur_alert = alerted (messages ++ [m]) := congrArg Heard.alert now
          rw [engaged, sideways, level, current]
        have before : Emitted acc₁ (states messages) :=
          ⟨by rw [events]; exact ih.exact, by rw [last_state]; exact ih.last⟩
        rw [is, if_pos said, ← shown]
        exact before.emit_state_change t m.mono
      · rw [other, if_neg Bool.false_ne_true, List.append_nil]
        exact ⟨by rw [events]; exact ih.exact, by rw [last_state]; exact ih.last⟩

/-- The last state is the one in force at the end. -/
theorem last_state_current {messages : List Message} {p : Bool × Int}
    (last : (states messages).getLast? = some p) : p = current messages := by
  induction messages using List.reverseRecOn with
  | nil => cases last
  | append_singleton messages m ih =>
      rw [states_concat] at last
      by_cases said : state_message m = true
      · rw [if_pos said, List.getLast?_concat] at last
        exact (Option.some.inj last).symm
      · rw [if_neg said, List.append_nil] at last
        simp only [state_message, Bool.or_eq_true, Option.isSome_iff_ne_none, not_or, not_not] at said
        rw [ih last, current, current, longitudinal, lateral, alerted, longitudinal, lateral, alerted,
          latest_concat, latest_concat, said.1, said.2, Option.none_or, Option.none_or]

/-- The state timeline is exact: its events show the changes of the state, one each and each
closed by the next, up to the state in force at the end. -/
theorem timeline_exact (fl : Floats) (messages : List Message) :
    Exact (parse_messages fl messages).events (states messages) ∧
      ∀ p, (states messages).getLast? = some p → p = current messages :=
  ⟨(emitted fl messages).exact, fun _ => last_state_current⟩

/-! ## Samples -/

/-- A sample is kept of the message, after what was read before. -/
def grows (fl : Floats) (before : List Message) (m : Message) : Bool :=
  decide ((parse_messages fl (before ++ [m])).telemetry ≠ (parse_messages fl before).telemetry)

/-- The messages a sample is kept of, each with what was read before it. -/
def kept (fl : Floats) (messages : List Message) : List (List Message × Message) :=
  (messages.inits.filterMap fun read => read.getLast?.map fun m => (read.dropLast, m)).filter fun r =>
    grows fl r.1 r.2

/-- The log time of the last sample kept, 0 without one. -/
def last_kept (fl : Floats) (messages : List Message) : Nat :=
  ((kept fl messages).getLast?.map fun r => r.2.mono.toNat).getD 0

/-- The sample has what the latest messages before it said. -/
structure SampleOf (before : List Message) (m : Message) (s : Telem) : Prop where
  car : ∃ cs, car? m = some cs
  long : s.long = longitudinal before
  lat : s.lat = lateral before
  engaged : s.engaged = (longitudinal before || lateral before)
  aware : s.dm_aware =
    if (monitoring before).is_active_mode then (monitoring before).awareness_status else -1
  distracted : s.dm_distracted =
    ((monitoring before).is_active_mode && (monitoring before).is_distracted)
  face : s.dm_face = ((monitoring before).is_active_mode && (monitoring before).face_detected)

theorem kept_concat (fl : Floats) (messages : List Message) (m : Message) :
    kept fl (messages ++ [m]) =
      kept fl messages ++ if grows fl messages m then [(messages, m)] else [] := by
  have inits : (messages ++ [m]).inits = messages.inits ++ [messages ++ [m]] := by
    simp [List.inits_append]
  rw [kept, inits, List.filterMap_append, List.filter_append, ← kept]
  congr 1
  by_cases more : grows fl messages m = true <;> simp [more]

theorem emit_state_change_samples (fl : Floats) (acc : Accum) (t : Rat) (mono : UInt64) :
    (emit_state_change fl acc t mono).last_telem_mono = acc.last_telem_mono ∧
      (emit_state_change fl acc t mono).telemetry = acc.telemetry := by
  by_cases same : acc.last_state = some (acc.cur_engaged || acc.cur_lat, acc.cur_alert)
  · rw [emit_state_change, if_pos same]
    exact ⟨rfl, rfl⟩
  · rw [emit_state_change, if_neg same]
    exact ⟨rfl, rfl⟩

/-- A `carState` is sampled when the engagement is known and the last sample is old enough;
no other message has to do with the samples. -/
theorem sample_cases (fl : Floats) (acc : Accum) (m : Message) :
    (∃ cs, car? m = some cs ∧ acc.seen_selfdrive = true ∧
      saturating_add acc.last_telem_mono 250000000 ≤ m.mono ∧
      (accumulate_message fl acc m).last_telem_mono = m.mono ∧
      ∃ base t, (accumulate_message fl acc m).telemetry =
        acc.telemetry ++ [sample { acc with route_base_mono := base } cs t]) ∨
    ((∀ cs, car? m = some cs → acc.seen_selfdrive = true →
        ¬ saturating_add acc.last_telem_mono 250000000 ≤ m.mono) ∧
      (accumulate_message fl acc m).last_telem_mono = acc.last_telem_mono ∧
      (accumulate_message fl acc m).telemetry = acc.telemetry) := by
  obtain ⟨mono, which⟩ := m
  cases which with
  | none => exact .inr ⟨fun cs is => (by cases is), rfl, rfl⟩
  | some which =>
      cases which with
      | carState cs =>
          by_cases due : acc.seen_selfdrive = true ∧ saturating_add acc.last_telem_mono 250000000 ≤ mono
          · have taken : (acc.seen_selfdrive &&
                decide (saturating_add acc.last_telem_mono 250000000 ≤ mono)) = true := by simp [due]
            refine .inl ⟨cs, rfl, due.1, due.2, ?_, some (acc.route_base_mono.getD mono),
              clock (acc.route_base_mono.getD mono) mono, ?_⟩
            · simp only [accumulate_message, accumulate, accumulate_car, if_pos taken]
            · simp only [accumulate_message, accumulate, accumulate_car, if_pos taken]
          · have skipped : ¬ (acc.seen_selfdrive &&
                decide (saturating_add acc.last_telem_mono 250000000 ≤ mono)) = true := by
              simpa using due
            refine .inr ⟨fun _ _ seen early => due ⟨seen, early⟩, ?_, ?_⟩
            · simp only [accumulate_message, accumulate, accumulate_car, if_neg skipped]
            · simp only [accumulate_message, accumulate, accumulate_car, if_neg skipped]
      | selfdriveState ss =>
          refine .inr ⟨fun cs is => (by cases is), ?_, ?_⟩
          · exact emit_state_change_samples _ _ _ _ |>.1
          · exact emit_state_change_samples _ _ _ _ |>.2
      | selfdriveStateSP active =>
          cases active with
          | none => exact .inr ⟨fun cs is => (by cases is), rfl, rfl⟩
          | some active =>
              refine .inr ⟨fun cs is => (by cases is), ?_, ?_⟩
              · exact emit_state_change_samples _ _ _ _ |>.1
              · exact emit_state_change_samples _ _ _ _ |>.2
      | gpsLocation gps =>
          refine .inr ⟨fun cs is => (by cases is), ?_⟩
          simp only [accumulate_message, accumulate, accumulate_gps]
          split <;> exact ⟨rfl, rfl⟩
      | gpsLocationExternal gps =>
          refine .inr ⟨fun cs is => (by cases is), ?_⟩
          simp only [accumulate_message, accumulate, accumulate_gps]
          split <;> exact ⟨rfl, rfl⟩
      | thumbnail bytes => cases bytes <;> exact .inr ⟨fun cs is => (by cases is), rfl, rfl⟩
      | _ => exact .inr ⟨fun cs is => (by cases is), rfl, rfl⟩

theorem toNat_saturating_add {a b : UInt64} (fits : a.toNat + b.toNat < 2 ^ 64) :
    (saturating_add a b).toNat = a.toNat + b.toNat := by
  have top : (-1 - b : UInt64).toNat = 2 ^ 64 - 1 - b.toNat := by
    rw [UInt64.toNat_sub_of_le _ _ (UInt64.le_iff_toNat_le.2 _)]
    · rfl
    · have := b.toNat_lt
      show b.toNat ≤ 2 ^ 64 - 1
      omega
  have room : a ≤ -1 - b := by
    rw [UInt64.le_iff_toNat_le, top]
    omega
  rw [saturating_add, if_pos room, UInt64.toNat_add]
  omega

/-- Which samples are kept, and with which values. -/
structure SampledExactly (fl : Floats) (messages : List Message) : Prop where
  samples : List.Forall₂ (fun r s => SampleOf r.1 r.2 s) (kept fl messages)
    (parse_messages fl messages).telemetry
  apart : (kept fl messages).Pairwise fun r r' => r.2.mono.toNat + 250000000 ≤ r'.2.mono.toNat
  gated : ∀ r ∈ kept fl messages, r.1.any state_message = true
  complete : ∀ before m after cs, messages = before ++ m :: after → car? m = some cs →
    before.any state_message = true → (before, m) ∉ kept fl messages →
    m.mono.toNat < last_kept fl before + 250000000

theorem le_last_kept {fl : Floats} {messages : List Message} (exact : SampledExactly fl messages)
    {r : List Message × Message} (member : r ∈ kept fl messages) :
    r.2.mono.toNat ≤ last_kept fl messages := by
  have apart := exact.apart
  rcases List.eq_nil_or_concat (kept fl messages) with none | ⟨init, last, is⟩
  · rw [none] at member
    cases member
  · rw [List.concat_eq_append] at is
    rw [last_kept, is, List.getLast?_concat]
    rw [is, List.pairwise_append] at apart
    rw [is, List.mem_append] at member
    show r.2.mono.toNat ≤ last.2.mono.toNat
    rcases member with earlier | this
    · have := apart.2.2 r earlier last List.mem_cons_self
      omega
    · rw [List.mem_singleton.1 this]

/-- The registers make the sample. -/
theorem sample_of_heard {acc : Accum} {before : List Message} (registers : acc.heard = heard before)
    {m : Message} {cs : CarState} (car : car? m = some cs) (base : Option UInt64) (t : Rat) :
    SampleOf before m (sample { acc with route_base_mono := base } cs t) := by
  have engaged : acc.cur_engaged = longitudinal before := congrArg Heard.engaged registers
  have sideways : acc.cur_lat = lateral before := congrArg Heard.lat registers
  have dm : (⟨acc.cur_dm_active, acc.cur_dm_face, acc.cur_dm_distracted, acc.cur_dm_aware⟩ :
      DriverMonitoringState) = monitoring before := congrArg Heard.dm registers
  have active : acc.cur_dm_active = (monitoring before).is_active_mode := by rw [← dm]
  have face : acc.cur_dm_face = (monitoring before).face_detected := by rw [← dm]
  have distracted : acc.cur_dm_distracted = (monitoring before).is_distracted := by rw [← dm]
  have aware : acc.cur_dm_aware = (monitoring before).awareness_status := by rw [← dm]
  constructor
  · exact ⟨cs, car⟩
  · exact engaged
  · exact sideways
  · show (acc.cur_engaged || acc.cur_lat) = _
    rw [engaged, sideways]
  · show (if acc.cur_dm_active then acc.cur_dm_aware else -1) = _
    rw [active, aware]
  · show (acc.cur_dm_active && acc.cur_dm_distracted) = _
    rw [active, distracted]
  · show (acc.cur_dm_active && acc.cur_dm_face) = _
    rw [active, face]

/-- One more message that is sampled. -/
theorem SampledExactly.keep {fl : Floats} {messages : List Message} {m : Message} {s : Telem}
    (exact : SampledExactly fl messages) (keeps : kept fl (messages ++ [m]) = kept fl messages ++ [(messages, m)])
    (more : (parse_messages fl (messages ++ [m])).telemetry = (parse_messages fl messages).telemetry ++ [s])
    (sample : SampleOf messages m s) (seen : messages.any state_message = true)
    (due : last_kept fl messages + 250000000 ≤ m.mono.toNat) :
    SampledExactly fl (messages ++ [m]) where
  samples := by
    rw [keeps, more]
    exact List.rel_append exact.samples (.cons sample .nil)
  apart := by
    rw [keeps, List.pairwise_append]
    refine ⟨exact.apart, List.pairwise_singleton _ _, fun r member r' is => ?_⟩
    rw [List.mem_singleton.1 is]
    have below := le_last_kept exact member
    show r.2.mono.toNat + 250000000 ≤ m.mono.toNat
    omega
  gated r member := by
    rw [keeps, List.mem_append] at member
    rcases member with earlier | this
    · exact exact.gated r earlier
    · rw [List.mem_singleton.1 this]
      exact seen
  complete before m' after cs is car gate dropped := by
    rw [keeps, List.mem_append, not_or] at dropped
    rcases List.eq_nil_or_concat after with rfl | ⟨init, last, rfl⟩
    · obtain ⟨rfl, same⟩ := List.append_inj' is rfl
      cases same
      exact absurd List.mem_cons_self dropped.2
    · rw [List.concat_eq_append, ← List.cons_append, ← List.append_assoc] at is
      exact exact.complete before m' init cs (List.append_inj' is rfl).1 car gate dropped.1

/-- One more that isn't. -/
theorem SampledExactly.skip {fl : Floats} {messages : List Message} {m : Message}
    (exact : SampledExactly fl messages) (keeps : kept fl (messages ++ [m]) = kept fl messages)
    (same : (parse_messages fl (messages ++ [m])).telemetry = (parse_messages fl messages).telemetry)
    (early : ∀ cs, car? m = some cs → messages.any state_message = true →
      m.mono.toNat < last_kept fl messages + 250000000) :
    SampledExactly fl (messages ++ [m]) where
  samples := by
    rw [keeps, same]
    exact exact.samples
  apart := by
    rw [keeps]
    exact exact.apart
  gated r member := by
    rw [keeps] at member
    exact exact.gated r member
  complete before m' after cs is car gate dropped := by
    rw [keeps] at dropped
    rcases List.eq_nil_or_concat after with rfl | ⟨init, last, rfl⟩
    · obtain ⟨rfl, same⟩ := List.append_inj' is rfl
      cases same
      exact early cs car gate
    · rw [List.concat_eq_append, ← List.cons_append, ← List.append_assoc] at is
      exact exact.complete before m' init cs (List.append_inj' is rfl).1 car gate dropped

/-- The rate limiter remembers the last sample kept. -/
theorem sampled (fl : Floats) (messages : List Message)
    (in_range : ∀ m ∈ messages, m.mono.toNat < 2 ^ 64 - 250000000) :
    SampledExactly fl messages ∧ (parse_messages fl messages).last_telem_mono.toNat = last_kept fl messages ∧
      last_kept fl messages < 2 ^ 64 - 250000000 := by
  induction messages using List.reverseRecOn with
  | nil =>
      have room : (0 : Nat) < 2 ^ 64 - 250000000 := by decide
      refine ⟨⟨.nil, .nil, fun r none => ?_, fun before m after cs is => ?_⟩, rfl, room⟩
      · cases none
      · exact absurd is.symm (by simp)
  | append_singleton messages m ih =>
      obtain ⟨exact, last, room⟩ := ih fun m' member => in_range m' (List.mem_append_left _ member)
      have registers := registers fl messages
      have seen : (parse_messages fl messages).seen_selfdrive = messages.any state_message :=
        congrArg Heard.seen registers
      have gap : (saturating_add (parse_messages fl messages).last_telem_mono 250000000).toNat =
          last_kept fl messages + 250000000 := by
        rw [toNat_saturating_add, last]
        · rfl
        · rw [last]
          show _ + 250000000 < _
          omega
      rcases sample_cases fl (parse_messages fl messages) m with
        ⟨cs, car, gate, due, now, base, t, more⟩ | ⟨early, now, same⟩
      · rw [← parse_concat] at now more
        have keeps : kept fl (messages ++ [m]) = kept fl messages ++ [(messages, m)] := by
          have grown : grows fl messages m = true := by
            rw [grows, more]
            simp
          rw [kept_concat, if_pos grown]
        rw [UInt64.le_iff_toNat_le, gap] at due
        rw [seen] at gate
        refine ⟨exact.keep keeps more (sample_of_heard registers car base t) gate due, ?_, ?_⟩
        · rw [now, last_kept, keeps, List.getLast?_concat]
          rfl
        · rw [last_kept, keeps, List.getLast?_concat]
          exact in_range m (by simp)
      · rw [← parse_concat] at now same
        have keeps : kept fl (messages ++ [m]) = kept fl messages := by
          have still : ¬ grows fl messages m = true := by
            rw [grows, same]
            simp
          rw [kept_concat, if_neg still, List.append_nil]
        refine ⟨exact.skip keeps same fun cs car gate => ?_, ?_, ?_⟩
        · have early := early cs car (seen.trans gate)
          rw [UInt64.le_iff_toNat_le, gap] at early
          omega
        · rw [now, last, last_kept, last_kept, keeps]
        · rw [last_kept, keeps]
          exact room

/-- Telemetry is sampled exactly: samples are 250 ms apart, none comes before the engagement
is known, none is left out that is due, and each has what was last heard. -/
theorem samples_exact (fl : Floats) (messages : List Message)
    (in_range : ∀ m ∈ messages, m.mono.toNat < 2 ^ 64 - 250000000) : SampledExactly fl messages :=
  (sampled fl messages in_range).1

private def no_floats : Floats := ⟨fun _ _ _ _ => 0, fun q => q, fun t => (t * 1000).floor⟩

private def moving : Which :=
  .carState ⟨10, some "drive", false, false, false, false, 0, false, some true, 1 / 2, false⟩

/-- A `carState` before the engagement is known, and then one every 100 ms. -/
private def drive_off : List Message :=
  [⟨100000000, some moving⟩,
    ⟨200000000, some (.selfdriveState ⟨true, true, some .normal, some false⟩)⟩,
    ⟨300000000, some moving⟩, ⟨400000000, some moving⟩, ⟨500000000, some moving⟩,
    ⟨600000000, some moving⟩]

theorem samples_exact_drive_off : SampledExactly no_floats drive_off ∧
    (parse_messages no_floats drive_off).telemetry.map Telem.t = [1 / 5, 1 / 2] :=
  ⟨samples_exact no_floats drive_off (by decide), by decide +kernel⟩

end HomeConnect.Drives
