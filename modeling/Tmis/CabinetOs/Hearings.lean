import Tmis.CabinetOs.Calendar

/-!
# Hearings

`HearingEngine` with its in-memory store, on top of the calendar: scheduling a hearing creates an event
for it, and by default a reminder before it.  The hearing keeps a date of its own; the calendar's own calls
move and delete the events without the hearing.

* `Hearing`, `HearingEngine` — the hearings, the calendar, and the identifiers drawn so far;
* `schedule`, `recordDecision`, `addPreparatoryDocument` — the calls;
* `Agrees` — hearings and calendar agree;
* `Keeps` — what a call must not do;
* `agree_iff` — hearings and calendar agree all along a run iff each call of it keeps to that.
-/

namespace Tmis.CabinetOs

open Tmis.Lib

structure Hearing where
  id : Uuid
  firmId : String
  caseId : String
  jurisdiction : String
  chamber : String
  scheduledAt : LocalDatetime
  room : String := ""
  participantIds : PySet String := ∅
  preparatoryDocumentIds : PySet String := ∅
  decision : Option String := none
  decidedAt : Option ℚ := none
  calendarEventId : Option Uuid := none
  reminderEventId : Option Uuid := none
  createdAt : Option ℚ := none

/-- What a caller says of a new hearing; the reminder comes so many microseconds before it. -/
structure NewHearing where
  firmId : String
  caseId : String
  jurisdiction : String
  chamber : String
  scheduledAt : LocalDatetime
  room : String := ""
  participantIds : PySet String := ∅
  reminderBefore : Option ℤ := some dayMicros

/-- The engine with its store and its calendar; `drawn` counts the identifiers. -/
structure HearingEngine where
  calendar : ConfigurableCalendarEngine := {}
  hearings : Dict Uuid Hearing := ∅
  drawn : ℕ := 0

namespace NewHearing

variable (new : NewHearing)

/-- The event of the hearing. -/
def hearingEvent (hearingId : Uuid) : NewEvent where
  firmId := new.firmId
  eventType := .hearing
  title := "Audience — " ++ new.jurisdiction ++ " (" ++ new.chamber ++ ")"
  startsAt := new.scheduledAt
  caseId := some new.caseId
  participantIds := new.participantIds
  location := new.room
  relatedId := some hearingId

/-- The reminder of the hearing, at its time. -/
def reminderEvent (hearingId : Uuid) (startsAt : LocalDatetime) : NewEvent where
  firmId := new.firmId
  eventType := .reminder
  title := "Rappel — audience " ++ new.jurisdiction ++ " (" ++ new.chamber ++ ")"
  startsAt := startsAt
  caseId := some new.caseId
  relatedId := some hearingId

/-- The hearing that is stored. -/
def hearing (hearingId calendarEventId : Uuid) (reminderEventId : Option Uuid) (now : ℚ) : Hearing where
  id := hearingId
  firmId := new.firmId
  caseId := new.caseId
  jurisdiction := new.jurisdiction
  chamber := new.chamber
  scheduledAt := new.scheduledAt
  room := new.room
  participantIds := new.participantIds
  calendarEventId := some calendarEventId
  reminderEventId := reminderEventId
  createdAt := some now

end NewHearing

namespace HearingEngine

variable (engine : HearingEngine)

def save (hearing : Hearing) : HearingEngine :=
  { engine with hearings := engine.hearings.set hearing.id hearing }

/-- A new event of the calendar, under the next identifier. -/
def scheduleEvent (new : NewEvent) (now : ℚ) : CalendarEvent × HearingEngine :=
  let (event, calendar) := engine.calendar.schedule new engine.drawn now
  (event, { engine with calendar, drawn := engine.drawn + 1 })

/-- `schedule`: the hearing, and the engine also where the time of the reminder cannot be computed. -/
def schedule (new : NewHearing) (now : ℚ) : Except PyException Hearing × HearingEngine :=
  let hearingId := engine.drawn
  let (event, engine) :=
    { engine with drawn := engine.drawn + 1 }.scheduleEvent (new.hearingEvent hearingId) now
  match new.reminderBefore with
  | none =>
    let hearing := new.hearing hearingId event.id none now
    (.ok hearing, engine.save hearing)
  | some delta =>
    match new.scheduledAt.add (-delta) with
    | .error e => (.error e, engine)
    | .ok startsAt =>
      let (reminder, engine) := engine.scheduleEvent (new.reminderEvent hearingId startsAt) now
      let hearing := new.hearing hearingId event.id (some reminder.id) now
      (.ok hearing, engine.save hearing)

/-- `_require`, a change of the hearing, and `save`. -/
def update (hearingId : Uuid) (f : Hearing → Hearing) : Except PyException HearingEngine :=
  match engine.hearings.get hearingId with
  | none => .error (valueError ("Unknown hearing " ++ pyRepr (toString hearingId)))
  | some hearing => .ok { engine with hearings := engine.hearings.set hearingId (f hearing) }

def recordDecision (hearingId : Uuid) (decision : String) (now : ℚ) : Except PyException HearingEngine :=
  engine.update hearingId fun hearing => { hearing with decision := some decision, decidedAt := some now }

def addPreparatoryDocument (hearingId : Uuid) (documentId : String) : Except PyException HearingEngine :=
  engine.update hearingId fun hearing =>
    { hearing with preparatoryDocumentIds := hearing.preparatoryDocumentIds.add documentId }

/-- A call of the hearing engine, or one of the calendar it uses. -/
inductive Call where
  | schedule (new : NewHearing) (now : ℚ)
  | recordDecision (hearingId : Uuid) (decision : String) (now : ℚ)
  | addPreparatoryDocument (hearingId : Uuid) (documentId : String)
  | scheduleEvent (new : NewEvent) (now : ℚ)
  | reschedule (eventId : Uuid) (startsAt : LocalDatetime) (endsAt : Option LocalDatetime)
  | cancel (eventId : Uuid)

/-- The engine after a call. -/
def step (engine : HearingEngine) : Call → HearingEngine
  | .schedule new now => (engine.schedule new now).2
  | .recordDecision hearingId decision now => afterCall engine (engine.recordDecision hearingId decision now)
  | .addPreparatoryDocument hearingId documentId =>
      afterCall engine (engine.addPreparatoryDocument hearingId documentId)
  | .scheduleEvent new now => (engine.scheduleEvent new now).2
  | .reschedule eventId startsAt endsAt =>
      { engine with
        calendar := afterCall engine.calendar (engine.calendar.reschedule eventId startsAt endsAt) }
  | .cancel eventId =>
      { engine with calendar := afterCall engine.calendar (engine.calendar.cancel eventId) }

/-! ### Agreement -/

/-- The hearing is at the time of its event, which is in the calendar, and its reminder, if it is there,
comes before. -/
def HearingAgrees (calendar : ConfigurableCalendarEngine) (hearing : Hearing) : Prop :=
  (∃ eventId ∈ hearing.calendarEventId, ∃ event, calendar.get eventId = some event ∧
      event.startsAt = hearing.scheduledAt) ∧
    ∀ reminderId ∈ hearing.reminderEventId, ∀ reminder, calendar.get reminderId = some reminder →
      reminder.startsAt < hearing.scheduledAt

/-- Every hearing agrees with the calendar. -/
def Agrees (engine : HearingEngine) : Prop :=
  ∀ hearingId hearing, engine.hearings.get hearingId = some hearing → HearingAgrees engine.calendar hearing

/-- No call moves the event of a hearing to another time or deletes it, or moves a reminder to the time of
its hearing or behind it, and no hearing is given a reminder that does not come before it. -/
def Keeps (engine : HearingEngine) : Call → Prop
  | .schedule new _ =>
      ∀ delta ∈ new.reminderBefore, (∃ startsAt, new.scheduledAt.add (-delta) = .ok startsAt) → 0 < delta
  | .reschedule eventId startsAt _ => ∀ hearingId hearing, engine.hearings.get hearingId = some hearing →
      (hearing.calendarEventId = some eventId → startsAt = hearing.scheduledAt) ∧
        (hearing.reminderEventId = some eventId → engine.calendar.get eventId ≠ none →
          startsAt < hearing.scheduledAt)
  | .cancel eventId => ∀ hearingId hearing, engine.hearings.get hearingId = some hearing →
      hearing.calendarEventId ≠ some eventId
  | _ => True

/-- The identifiers that hearings refer to have been drawn. -/
def Drawn (engine : HearingEngine) : Prop :=
  ∀ hearingId hearing, engine.hearings.get hearingId = some hearing →
    (∀ eventId ∈ hearing.calendarEventId, eventId < engine.drawn) ∧
      ∀ reminderId ∈ hearing.reminderEventId, reminderId < engine.drawn

variable {engine}

/-- New events do not matter to a hearing. -/
lemma HearingAgrees.frame {calendar calendar' : ConfigurableCalendarEngine} {hearing : Hearing} {n : ℕ}
    (h : HearingAgrees calendar hearing) (hevent : ∀ eventId ∈ hearing.calendarEventId, eventId < n)
    (hreminder : ∀ reminderId ∈ hearing.reminderEventId, reminderId < n)
    (hget : ∀ k < n, calendar'.get k = calendar.get k) : HearingAgrees calendar' hearing := by
  obtain ⟨⟨eventId, hid, event, hfound, hstarts⟩, hbefore⟩ := h
  refine ⟨⟨eventId, hid, event, by rw [hget _ (hevent _ hid), hfound], hstarts⟩, ?_⟩
  intro reminderId hid' reminder hfound'
  rw [hget _ (hreminder _ hid')] at hfound'
  exact hbefore reminderId hid' reminder hfound'

/-! ### What a call that schedules a hearing leaves -/

section Schedule

variable (new : NewHearing) (now : ℚ)

/-- The calendar with the event of the hearing. -/
def withEvent (engine : HearingEngine) : ConfigurableCalendarEngine :=
  engine.calendar.save ((new.hearingEvent engine.drawn).event (engine.drawn + 1) now)

/-- The calendar with the reminder, too. -/
def withReminder (engine : HearingEngine) (startsAt : LocalDatetime) : ConfigurableCalendarEngine :=
  (withEvent new now engine).save
    ((new.reminderEvent engine.drawn startsAt).event (engine.drawn + 2) now)

variable {new now}

@[simp] lemma reminderEvent_startsAt (hearingId id : Uuid) (startsAt : LocalDatetime) :
    ((new.reminderEvent hearingId startsAt).event id now).startsAt = startsAt := rfl

@[simp] lemma hearing_scheduledAt (hearingId eventId : Uuid) (reminderId : Option Uuid) :
    (new.hearing hearingId eventId reminderId now).scheduledAt = new.scheduledAt := rfl

lemma get_withEvent (k : Uuid) : (withEvent new now engine).get k =
    if k = engine.drawn + 1 then some ((new.hearingEvent engine.drawn).event (engine.drawn + 1) now)
    else engine.calendar.get k :=
  ConfigurableCalendarEngine.get_save ..

lemma get_withReminder {startsAt : LocalDatetime} (k : Uuid) : (withReminder new now engine startsAt).get k =
    if k = engine.drawn + 2 then
      some ((new.reminderEvent engine.drawn startsAt).event (engine.drawn + 2) now)
    else (withEvent new now engine).get k :=
  ConfigurableCalendarEngine.get_save ..

lemma schedule_none (h : new.reminderBefore = none) : (engine.schedule new now).2 =
    { calendar := withEvent new now engine
      hearings := engine.hearings.set engine.drawn (new.hearing engine.drawn (engine.drawn + 1) none now)
      drawn := engine.drawn + 2 } := by
  unfold schedule
  rw [h]
  rfl

lemma schedule_error {delta : ℤ} {e : PyException} (h : new.reminderBefore = some delta)
    (hadd : new.scheduledAt.add (-delta) = .error e) : (engine.schedule new now).2 =
    { calendar := withEvent new now engine, hearings := engine.hearings, drawn := engine.drawn + 2 } := by
  unfold schedule
  simp only [h, hadd]
  rfl

lemma schedule_some {delta : ℤ} {startsAt : LocalDatetime} (h : new.reminderBefore = some delta)
    (hadd : new.scheduledAt.add (-delta) = .ok startsAt) : (engine.schedule new now).2 =
    { calendar := withReminder new now engine startsAt
      hearings := engine.hearings.set engine.drawn
        (new.hearing engine.drawn (engine.drawn + 1) (some (engine.drawn + 2)) now)
      drawn := engine.drawn + 3 } := by
  unfold schedule
  simp only [h, hadd]
  rfl

/-- The time of the reminder is before the hearing iff the duration is positive. -/
lemma reminder_before_iff {delta : ℤ} {startsAt : LocalDatetime}
    (hadd : new.scheduledAt.add (-delta) = .ok startsAt) : startsAt < new.scheduledAt ↔ 0 < delta := by
  have hwall := LocalDatetime.wall_add hadd
  rw [LocalDatetime.lt_iff]
  omega

end Schedule

/-! ### One call -/

lemma drawn_of_set {hearing : Hearing} {hearingId : Uuid} {n : ℕ} {calendar : ConfigurableCalendarEngine}
    (h : Drawn engine) (hle : engine.drawn ≤ n) (hevent : ∀ eventId ∈ hearing.calendarEventId, eventId < n)
    (hreminder : ∀ reminderId ∈ hearing.reminderEventId, reminderId < n) :
    Drawn { calendar, hearings := engine.hearings.set hearingId hearing, drawn := n } := by
  intro k other hget
  rw [Dict.get_set] at hget
  split at hget
  · cases hget
    exact ⟨hevent, hreminder⟩
  · obtain ⟨hevent', hreminder'⟩ := h k other hget
    exact ⟨fun id hid => (hevent' id hid).trans_le hle, fun id hid => (hreminder' id hid).trans_le hle⟩

lemma drawn_of_le {n : ℕ} {calendar : ConfigurableCalendarEngine} (h : Drawn engine)
    (hle : engine.drawn ≤ n) : Drawn { calendar, hearings := engine.hearings, drawn := n } := by
  intro k hearing hget
  obtain ⟨hevent, hreminder⟩ := h k hearing hget
  exact ⟨fun id hid => (hevent id hid).trans_le hle, fun id hid => (hreminder id hid).trans_le hle⟩

/-- A change of a hearing that leaves its date and its events as they are. -/
lemma update_cases (engine : HearingEngine) (hearingId : Uuid) (f : Hearing → Hearing) :
    afterCall engine (engine.update hearingId f) = engine ∨
      ∃ hearing, engine.hearings.get hearingId = some hearing ∧
        afterCall engine (engine.update hearingId f) =
          { engine with hearings := engine.hearings.set hearingId (f hearing) } := by
  unfold update
  cases hget : engine.hearings.get hearingId with
  | none => exact Or.inl rfl
  | some hearing => exact Or.inr ⟨hearing, rfl, rfl⟩

lemma drawn_update (h : Drawn engine) {hearingId : Uuid} {f : Hearing → Hearing}
    (hevent : ∀ x, (f x).calendarEventId = x.calendarEventId)
    (hreminder : ∀ x, (f x).reminderEventId = x.reminderEventId) :
    Drawn (afterCall engine (engine.update hearingId f)) := by
  rcases update_cases engine hearingId f with heq | ⟨hearing, hget, heq⟩
  · rwa [heq]
  · rw [heq]
    refine drawn_of_set h le_rfl ?_ ?_
    · rw [hevent]
      exact (h hearingId hearing hget).1
    · rw [hreminder]
      exact (h hearingId hearing hget).2

lemma drawn_step (h : Drawn engine) (call : Call) : Drawn (step engine call) := by
  cases call with
  | schedule new now =>
    change Drawn (engine.schedule new now).2
    cases hreminder : new.reminderBefore with
    | none =>
      rw [schedule_none hreminder]
      exact drawn_of_set h (by omega) (by simp [NewHearing.hearing]) (by simp [NewHearing.hearing])
    | some delta =>
      cases hadd : new.scheduledAt.add (-delta) with
      | error e =>
        rw [schedule_error hreminder hadd]
        exact drawn_of_le h (by omega)
      | ok startsAt =>
        rw [schedule_some hreminder hadd]
        exact drawn_of_set h (by omega) (by simp [NewHearing.hearing]) (by simp [NewHearing.hearing])
  | recordDecision hearingId decision now => exact drawn_update h (fun _ => rfl) (fun _ => rfl)
  | addPreparatoryDocument hearingId documentId => exact drawn_update h (fun _ => rfl) (fun _ => rfl)
  | scheduleEvent new now => exact drawn_of_le h (Nat.le_succ _)
  | reschedule eventId startsAt endsAt => exact drawn_of_le h le_rfl
  | cancel eventId => exact drawn_of_le h le_rfl

/-- The hearings that were there agree with a calendar that only has new events. -/
lemma agrees_old (hdrawn : Drawn engine) (h : Agrees engine) {calendar : ConfigurableCalendarEngine}
    (hget : ∀ k < engine.drawn, calendar.get k = engine.calendar.get k) {hearingId : Uuid} {hearing : Hearing}
    (hhearing : engine.hearings.get hearingId = some hearing) : HearingAgrees calendar hearing := by
  obtain ⟨hevent, hreminder⟩ := hdrawn hearingId hearing hhearing
  exact (h hearingId hearing hhearing).frame hevent hreminder hget

lemma agrees_set_iff (hdrawn : Drawn engine) (h : Agrees engine) {calendar : ConfigurableCalendarEngine}
    (hget : ∀ k < engine.drawn, calendar.get k = engine.calendar.get k) {hearingId : Uuid} {n : ℕ}
    {hearing : Hearing} :
    Agrees { calendar, hearings := engine.hearings.set hearingId hearing, drawn := n } ↔
      HearingAgrees calendar hearing := by
  constructor
  · intro hagrees
    exact hagrees hearingId hearing (Dict.get_set_self _ _ _)
  · intro hhearing k other hother
    rw [Dict.get_set] at hother
    split at hother
    · cases hother
      exact hhearing
    · exact agrees_old hdrawn h hget hother

lemma get_withEvent_old {new : NewHearing} {now : ℚ} {k : ℕ} (hk : k < engine.drawn) :
    (withEvent new now engine).get k = engine.calendar.get k := by
  rw [get_withEvent, if_neg (show k ≠ engine.drawn + 1 by omega)]

lemma get_withReminder_old {new : NewHearing} {now : ℚ} {startsAt : LocalDatetime} {k : ℕ}
    (hk : k < engine.drawn) : (withReminder new now engine startsAt).get k = engine.calendar.get k := by
  rw [get_withReminder, if_neg (show k ≠ engine.drawn + 2 by omega), get_withEvent_old hk]

/-- A new hearing without a reminder agrees with its event. -/
lemma hearingAgrees_withEvent (engine : HearingEngine) (new : NewHearing) (now : ℚ) :
    HearingAgrees (withEvent new now engine) (new.hearing engine.drawn (engine.drawn + 1) none now) := by
  refine ⟨⟨engine.drawn + 1, rfl, (new.hearingEvent engine.drawn).event (engine.drawn + 1) now, ?_, rfl⟩, ?_⟩
  · rw [get_withEvent, if_pos rfl]
  · intro reminderId hid
    cases hid

/-- A new hearing with a reminder agrees with its events iff the reminder is before it. -/
lemma hearingAgrees_withReminder_iff (engine : HearingEngine) (new : NewHearing) (now : ℚ)
    (startsAt : LocalDatetime) :
    HearingAgrees (withReminder new now engine startsAt)
      (new.hearing engine.drawn (engine.drawn + 1) (some (engine.drawn + 2)) now) ↔
        startsAt < new.scheduledAt := by
  have hget : (withReminder new now engine startsAt).get (engine.drawn + 2) =
      some ((new.reminderEvent engine.drawn startsAt).event (engine.drawn + 2) now) := by
    rw [get_withReminder, if_pos rfl]
  constructor
  · intro hagrees
    have hbefore := hagrees.2 (engine.drawn + 2) rfl _ hget
    simpa only [hearing_scheduledAt, reminderEvent_startsAt] using hbefore
  · intro hbefore
    refine ⟨⟨engine.drawn + 1, rfl,
      (new.hearingEvent engine.drawn).event (engine.drawn + 1) now, ?_, rfl⟩, ?_⟩
    · rw [get_withReminder, if_neg (show engine.drawn + 1 ≠ engine.drawn + 2 by omega), get_withEvent,
        if_pos rfl]
    · intro reminderId hid reminder hfound
      obtain rfl : engine.drawn + 2 = reminderId := Option.some.inj hid
      rw [hget] at hfound
      cases hfound
      exact hbefore

/-- What is asked of a call that schedules a hearing, where its reminder has a time. -/
lemma keeps_schedule_iff {new : NewHearing} {now : ℚ} {delta : ℤ} {startsAt : LocalDatetime}
    (hreminder : new.reminderBefore = some delta) (hadd : new.scheduledAt.add (-delta) = .ok startsAt) :
    Keeps engine (.schedule new now) ↔ 0 < delta := by
  constructor
  · intro hkeeps
    exact hkeeps delta hreminder ⟨startsAt, hadd⟩
  · intro hpos delta' hdelta' _
    rw [hreminder] at hdelta'
    cases hdelta'
    exact hpos

lemma agrees_schedule_iff (hdrawn : Drawn engine) (h : Agrees engine) (new : NewHearing) (now : ℚ) :
    Agrees (engine.schedule new now).2 ↔ Keeps engine (.schedule new now) := by
  cases hreminder : new.reminderBefore with
  | none =>
    rw [schedule_none hreminder, agrees_set_iff hdrawn h fun k hk => get_withEvent_old hk]
    refine iff_of_true (hearingAgrees_withEvent engine new now) ?_
    intro delta hdelta
    rw [hreminder] at hdelta
    cases hdelta
  | some delta =>
    cases hadd : new.scheduledAt.add (-delta) with
    | error e =>
      -- nothing but the event of the hearing is stored
      rw [schedule_error hreminder hadd]
      refine iff_of_true
        (fun hearingId hearing => agrees_old hdrawn h fun k hk => get_withEvent_old hk) ?_
      intro delta' hdelta' hexists
      rw [hreminder] at hdelta'
      cases hdelta'
      obtain ⟨startsAt, hstarts⟩ := hexists
      rw [hadd] at hstarts
      cases hstarts
    | ok startsAt =>
      rw [schedule_some hreminder hadd, agrees_set_iff hdrawn h fun k hk => get_withReminder_old hk,
        hearingAgrees_withReminder_iff, keeps_schedule_iff hreminder hadd, reminder_before_iff hadd]

lemma agrees_update (h : Agrees engine) {hearingId : Uuid} {f : Hearing → Hearing}
    (hevent : ∀ x, (f x).calendarEventId = x.calendarEventId)
    (hreminder : ∀ x, (f x).reminderEventId = x.reminderEventId)
    (hscheduled : ∀ x, (f x).scheduledAt = x.scheduledAt) :
    Agrees (afterCall engine (engine.update hearingId f)) := by
  rcases update_cases engine hearingId f with heq | ⟨hearing, hget, heq⟩
  · rwa [heq]
  · rw [heq]
    intro k other hother
    change (engine.hearings.set hearingId (f hearing)).get k = some other at hother
    rw [Dict.get_set] at hother
    split at hother
    · cases hother
      have := h hearingId hearing hget
      unfold HearingAgrees at this ⊢
      rwa [hevent, hreminder, hscheduled]
    · exact h k other hother

/-- An event that is moved: what it means to one hearing. -/
lemma agrees_reschedule_iff {calendar : ConfigurableCalendarEngine} {hearing : Hearing}
    (h : HearingAgrees calendar hearing) (eventId : Uuid) (startsAt : LocalDatetime)
    (endsAt : Option LocalDatetime) :
    HearingAgrees (afterCall calendar (calendar.reschedule eventId startsAt endsAt)) hearing ↔
      (hearing.calendarEventId = some eventId → startsAt = hearing.scheduledAt) ∧
        (hearing.reminderEventId = some eventId → calendar.get eventId ≠ none →
          startsAt < hearing.scheduledAt) := by
  obtain ⟨⟨own, hown, event, hfound, hstarts⟩, hbefore⟩ := h
  unfold HearingAgrees
  simp only [ConfigurableCalendarEngine.get_reschedule]
  constructor
  · rintro ⟨⟨own', hown', event', hfound', hstarts'⟩, hbefore'⟩
    obtain rfl := Option.mem_unique hown hown'
    constructor
    · intro hid
      obtain rfl := Option.mem_unique hown hid
      rw [if_pos rfl, hfound] at hfound'
      cases hfound'
      exact hstarts'
    · intro hid hthere
      obtain ⟨reminder, hreminder⟩ := Option.ne_none_iff_exists'.mp hthere
      have := hbefore' eventId hid
      rw [if_pos rfl, hreminder] at this
      simpa only [Option.map_some, Option.some.injEq, forall_eq'] using this
  · rintro ⟨hevent, hreminder⟩
    refine ⟨⟨own, hown, ?_⟩, ?_⟩
    · by_cases hid : own = eventId
      · subst hid
        rw [if_pos rfl, hfound]
        exact ⟨_, rfl, hevent hown⟩
      · rw [if_neg hid]
        exact ⟨event, hfound, hstarts⟩
    · intro reminderId hrid reminder hrem
      by_cases hid : reminderId = eventId
      · subst hid
        rw [if_pos rfl] at hrem
        obtain ⟨old, hold, rfl⟩ := Option.map_eq_some_iff.mp hrem
        exact hreminder hrid (by simp [hold])
      · rw [if_neg hid] at hrem
        exact hbefore reminderId hrid reminder hrem

/-- An event that is cancelled: what it means to one hearing. -/
lemma agrees_cancel_iff {calendar : ConfigurableCalendarEngine} {hearing : Hearing}
    (h : HearingAgrees calendar hearing) (eventId : Uuid) :
    HearingAgrees (afterCall calendar (calendar.cancel eventId)) hearing ↔
      hearing.calendarEventId ≠ some eventId := by
  obtain ⟨⟨own, hown, event, hfound, hstarts⟩, hbefore⟩ := h
  unfold HearingAgrees
  simp only [ConfigurableCalendarEngine.get_cancel]
  constructor
  · rintro ⟨⟨own', hown', event', hfound', -⟩, -⟩ hid
    obtain rfl := Option.mem_unique hown' hid
    rw [if_pos rfl] at hfound'
    cases hfound'
  · intro hne
    refine ⟨⟨own, hown, event, ?_, hstarts⟩, ?_⟩
    · rw [if_neg (by rintro rfl; exact hne hown), hfound]
    · intro reminderId hrid reminder hrem
      split at hrem
      · cases hrem
      · exact hbefore reminderId hrid reminder hrem

/-- **After one call**, hearings and calendar agree iff the call keeps to the discipline. -/
theorem agrees_step_iff (hdrawn : Drawn engine) (h : Agrees engine) (call : Call) :
    Agrees (step engine call) ↔ Keeps engine call := by
  cases call with
  | schedule new now => exact agrees_schedule_iff hdrawn h new now
  | recordDecision hearingId decision now =>
    exact iff_of_true (agrees_update h (fun _ => rfl) (fun _ => rfl) (fun _ => rfl)) trivial
  | addPreparatoryDocument hearingId documentId =>
    exact iff_of_true (agrees_update h (fun _ => rfl) (fun _ => rfl) (fun _ => rfl)) trivial
  | scheduleEvent new now =>
    refine iff_of_true (fun hearingId hearing hhearing => ?_) trivial
    refine agrees_old hdrawn h (fun k hk => ?_) hhearing
    change (engine.calendar.save (new.event engine.drawn now)).get k = _
    rw [ConfigurableCalendarEngine.get_save]
    exact if_neg (Nat.ne_of_lt hk)
  | reschedule eventId startsAt endsAt =>
    refine forall₃_congr fun hearingId hearing hhearing => ?_
    exact agrees_reschedule_iff (h hearingId hearing hhearing) eventId startsAt endsAt
  | cancel eventId =>
    refine forall₃_congr fun hearingId hearing hhearing => ?_
    exact agrees_cancel_iff (h hearingId hearing hhearing) eventId

/-- **Hearings and calendar agree** after every call of a run iff each call keeps to the discipline. -/
theorem agree_iff (calls : List Call) :
    Along step (fun engine call => Agrees (step engine call)) {} calls ↔ Along step Keeps {} calls := by
  have hfirst : Drawn {} ∧ Agrees {} := ⟨fun _ _ h => (nomatch h), fun _ _ h => (nomatch h)⟩
  refine along_congr (I := fun engine => Drawn engine ∧ Agrees engine) hfirst ?_ ?_
  · rintro engine call ⟨hdrawn, hagrees⟩ hkeeps
    exact ⟨drawn_step hdrawn call, (agrees_step_iff hdrawn hagrees call).mpr hkeeps⟩
  · rintro engine call ⟨hdrawn, hagrees⟩
    exact agrees_step_iff hdrawn hagrees call

/-- A hearing on 2 September 2026 at nine, whose event is moved to the next day. -/
def movedHearing : List Call :=
  let morning : LocalDatetime := ⟨⟨{ year := 2026, month := 9, day := 2, hour := 9 }, by decide⟩, rfl⟩
  let nextDay : LocalDatetime := ⟨⟨{ year := 2026, month := 9, day := 3, hour := 9 }, by decide⟩, rfl⟩
  let new : NewHearing := {
    firmId := "firm-1", caseId := "case-1", jurisdiction := "Tribunal", chamber := "1"
    scheduledAt := morning, reminderBefore := none }
  [.schedule new 0, .reschedule 1 nextDay none]

/-- The hearing keeps its old date. -/
theorem movedHearing_disagrees :
    ¬ Along step (fun engine call => Agrees (step engine call)) {} movedHearing := by
  rintro ⟨-, hagrees, -⟩
  obtain ⟨⟨eventId, hid, event, hget, hstarts⟩, -⟩ := hagrees 0 _ rfl
  cases hid
  cases hget
  exact absurd hstarts (by decide)

end HearingEngine

end Tmis.CabinetOs
