import Mathlib.Data.List.Sort
import Tmis.Lib.Calls
import Tmis.Lib.Dict
import Tmis.Lib.Intervals
import Tmis.Lib.LocalDatetime
import Tmis.Lib.PySet
import Tmis.Lib.Run

/-!
# The business calendar

`ConfigurableCalendarEngine` with its in-memory store, over the datetimes of one time zone: events that
are scheduled, moved and cancelled, and the views of a day, a week and a month around a reference date.

* `CalendarEvent`, `ConfigurableCalendarEngine` — the events, under their identifiers;
* `window`, `view` — the window of a view, and the events that it shows;
* `SamePeriod` — what a window should hold: one day, one week from a Monday on, one month;
* `window_isClass`, `window_exists` — it holds that, and there is one before the last year;
* `windows_partition` — windows partition time, and a view shows the events of its period.
-/

namespace Tmis.CabinetOs

open Tmis.Lib IsoDate

inductive CalendarEventType where
  | hearing | appointment | call | deadline | reminder
  deriving DecidableEq

inductive CalendarView where
  | day | week | month | agenda
  deriving DecidableEq

structure CalendarEvent where
  id : Uuid
  firmId : String
  eventType : CalendarEventType
  title : String
  startsAt : LocalDatetime
  endsAt : Option LocalDatetime := none
  caseId : Option String := none
  participantIds : PySet String := ∅
  location : String := ""
  relatedId : Option Uuid := none
  createdAt : Option ℚ := none

/-- What a caller says of a new event. -/
structure NewEvent where
  firmId : String
  eventType : CalendarEventType
  title : String
  startsAt : LocalDatetime
  endsAt : Option LocalDatetime := none
  caseId : Option String := none
  participantIds : PySet String := ∅
  location : String := ""
  relatedId : Option Uuid := none

def NewEvent.event (new : NewEvent) (id : Uuid) (now : ℚ) : CalendarEvent where
  id := id
  firmId := new.firmId
  eventType := new.eventType
  title := new.title
  startsAt := new.startsAt
  endsAt := new.endsAt
  caseId := new.caseId
  participantIds := new.participantIds
  location := new.location
  relatedId := new.relatedId
  createdAt := some now

/-- The engine with its in-memory store: every event stands under its identifier. -/
structure ConfigurableCalendarEngine where
  events : Dict Uuid CalendarEvent := ∅
  keyed : ∀ k event, events.get k = some event → event.id = k := by intro _ _ h; cases h

namespace ConfigurableCalendarEngine

/-! ### The store -/

def get (calendar : ConfigurableCalendarEngine) (eventId : Uuid) : Option CalendarEvent :=
  calendar.events.get eventId

def save (calendar : ConfigurableCalendarEngine) (event : CalendarEvent) : ConfigurableCalendarEngine where
  events := calendar.events.set event.id event
  keyed k event' h := by
    rw [Dict.get_set] at h
    split at h
    · cases h
      exact Eq.symm ‹_›
    · exact calendar.keyed k event' h

def delete (calendar : ConfigurableCalendarEngine) (eventId : Uuid) : ConfigurableCalendarEngine where
  events := calendar.events.pop eventId
  keyed k event h := calendar.keyed k event (Dict.get_of_get_pop h)

def listForRange (calendar : ConfigurableCalendarEngine) (firmId : String)
    (startsAt endsAt : LocalDatetime) : List CalendarEvent :=
  calendar.events.values.filter fun event =>
    event.firmId = firmId ∧ startsAt ≤ event.startsAt ∧ event.startsAt < endsAt

def listForFirm (calendar : ConfigurableCalendarEngine) (firmId : String) : List CalendarEvent :=
  calendar.events.values.filter fun event => event.firmId = firmId

/-! ### The engine -/

/-- `schedule`: the event, under the identifier drawn for it, and the calendar. -/
def schedule (calendar : ConfigurableCalendarEngine) (new : NewEvent) (id : Uuid) (now : ℚ) :
    CalendarEvent × ConfigurableCalendarEngine :=
  (new.event id now, calendar.save (new.event id now))

def unknownEvent (eventId : Uuid) : PyException :=
  valueError ("Unknown calendar event " ++ pyRepr (toString eventId))

def reschedule (calendar : ConfigurableCalendarEngine) (eventId : Uuid) (startsAt : LocalDatetime)
    (endsAt : Option LocalDatetime) : Except PyException ConfigurableCalendarEngine :=
  match calendar.get eventId with
  | none => .error (unknownEvent eventId)
  | some event => .ok (calendar.save { event with startsAt, endsAt })

def cancel (calendar : ConfigurableCalendarEngine) (eventId : Uuid) :
    Except PyException ConfigurableCalendarEngine :=
  match calendar.get eventId with
  | none => .error (unknownEvent eventId)
  | some _ => .ok (calendar.delete eventId)

/-- `timedelta(days=days)`. -/
def days (n : ℤ) : ℤ := n * dayMicros

/-- The first of the month after that of a first of a month. -/
def nextMonth (monthStart : LocalDatetime) : Except PyException LocalDatetime :=
  if monthStart.1.month = 12 then monthStart.replace (monthStart.1.year + 1) 1 monthStart.1.day
  else monthStart.replace monthStart.1.year (monthStart.1.month + 1) monthStart.1.day

/-- `_window`. -/
def window (view : CalendarView) (referenceDate : LocalDatetime) :
    Except PyException (LocalDatetime × LocalDatetime) := do
  let dayStart := referenceDate.midnight
  match view with
  | .day => return (dayStart, ← dayStart.add (days 1))
  | .week =>
    let weekStart ← dayStart.add (days (-dayStart.weekday))
    return (weekStart, ← weekStart.add (days 7))
  | .month =>
    let monthStart ← dayStart.replace dayStart.1.year dayStart.1.month 1
    return (monthStart, ← nextMonth monthStart)
  | .agenda => throw (valueError "Unsupported view: CalendarView.AGENDA")

/-- `sorted(events, key=lambda e: e.starts_at)`. -/
def sortedByStart (events : List CalendarEvent) : List CalendarEvent :=
  events.insertionSort fun a b => a.startsAt ≤ b.startsAt

def view (calendar : ConfigurableCalendarEngine) (firmId : String) (view : CalendarView)
    (referenceDate : LocalDatetime) : Except PyException (List CalendarEvent) :=
  if view = .agenda then
    .ok (sortedByStart ((calendar.listForFirm firmId).filter fun event => referenceDate ≤ event.startsAt))
  else (window view referenceDate).map fun (start, stop) =>
    sortedByStart (calendar.listForRange firmId start stop)

/-! ### The events after a call -/

lemma get_save (calendar : ConfigurableCalendarEngine) (event : CalendarEvent) (k : Uuid) :
    (calendar.save event).get k = if k = event.id then some event else calendar.get k :=
  Dict.get_set ..

/-- After an event was moved. -/
lemma get_reschedule (calendar : ConfigurableCalendarEngine) (eventId : Uuid) (startsAt : LocalDatetime)
    (endsAt : Option LocalDatetime) (k : Uuid) :
    (afterCall calendar (calendar.reschedule eventId startsAt endsAt)).get k =
      if k = eventId then (calendar.get k).map fun event => { event with startsAt, endsAt }
      else calendar.get k := by
  unfold reschedule
  cases hget : calendar.get eventId with
  | none =>
    by_cases hk : k = eventId
    · subst hk
      simp [hget]
    · simp [hk]
  | some event =>
    have hid := calendar.keyed eventId event hget
    rw [afterCall_ok, get_save]
    by_cases hk : k = eventId
    · subst hk
      simp [hget, hid]
    · simp [hk, hid]

/-- After an event was cancelled. -/
lemma get_cancel (calendar : ConfigurableCalendarEngine) (eventId k : Uuid) :
    (afterCall calendar (calendar.cancel eventId)).get k =
      if k = eventId then none else calendar.get k := by
  unfold cancel
  by_cases hk : k = eventId
  · subst hk
    cases hget : calendar.get k with
    | none => simp [hget]
    | some event => simp [delete, get]
  · rw [if_neg hk]
    cases hget : calendar.get eventId with
    | none => rfl
    | some event => exact Dict.get_pop_of_ne _ hk

/-! ### The periods of a view -/

/-- The Monday of the week of a datetime. -/
def monday (d : LocalDatetime) : ℕ := d.day - d.weekday

/-- Two datetimes are of one day, one week that begins with a Monday, or one month.  The agenda does not
divide time. -/
def SamePeriod : CalendarView → LocalDatetime → LocalDatetime → Prop
  | .day, a, b => a.1.year = b.1.year ∧ a.1.month = b.1.month ∧ a.1.day = b.1.day
  | .week, a, b => monday a = monday b
  | .month, a, b => a.1.year = b.1.year ∧ a.1.month = b.1.month
  | .agenda, _, _ => True

lemma samePeriod_equivalence (view : CalendarView) : Equivalence (SamePeriod view) := by
  constructor
  · intro a
    cases view <;> simp [SamePeriod]
  · intro a b h
    cases view <;> simp_all [SamePeriod]
  · intro a b c h h'
    cases view <;> simp_all [SamePeriod]

lemma same_day_iff {a b : LocalDatetime} : a.day = b.day ↔ SamePeriod .day a b := by
  constructor
  · exact ordinal_inj a.validDate b.validDate
  · rintro ⟨hyear, hmonth, hday⟩
    unfold LocalDatetime.day
    rw [hyear, hmonth, hday]

lemma weekday_lt (d : LocalDatetime) : d.weekday < 7 ∧ d.weekday < d.day := by
  have hpos : 1 ≤ d.day := by
    have := d.validDate.2.2.2.1
    unfold LocalDatetime.day ordinal
    omega
  unfold LocalDatetime.weekday
  omega

lemma day_window {reference start stop : LocalDatetime} (h : window .day reference = .ok (start, stop)) :
    IsClass (SamePeriod .day) reference start stop := by
  obtain ⟨stop', hstop, heq⟩ := bind_eq_ok.mp h
  obtain ⟨rfl, rfl⟩ : reference.midnight = start ∧ stop' = stop := by
    simpa using pure_eq_ok.mp heq
  obtain ⟨hday, htime⟩ := LocalDatetime.of_add_days_eq_ok reference.midnight_timeOfDay hstop
  intro d
  rw [LocalDatetime.le_iff_day_le reference.midnight_timeOfDay, LocalDatetime.lt_iff_day_lt htime,
    ← same_day_iff]
  rw [LocalDatetime.midnight_day] at hday ⊢
  omega

lemma week_window {reference start stop : LocalDatetime} (h : window .week reference = .ok (start, stop)) :
    IsClass (SamePeriod .week) reference start stop := by
  obtain ⟨start', hstart, h⟩ := bind_eq_ok.mp h
  obtain ⟨stop', hstop, heq⟩ := bind_eq_ok.mp h
  obtain ⟨rfl, rfl⟩ : start' = start ∧ stop' = stop := by
    simpa using pure_eq_ok.mp heq
  obtain ⟨hday, htime⟩ := LocalDatetime.of_add_days_eq_ok reference.midnight_timeOfDay hstart
  obtain ⟨hday', htime'⟩ := LocalDatetime.of_add_days_eq_ok htime hstop
  intro d
  rw [LocalDatetime.le_iff_day_le htime, LocalDatetime.lt_iff_day_lt htime']
  show _ ↔ d.day - (d.day + 6) % 7 = reference.day - (reference.day + 6) % 7
  change (start'.day : ℤ) = reference.day + -((reference.day + 6) % 7 : ℕ) at hday
  have := weekday_lt d
  have := weekday_lt reference
  unfold LocalDatetime.weekday at *
  omega

/-- The same day of the next month. -/
lemma of_nextMonth_eq_ok {start stop : LocalDatetime} (h : nextMonth start = .ok stop) :
    (if start.1.month = 12 then stop.1.year = start.1.year + 1 ∧ stop.1.month = 1
      else stop.1.year = start.1.year ∧ stop.1.month = start.1.month + 1) ∧
    stop.1.day = start.1.day ∧ stop.timeOfDay = start.timeOfDay := by
  unfold nextMonth at h
  split at h
  · obtain ⟨⟨hyear, hmonth, hday⟩, htime⟩ := LocalDatetime.of_replace_eq_ok h
    rw [if_pos ‹_›]
    exact ⟨⟨hyear, hmonth⟩, hday, htime⟩
  · obtain ⟨⟨hyear, hmonth, hday⟩, htime⟩ := LocalDatetime.of_replace_eq_ok h
    rw [if_neg ‹_›]
    exact ⟨⟨hyear, hmonth⟩, hday, htime⟩

/-- Before the last year, the first of a month has a next one. -/
lemma nextMonth_eq_ok {start : LocalDatetime} (hyear : start.1.year < 9999) (hday : start.1.day = 1) :
    ∃ stop, nextMonth start = .ok stop := by
  obtain ⟨hy, hm, hm', -, -⟩ := start.validDate
  unfold nextMonth
  split
  · obtain ⟨stop, hstop, -⟩ := LocalDatetime.replace_eq_ok (d := start)
      (show ValidDate (start.1.year + 1) 1 start.1.day from
        ⟨by omega, by decide, by decide, by omega, hday ▸ daysInMonth_pos _ _⟩) (by omega)
    exact ⟨stop, hstop⟩
  · obtain ⟨stop, hstop, -⟩ := LocalDatetime.replace_eq_ok (d := start)
      (show ValidDate start.1.year (start.1.month + 1) start.1.day from
        ⟨by omega, by omega, by omega, by omega, hday ▸ daysInMonth_pos _ _⟩) (by omega)
    exact ⟨stop, hstop⟩

lemma month_window {reference start stop : LocalDatetime} (h : window .month reference = .ok (start, stop)) :
    IsClass (SamePeriod .month) reference start stop := by
  obtain ⟨start', hstart, h⟩ := bind_eq_ok.mp h
  obtain ⟨stop', hstop, heq⟩ := bind_eq_ok.mp h
  obtain ⟨rfl, rfl⟩ : start' = start ∧ stop' = stop := by
    simpa using pure_eq_ok.mp heq
  obtain ⟨⟨hyear, hmonth, hday⟩, htime⟩ := LocalDatetime.of_replace_eq_ok hstart
  obtain ⟨hnext, hday', htime'⟩ := of_nextMonth_eq_ok hstop
  have hmidnight : start'.timeOfDay = 0 := htime.trans reference.midnight_timeOfDay
  intro d
  rw [LocalDatetime.le_iff_day_le hmidnight, LocalDatetime.lt_iff_day_lt (htime'.trans hmidnight), ← not_lt]
  unfold LocalDatetime.day
  rw [ordinal_lt_iff d.validDate start'.validDate, ordinal_lt_iff d.validDate stop'.validDate]
  show _ ↔ d.1.year = reference.1.year ∧ d.1.month = reference.1.month
  have hd := d.validDate
  change start'.1.year = reference.1.year at hyear
  change start'.1.month = reference.1.month at hmonth
  unfold DateLt ValidDate at *
  split at hnext <;> omega

/-- **A window holds one period of its view.** -/
theorem window_isClass {view : CalendarView} {reference start stop : LocalDatetime}
    (h : window view reference = .ok (start, stop)) : IsClass (SamePeriod view) reference start stop := by
  cases view with
  | day => exact day_window h
  | week => exact week_window h
  | month => exact month_window h
  | agenda => cases h

/-- **There is a window** around each date before the last year. -/
theorem window_exists {view : CalendarView} (hview : view ≠ .agenda) {reference : LocalDatetime}
    (hyear : reference.1.year < 9999) : ∃ start stop, window view reference = .ok (start, stop) := by
  have hday : reference.midnight.day + 7 ≤ daysBeforeYear 10000 := by
    have hle := ordinal_le_year reference.validDate
    have hmono := daysBeforeYear_mono (show 1 ≤ reference.1.year + 1 by omega) (show _ ≤ 9999 by omega)
    have hlast : daysBeforeYear 9999 + 7 ≤ daysBeforeYear 10000 := by decide
    change ordinal reference.1.year reference.1.month reference.1.day + 7 ≤ _
    omega
  have hmidnight := reference.midnight_timeOfDay
  have hweekday := weekday_lt reference.midnight
  cases view with
  | day =>
    obtain ⟨stop, hstop, -⟩ := LocalDatetime.add_days_eq_ok hmidnight 1 (by omega)
    exact ⟨_, stop, bind_eq_ok.mpr ⟨stop, hstop, rfl⟩⟩
  | week =>
    obtain ⟨start, hstart, hday', htime⟩ :=
      LocalDatetime.add_days_eq_ok hmidnight (-reference.midnight.weekday) (by omega)
    obtain ⟨stop, hstop, -⟩ := LocalDatetime.add_days_eq_ok htime 7 (by omega)
    exact ⟨start, stop, bind_eq_ok.mpr ⟨start, hstart, bind_eq_ok.mpr ⟨stop, hstop, rfl⟩⟩⟩
  | month =>
    obtain ⟨hy, hm, hm', -, -⟩ := reference.validDate
    obtain ⟨start, hstart, ⟨hyear', hmonth', hday'⟩, -⟩ := LocalDatetime.replace_eq_ok (d := reference.midnight)
      (show ValidDate reference.1.year reference.1.month 1 from ⟨hy, hm, hm', le_rfl, daysInMonth_pos _ _⟩)
      (by omega)
    have hyear : start.1.year < 9999 := hyear'.symm ▸ hyear
    obtain ⟨stop, hstop⟩ := nextMonth_eq_ok hyear hday'
    exact ⟨start, stop, bind_eq_ok.mpr ⟨start, hstart, bind_eq_ok.mpr ⟨stop, hstop, rfl⟩⟩⟩
  | agenda => exact absurd rfl hview

/-! ### Views -/

/-- The events that a view shows, where it has a window. -/
lemma mem_listForRange {calendar : ConfigurableCalendarEngine} {firmId : String}
    {start stop : LocalDatetime} {event : CalendarEvent} :
    event ∈ calendar.listForRange firmId start stop ↔ calendar.get event.id = some event ∧
      event.firmId = firmId ∧ start ≤ event.startsAt ∧ event.startsAt < stop := by
  unfold listForRange get
  rw [List.mem_filter, Dict.mem_values_iff, decide_eq_true_eq]
  refine and_congr_left fun _ => ⟨?_, fun h => ⟨event.id, h⟩⟩
  rintro ⟨k, hk⟩
  rwa [calendar.keyed k event hk]

lemma values_nodup (calendar : ConfigurableCalendarEngine) : calendar.events.values.Nodup := by
  have hids : calendar.events.values.map (·.id) = calendar.events.entries.map Prod.fst := by
    rw [Dict.values, List.map_map]
    refine List.map_congr_left fun entry hentry => ?_
    exact calendar.keyed _ _ (Dict.mem_entries_iff.mp hentry)
  refine List.Nodup.of_map (·.id) ?_
  rw [hids]
  exact calendar.events.nodup

lemma sortedByStart_sorted (events : List CalendarEvent) :
    (sortedByStart events).Pairwise fun a b => a.startsAt ≤ b.startsAt := by
  have : Std.Total fun a b : CalendarEvent => a.startsAt ≤ b.startsAt := ⟨fun a b => le_total _ _⟩
  have : IsTrans CalendarEvent fun a b => a.startsAt ≤ b.startsAt := ⟨fun _ _ _ => le_trans⟩
  exact List.pairwise_insertionSort _ events

lemma sortedByStart_perm (events : List CalendarEvent) : (sortedByStart events).Perm events :=
  List.perm_insertionSort _ events

/-- A call of the engine that changes the calendar. -/
inductive Call where
  | schedule (new : NewEvent) (id : Uuid) (now : ℚ)
  | reschedule (eventId : Uuid) (startsAt : LocalDatetime) (endsAt : Option LocalDatetime)
  | cancel (eventId : Uuid)

/-- The calendar after a call. -/
def step (calendar : ConfigurableCalendarEngine) : Call → ConfigurableCalendarEngine
  | .schedule new id now => (calendar.schedule new id now).2
  | .reschedule eventId startsAt endsAt => afterCall calendar (calendar.reschedule eventId startsAt endsAt)
  | .cancel eventId => afterCall calendar (calendar.cancel eventId)

/-- The window from `start` to `stop` is one of a partition of time, and the view of the reference date
shows the firm's events of the same period, in the order of their starts. -/
structure Partitioned (calendar : ConfigurableCalendarEngine) (firmId : String) (view : CalendarView)
    (reference start stop : LocalDatetime) : Prop where
  contains : start ≤ reference ∧ reference < stop
  eqOrDisjoint : ∀ reference' start' stop', window view reference' = .ok (start', stop') →
    (start = start' ∧ stop = stop') ∨ stop ≤ start' ∨ stop' ≤ start
  noGap : ∀ start' stop', window view stop = .ok (start', stop') → start' = stop
  shown : ∃ events, calendar.view firmId view reference = .ok events ∧
    (events.Pairwise fun a b => a.startsAt ≤ b.startsAt) ∧ events.Nodup ∧
    ∀ event, event ∈ events ↔ calendar.get event.id = some event ∧ event.firmId = firmId ∧
      SamePeriod view event.startsAt reference

/-- **Windows partition time**, whatever calls the calendar comes from. -/
theorem windows_partition {view : CalendarView} (hview : view ≠ .agenda) {reference : LocalDatetime}
    (hyear : reference.1.year < 9999) (calls : List Call) (firmId : String) :
    ∃ start stop, window view reference = .ok (start, stop) ∧
      Partitioned (run step {} calls) firmId view reference start stop := by
  have hequiv := samePeriod_equivalence view
  obtain ⟨start, stop, hwindow⟩ := window_exists hview hyear
  have hclass := window_isClass hwindow
  refine ⟨start, stop, hwindow, hclass.contains hequiv.refl, ?_, ?_, ?_⟩
  · intro reference' start' stop' hwindow'
    exact hclass.eq_or_disjoint hequiv (window_isClass hwindow')
  · intro start' stop' hwindow'
    exact hclass.next hequiv (window_isClass hwindow')
  · refine ⟨sortedByStart ((run step {} calls).listForRange firmId start stop), ?_, ?_, ?_, ?_⟩
    · rw [ConfigurableCalendarEngine.view, if_neg hview, hwindow]
      rfl
    · exact sortedByStart_sorted _
    · exact (sortedByStart_perm _).nodup_iff.mpr ((values_nodup _).filter _)
    · intro event
      rw [(sortedByStart_perm _).mem_iff, mem_listForRange, hclass event.startsAt]

/-- 31 December 2024, at ten. -/
def lastOf2024 : LocalDatetime := ⟨⟨{ year := 2024, month := 12, day := 31, hour := 10 }, by decide⟩, rfl⟩

theorem windows_partition_december : ∃ start stop, window .month lastOf2024 = .ok (start, stop) ∧
    Partitioned (run step {} []) "firm-1" .month lastOf2024 start stop :=
  windows_partition (by decide) (by decide) [] "firm-1"

end ConfigurableCalendarEngine

end Tmis.CabinetOs
