import Mathlib.Order.Basic
import Tmis.Lib.Timedelta

/-!
# Datetimes of one time zone

Two datetimes with the same time zone are compared by what their clocks show, and so is the sum of one
with a duration taken.  The time zone itself then plays no part, and is left out.

* `ordinal_lt_iff` — days are ordered as their years, months and days of the month are;
* `LocalDatetime`, `LocalDatetime.wall` — a datetime, and the microseconds its clock shows; a linear order;
* `wall_injective`, `lt_iff`, `midnight_le_iff`, `lt_midnight_iff` — comparing datetimes;
* `replace`, `add` — `d.replace(..)` and `d + delta`; `add_days_eq_ok`, the sum with days of a midnight.
-/

namespace Tmis.Lib

open IsoDate

/-! ### The order of days -/

lemma daysInMonth_pos (year month : ℕ) : 1 ≤ daysInMonth year month := by
  unfold daysInMonth
  split_ifs <;> decide

lemma daysBeforeMonth_mono (year : ℕ) {month month' : ℕ} (h : 1 ≤ month) (hle : month ≤ month') :
    daysBeforeMonth year month ≤ daysBeforeMonth year month' := by
  induction hle with
  | refl => exact le_rfl
  | @step m hm ih =>
    have := daysBeforeMonth_succ year (h.trans hm)
    change daysBeforeMonth year month ≤ daysBeforeMonth year (m + 1)
    omega

lemma daysBeforeYear_mono {year year' : ℕ} (h : 1 ≤ year) (hle : year ≤ year') :
    daysBeforeYear year ≤ daysBeforeYear year' := by
  induction hle with
  | refl => exact le_rfl
  | @step y hy ih =>
    have := daysBeforeYear_succ (h.trans hy)
    change daysBeforeYear year ≤ daysBeforeYear (y + 1)
    omega

/-- There is a day with this date. -/
def ValidDate (year month day : ℕ) : Prop :=
  1 ≤ year ∧ 1 ≤ month ∧ month ≤ 12 ∧ 1 ≤ day ∧ day ≤ daysInMonth year month

section Ordinal

variable {year month day year' month' day' : ℕ}

/-- A day is before the first of a later month. -/
lemma ordinal_lt_of_month_lt (h : ValidDate year month day) (h' : ValidDate year month' day')
    (hlt : month < month') : ordinal year month day < ordinal year month' day' := by
  obtain ⟨-, hmonth, -, -, hday⟩ := h
  obtain ⟨-, -, -, hday', -⟩ := h'
  have hsucc := daysBeforeMonth_succ year hmonth
  have hmono := daysBeforeMonth_mono year (show 1 ≤ month + 1 by omega) hlt
  unfold ordinal
  omega

/-- A day is before the end of its year. -/
lemma ordinal_le_year (h : ValidDate year month day) : ordinal year month day ≤ daysBeforeYear (year + 1) := by
  obtain ⟨hyear, hmonth, hmonth', -, hday⟩ := h
  have hsucc := daysBeforeMonth_succ year hmonth
  have hlast : daysBeforeMonth year (month + 1) ≤ daysBeforeMonth year 12 + 31 := by
    rcases Nat.lt_or_ge month 12 with hlt | hge
    · have := daysBeforeMonth_mono year (show 1 ≤ month + 1 by omega) hlt
      omega
    · obtain rfl : month = 12 := by omega
      rw [daysBeforeMonth_succ year hmonth]
      exact le_rfl
  rw [daysBeforeYear_succ hyear]
  unfold ordinal
  omega

lemma ordinal_lt_of_year_lt (h : ValidDate year month day) (h' : ValidDate year' month' day')
    (hlt : year < year') : ordinal year month day < ordinal year' month' day' := by
  have hle := ordinal_le_year h
  have hmono := daysBeforeYear_mono (show 1 ≤ year + 1 by omega) hlt
  obtain ⟨-, -, -, hday', -⟩ := h'
  unfold ordinal at hle ⊢
  omega

/-- The order of dates: the year first, then the month, then the day. -/
def DateLt (year month day year' month' day' : ℕ) : Prop :=
  year < year' ∨ (year = year' ∧ (month < month' ∨ (month = month' ∧ day < day')))

lemma ordinal_lt_of_dateLt (h : ValidDate year month day) (h' : ValidDate year' month' day')
    (hlt : DateLt year month day year' month' day') : ordinal year month day < ordinal year' month' day' := by
  rcases hlt with hyear | ⟨rfl, hmonth | ⟨rfl, hday⟩⟩
  · exact ordinal_lt_of_year_lt h h' hyear
  · exact ordinal_lt_of_month_lt h h' hmonth
  · unfold ordinal
    omega

/-- **Days are ordered as their dates are.** -/
theorem ordinal_lt_iff (h : ValidDate year month day) (h' : ValidDate year' month' day') :
    ordinal year month day < ordinal year' month' day' ↔ DateLt year month day year' month' day' := by
  refine ⟨fun hlt => ?_, ordinal_lt_of_dateLt h h'⟩
  by_contra hnot
  have hback : DateLt year' month' day' year month day ∨ (year = year' ∧ month = month' ∧ day = day') := by
    unfold DateLt at hnot ⊢
    omega
  rcases hback with hback | ⟨rfl, rfl, rfl⟩
  · exact absurd (ordinal_lt_of_dateLt h' h hback) (not_lt.mpr hlt.le)
  · exact absurd hlt (lt_irrefl _)

/-- A day has one date. -/
lemma ordinal_inj (h : ValidDate year month day) (h' : ValidDate year' month' day')
    (heq : ordinal year month day = ordinal year' month' day') :
    year = year' ∧ month = month' ∧ day = day' := by
  have hlt : ¬ DateLt year month day year' month' day' := fun hd => (ordinal_lt_of_dateLt h h' hd).ne heq
  have hgt : ¬ DateLt year' month' day' year month day := fun hd => (ordinal_lt_of_dateLt h' h hd).ne heq.symm
  unfold DateLt at hlt hgt
  omega

end Ordinal

/-! ### Datetimes -/

/-- A datetime of the one time zone there is. -/
abbrev LocalDatetime := { d : Datetime // d.utcoffset = none }

namespace LocalDatetime

/-- The day, counted from 1 January of the year 1. -/
def day (d : LocalDatetime) : ℕ := ordinal d.1.year d.1.month d.1.day

/-- The microseconds of the day. -/
def timeOfDay (d : LocalDatetime) : ℕ :=
  ((d.1.hour * 60 + d.1.minute) * 60 + d.1.second) * 10 ^ 6 + d.1.microsecond

/-- The microseconds that the clock shows. -/
def wall (d : LocalDatetime) : ℕ := d.day * dayMicros + d.timeOfDay

lemma validDate (d : LocalDatetime) : ValidDate d.1.year d.1.month d.1.day := by
  obtain ⟨⟨h1, -, h3, h4, h5, h6⟩, -⟩ := d.1.valid
  exact ⟨h1, h3, h4, h5, h6⟩

lemma timeOfDay_lt (d : LocalDatetime) : d.timeOfDay < dayMicros := by
  obtain ⟨-, ⟨hh, hm, hs, hu⟩, -⟩ := d.1.valid
  unfold timeOfDay dayMicros
  omega

lemma wall_div (d : LocalDatetime) : d.wall / dayMicros = d.day := by
  have := d.timeOfDay_lt
  unfold wall
  rw [Nat.mul_comm, Nat.mul_add_div (by decide), Nat.div_eq_of_lt this, Nat.add_zero]

/-- **A datetime is told by what the clock shows.** -/
theorem wall_injective : Function.Injective wall := by
  intro a b h
  have hday : a.day = b.day := by rw [← wall_div, ← wall_div, h]
  have htime : a.timeOfDay = b.timeOfDay := by
    unfold wall at h
    rw [hday] at h
    omega
  obtain ⟨hyear, hmonth, hdate⟩ := ordinal_inj a.validDate b.validDate hday
  obtain ⟨-, ⟨hh, hm, hs, hu⟩, -⟩ := a.1.valid
  obtain ⟨-, ⟨hh', hm', hs', hu'⟩, -⟩ := b.1.valid
  unfold timeOfDay at htime
  have hoffset : a.1.utcoffset = b.1.utcoffset := a.2.trans b.2.symm
  have hfields : a.1.toDatetimeFields = b.1.toDatetimeFields := by
    have hhour : a.1.hour = b.1.hour := by omega
    have hminute : a.1.minute = b.1.minute := by omega
    have hsecond : a.1.second = b.1.second := by omega
    have hmicros : a.1.microsecond = b.1.microsecond := by omega
    cases ha : a.1.toDatetimeFields
    cases hb : b.1.toDatetimeFields
    simp_all
  obtain ⟨⟨af, av⟩, ah⟩ := a
  obtain ⟨⟨bf, bv⟩, bh⟩ := b
  obtain rfl : af = bf := hfields
  rfl

instance : LinearOrder LocalDatetime := LinearOrder.lift' wall wall_injective

lemma le_iff {a b : LocalDatetime} : a ≤ b ↔ a.wall ≤ b.wall := Iff.rfl

lemma lt_iff {a b : LocalDatetime} : a < b ↔ a.wall < b.wall := Iff.rfl

/-- `d.replace(hour=0, minute=0, second=0, microsecond=0)`. -/
def midnight (d : LocalDatetime) : LocalDatetime where
  val := { d.1.toDatetimeFields with
    hour := 0, minute := 0, second := 0, microsecond := 0
    valid := ⟨d.1.valid.1,
      ⟨(by decide : 0 < 24), (by decide : 0 < 60), (by decide : 0 < 60), (by decide : 0 < 10 ^ 6)⟩,
      d.1.valid.2.2⟩ }
  property := d.2

@[simp] lemma midnight_day (d : LocalDatetime) : d.midnight.day = d.day := rfl

@[simp] lemma midnight_timeOfDay (d : LocalDatetime) : d.midnight.timeOfDay = 0 := by
  simp [timeOfDay, midnight]

/-- A datetime at midnight is told by its day. -/
lemma le_iff_day_le {start d : LocalDatetime} (h : start.timeOfDay = 0) : start ≤ d ↔ start.day ≤ d.day := by
  constructor
  · intro hle
    rw [← wall_div, ← wall_div]
    exact Nat.div_le_div_right hle
  · intro hle
    have hdays : start.day * dayMicros ≤ d.day * dayMicros := Nat.mul_le_mul_right dayMicros hle
    rw [le_iff, wall, wall, h, Nat.add_zero]
    exact hdays.trans (Nat.le_add_right _ _)

lemma lt_iff_day_lt {stop d : LocalDatetime} (h : stop.timeOfDay = 0) : d < stop ↔ d.day < stop.day := by
  rw [← not_le, le_iff_day_le h, not_le]

/-- The day of the week, counted from Monday. -/
def weekday (d : LocalDatetime) : ℕ := (d.day + 6) % 7

/-- `d.replace(year=.., month=.., day=..)`. -/
def replace (d : LocalDatetime) (year month day : ℕ) : Except PyException LocalDatetime :=
  if h : { d.1.toDatetimeFields with year, month, day }.Valid then
    .ok ⟨⟨{ d.1.toDatetimeFields with year, month, day }, h⟩, d.2⟩
  else .error (valueError
    (if 1 ≤ year ∧ year ≤ 9999 then
      (if 1 ≤ month ∧ month ≤ 12 then "day is out of range for month" else "month must be in 1..12")
    else "year " ++ toString year ++ " is out of range"))

/-- The date that is asked for is got, with the same time, if there is such a date. -/
lemma replace_eq_ok {d : LocalDatetime} {year month day : ℕ} (h : ValidDate year month day)
    (hyear : year ≤ 9999) : ∃ d', d.replace year month day = .ok d' ∧
      (d'.1.year = year ∧ d'.1.month = month ∧ d'.1.day = day) ∧ d'.timeOfDay = d.timeOfDay := by
  obtain ⟨h1, h2, h3, h4, h5⟩ := h
  have hvalid : { d.1.toDatetimeFields with year, month, day }.Valid :=
    ⟨⟨h1, hyear, h2, h3, h4, h5⟩, d.1.valid.2⟩
  exact ⟨_, dif_pos hvalid, ⟨rfl, rfl, rfl⟩, rfl⟩

lemma of_replace_eq_ok {d d' : LocalDatetime} {year month day : ℕ} (h : d.replace year month day = .ok d') :
    (d'.1.year = year ∧ d'.1.month = month ∧ d'.1.day = day) ∧ d'.timeOfDay = d.timeOfDay := by
  unfold replace at h
  split at h
  · cases h
    exact ⟨⟨rfl, rfl, rfl⟩, rfl⟩
  · cases h

/-! ### Durations -/

/-- The datetime at which the clock shows so many microseconds, if there is one. -/
def ofWall (micros : ℕ) (h : 1 ≤ micros / dayMicros ∧ micros / dayMicros ≤ daysBeforeYear 10000) :
    LocalDatetime where
  val := {
    year := (ofOrdinal (micros / dayMicros)).1
    month := (ofOrdinal (micros / dayMicros)).2.1
    day := (ofOrdinal (micros / dayMicros)).2.2
    hour := micros % dayMicros / 10 ^ 6 / 60 / 60
    minute := micros % dayMicros / 10 ^ 6 / 60 % 60
    second := micros % dayMicros / 10 ^ 6 % 60
    microsecond := micros % dayMicros % 10 ^ 6
    valid := by
      obtain ⟨year, month, day, heq, hvalid, -⟩ := ofOrdinal_valid h.1 h.2
      rw [heq]
      refine ⟨hvalid, ?_, by simp⟩
      dsimp only [dayMicros]
      omega }
  property := rfl

lemma wall_ofWall {micros : ℕ} (h : 1 ≤ micros / dayMicros ∧ micros / dayMicros ≤ daysBeforeYear 10000) :
    (ofWall micros h).wall = micros := by
  obtain ⟨year, month, day, heq, -, hordinal⟩ := ofOrdinal_valid h.1 h.2
  have hday : (ofWall micros h).day = micros / dayMicros := by
    unfold LocalDatetime.day ofWall
    dsimp only
    rwa [heq]
  have htime : (ofWall micros h).timeOfDay = micros % dayMicros := by
    unfold timeOfDay ofWall
    dsimp only [dayMicros]
    omega
  rw [wall, hday, htime, Nat.mul_comm]
  exact Nat.div_add_mod micros dayMicros

/-- `d + delta`, the duration being counted in microseconds. -/
def add (d : LocalDatetime) (delta : ℤ) : Except PyException LocalDatetime :=
  let micros := (d.wall + delta).toNat
  if h : 1 ≤ micros / dayMicros ∧ micros / dayMicros ≤ daysBeforeYear 10000 then .ok (ofWall micros h)
  else .error (overflowError "date value out of range")

/-- **The sum with a duration** is so much later. -/
theorem wall_add {d d' : LocalDatetime} {delta : ℤ} (h : d.add delta = .ok d') :
    (d'.wall : ℤ) = d.wall + delta := by
  unfold add at h
  dsimp only at h
  split at h
  · rename_i hday
    cases h
    rw [wall_ofWall]
    have hpos : 0 < (d.wall + delta).toNat := by
      by_contra hzero
      have : (d.wall + delta).toNat = 0 := by omega
      rw [this] at hday
      simp at hday
    omega
  · cases h

/-- The sum of a midnight with days is the midnight so many days later, if there is such a day. -/
lemma add_days_eq_ok {d : LocalDatetime} (hd : d.timeOfDay = 0) (days : ℤ)
    (h : 1 ≤ d.day + days ∧ d.day + days ≤ daysBeforeYear 10000) :
    ∃ d', d.add (days * dayMicros) = .ok d' ∧ (d'.day : ℤ) = d.day + days ∧ d'.timeOfDay = 0 := by
  obtain ⟨n, hn⟩ := Int.eq_ofNat_of_zero_le (show 0 ≤ d.day + days by omega)
  have hmicros : (d.wall + days * dayMicros).toNat = n * dayMicros := by
    have : (d.wall + days * dayMicros : ℤ) = ((n * dayMicros : ℕ) : ℤ) := by
      rw [wall, hd]
      push_cast
      rw [← hn]
      ring
    rw [this]
    rfl
  have hdiv : n * dayMicros / dayMicros = n := Nat.mul_div_cancel n (by decide)
  have hrange : 1 ≤ (d.wall + days * dayMicros).toNat / dayMicros ∧
      (d.wall + days * dayMicros).toNat / dayMicros ≤ daysBeforeYear 10000 := by
    rw [hmicros, hdiv]
    omega
  refine ⟨ofWall _ hrange, dif_pos hrange, ?_⟩
  have hwall : (ofWall _ hrange).wall = n * dayMicros := (wall_ofWall hrange).trans hmicros
  have hday : (ofWall _ hrange).day = n := by rw [← wall_div, hwall, hdiv]
  refine ⟨by rw [hday, hn], ?_⟩
  rw [wall, hday] at hwall
  omega

/-- The sum of a midnight with days, where there is one. -/
lemma of_add_days_eq_ok {d d' : LocalDatetime} (hd : d.timeOfDay = 0) {days : ℤ}
    (h : d.add (days * dayMicros) = .ok d') : (d'.day : ℤ) = d.day + days ∧ d'.timeOfDay = 0 := by
  have hwall := wall_add h
  have htime := d'.timeOfDay_lt
  rw [wall, wall, hd] at hwall
  push_cast at hwall
  generalize d'.timeOfDay = t at htime hwall ⊢
  generalize d'.day = a at hwall ⊢
  generalize d.day = b at hwall ⊢
  dsimp only [dayMicros] at htime hwall ⊢
  omega

end LocalDatetime

end Tmis.Lib
