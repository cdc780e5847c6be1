import Mathlib.Data.Nat.Find
import Mathlib.Tactic.Ring
import Tmis.Lib.IsoDatetime

/-!
# Durations

`timedelta`, and its sum with a moment.

* `timedelta`, `addTimedelta` — in microseconds, a moment being counted as `Datetime.key` does it;
* `ofOrdinal` — the date of a day; `ofOrdinal_valid`, there is one, and `ordinal_ofOrdinal`, it is that of the
  day;
* `UtcDatetime.addDays` — the sum with so many days; `micros_addDays`, it is so much later.
-/

namespace Tmis.Lib

open IsoDate

def overflowError (text : String) : PyException := ⟨"OverflowError", text⟩

/-- A `timedelta` of this many microseconds. -/
def timedelta (micros : ℤ) : Except PyException ℤ :=
  let days := micros / dayMicros
  if days < -2 ^ 31 ∨ 2 ^ 31 ≤ days then .error (overflowError "Python int too large to convert to C int")
  else if 999999999 < days.natAbs then
    .error (overflowError ("days=" ++ toString days ++ "; must have magnitude <= 999999999"))
  else .ok micros

/-- `moment + delta`: there are moments from the first day of the year 1 to the last one of the year 9999. -/
def addTimedelta (moment delta : ℤ) : Except PyException ℤ :=
  let day := (moment + delta) / dayMicros
  if 1 ≤ day ∧ day ≤ daysBeforeYear 10000 then .ok (moment + delta)
  else .error (overflowError "date value out of range")

/-- A duration that there is, is the one that was asked for. -/
lemma timedelta_eq_ok {micros delta : ℤ} (h : timedelta micros = .ok delta) : delta = micros := by
  unfold timedelta at h
  dsimp only at h
  split_ifs at h
  exact (Except.ok.inj h).symm

/-! ### The date of a day -/

/-- The ordinal of a date. -/
def ordinal (year month day : ℕ) : ℕ := daysBeforeYear year + daysBeforeMonth year month + day

/-- The year of a day: the last one that begins before it. -/
def yearOf (n : ℕ) : ℕ := Nat.findGreatest (daysBeforeYear · < n) 9999

/-- The month of a day of the year. -/
def monthOf (year n : ℕ) : ℕ := Nat.findGreatest (daysBeforeMonth year · < n) 12

/-- `date.fromordinal`. -/
def ofOrdinal (n : ℕ) : ℕ × ℕ × ℕ :=
  let year := yearOf n
  let n := n - daysBeforeYear year
  let month := monthOf year n
  (year, month, n - daysBeforeMonth year month)

lemma daysBeforeMonth_succ (year : ℕ) {month : ℕ} (h : 1 ≤ month) :
    daysBeforeMonth year (month + 1) = daysBeforeMonth year month + daysInMonth year month := by
  obtain ⟨m, rfl⟩ := Nat.exists_eq_add_of_le' h
  simp only [daysBeforeMonth, Nat.add_sub_cancel, List.range_succ, List.foldl_append, List.foldl_cons,
    List.foldl_nil]

/-- The months are those of a year that is a leap year too, or is none either. -/
lemma daysBeforeMonth_congr {year : ℕ} (year' : ℕ) (h : isLeap year = isLeap year') (month : ℕ) :
    daysBeforeMonth year month = daysBeforeMonth year' month := by
  have hmonth : daysInMonth year = daysInMonth year' := by
    funext month
    simp only [daysInMonth, h]
  rw [daysBeforeMonth, daysBeforeMonth, hmonth]

lemma daysBeforeMonth_december (year : ℕ) : daysBeforeMonth year 12 = if isLeap year then 335 else 334 := by
  cases hleap : isLeap year with
  | false => exact (daysBeforeMonth_congr 1 hleap 12).trans (by decide)
  | true => exact (daysBeforeMonth_congr 4 hleap 12).trans (by decide)

lemma daysBeforeYear_succ {year : ℕ} (h : 1 ≤ year) :
    daysBeforeYear (year + 1) = daysBeforeYear year + (daysBeforeMonth year 12 + 31) := by
  obtain ⟨y, rfl⟩ := Nat.exists_eq_add_of_le' h
  have hleap : isLeap (y + 1) = true ↔ 4 ∣ y + 1 ∧ (¬ 100 ∣ y + 1 ∨ 400 ∣ y + 1) := by
    rw [isLeap, decide_eq_true_eq, Nat.dvd_iff_mod_eq_zero, Nat.dvd_iff_mod_eq_zero, Nat.dvd_iff_mod_eq_zero]
  have hfour : 100 ∣ y + 1 → 4 ∣ y + 1 := (Nat.dvd_mul_left 4 25).trans
  have hhundred : 400 ∣ y + 1 → 100 ∣ y + 1 := (Nat.dvd_mul_left 100 4).trans
  have hle : y / 100 ≤ y / 4 := Nat.div_le_div_left (by decide) (by decide)
  simp only [daysBeforeMonth_december, daysBeforeYear, hleap, Nat.add_sub_cancel, Nat.succ_div]
  generalize y / 4 = a at hle ⊢
  generalize y / 100 = b at hle ⊢
  generalize y / 400 = c
  -- Every hundredth year is a fourth one, and every four hundredth one a hundredth one.
  by_cases h4 : 4 ∣ y + 1 <;> by_cases h100 : 100 ∣ y + 1 <;> by_cases h400 : 400 ∣ y + 1 <;>
    simp only [h4, h100, h400, forall_const, if_true, if_false, true_and, false_and, not_true, not_false_iff,
      or_true, or_false] at hfour hhundred ⊢ <;> omega

/-- **There is a date** for every day of these years. -/
theorem ofOrdinal_valid {n : ℕ} (hpos : 1 ≤ n) (hle : n ≤ daysBeforeYear 10000) :
    ∃ year month day, ofOrdinal n = (year, month, day) ∧
      (1 ≤ year ∧ year ≤ 9999 ∧ 1 ≤ month ∧ month ≤ 12 ∧ 1 ≤ day ∧ day ≤ daysInMonth year month) ∧
      ordinal year month day = n := by
  have hyear : daysBeforeYear (yearOf n) < n ∧ 1 ≤ yearOf n ∧ yearOf n ≤ 9999 :=
    ⟨Nat.findGreatest_spec (P := (daysBeforeYear · < n)) (m := 1) (by decide) hpos,
      Nat.le_findGreatest (by decide) hpos, Nat.findGreatest_le 9999⟩
  obtain ⟨hbegins, hyear, hyear'⟩ := hyear
  -- The day is before the end of its year.
  have hends : n ≤ daysBeforeYear (yearOf n) + (daysBeforeMonth (yearOf n) 12 + 31) := by
    rw [← daysBeforeYear_succ hyear]
    by_cases hlast : yearOf n = 9999
    · rwa [hlast]
    · exact not_lt.mp (Nat.findGreatest_is_greatest (P := (daysBeforeYear · < n)) (Nat.lt_succ_self _) (by omega))
  set year := yearOf n with hyearOf
  set rest := n - daysBeforeYear year with hrest
  have hrestPos : 0 < rest := by omega
  have hmonth : daysBeforeMonth year (monthOf year rest) < rest ∧ 1 ≤ monthOf year rest ∧
      monthOf year rest ≤ 12 :=
    ⟨Nat.findGreatest_spec (P := (daysBeforeMonth year · < rest)) (m := 1) (by decide) hrestPos,
      Nat.le_findGreatest (by decide) hrestPos, Nat.findGreatest_le 12⟩
  obtain ⟨hmonthBegins, hmonth, hmonth'⟩ := hmonth
  have hmonthEnds : rest ≤ daysBeforeMonth year (monthOf year rest) + daysInMonth year (monthOf year rest) := by
    by_cases hlast : monthOf year rest = 12
    · rw [hlast]
      show rest ≤ daysBeforeMonth year 12 + 31
      omega
    · rw [← daysBeforeMonth_succ year hmonth]
      exact not_lt.mp (Nat.findGreatest_is_greatest (P := (daysBeforeMonth year · < rest)) (Nat.lt_succ_self _)
        (by omega))
  refine ⟨year, monthOf year rest, rest - daysBeforeMonth year (monthOf year rest), rfl,
    ⟨hyear, hyear', hmonth, hmonth', by omega, by omega⟩, ?_⟩
  unfold ordinal
  omega

/-! ### Moments of Universal Time -/

/-- A datetime whose time zone is `UTC`. -/
abbrev UtcDatetime := { d : Datetime // d.utcoffset = some 0 }

namespace UtcDatetime

/-- The microseconds that two of them are compared by. -/
def micros (d : UtcDatetime) : ℤ :=
  let days := ordinal d.1.year d.1.month d.1.day
  (((days * 24 + d.1.hour) * 60 + d.1.minute) * 60 + d.1.second) * 10 ^ 6 + d.1.microsecond

lemma key_eq (d : UtcDatetime) : d.1.key = .inr d.micros := by
  obtain ⟨d, hoffset⟩ := d
  simp only [Datetime.key, hoffset, micros, ordinal]
  simp

/-- The same time on another day. -/
def onDay (d : UtcDatetime) (day : ℕ) (h : 1 ≤ day ∧ day ≤ daysBeforeYear 10000) : UtcDatetime where
  val := {
    d.1.toDatetimeFields with
    year := (ofOrdinal day).1
    month := (ofOrdinal day).2.1
    day := (ofOrdinal day).2.2
    valid := by
      obtain ⟨year, month, day, heq, hvalid, -⟩ := ofOrdinal_valid h.1 h.2
      rw [heq]
      exact ⟨hvalid, d.1.valid.2⟩ }
  property := d.2

/-- `d + timedelta(days=days)`. -/
def addDays (d : UtcDatetime) (days : ℤ) : Except PyException UtcDatetime :=
  match timedelta (days * dayMicros) with
  | .error e => .error e
  | .ok _ =>
    let day := (ordinal d.1.year d.1.month d.1.day + days).toNat
    if h : 1 ≤ day ∧ day ≤ daysBeforeYear 10000 then .ok (d.onDay day h)
    else .error (overflowError "date value out of range")

lemma micros_onDay (d : UtcDatetime) {day : ℕ} (h : 1 ≤ day ∧ day ≤ daysBeforeYear 10000) :
    (d.onDay day h).micros =
      d.micros + (day - ordinal d.1.year d.1.month d.1.day : ℤ) * dayMicros := by
  obtain ⟨year, month, day', heq, -, hordinal⟩ := ofOrdinal_valid h.1 h.2
  have hday : ordinal (ofOrdinal day).1 (ofOrdinal day).2.1 (ofOrdinal day).2.2 = day := by rwa [heq]
  simp only [micros, onDay, hday, dayMicros]
  push_cast
  ring

/-- **The sum with so many days** is so much later. -/
theorem micros_addDays {d d' : UtcDatetime} {days : ℤ} (h : d.addDays days = .ok d') :
    d'.micros = d.micros + days * dayMicros := by
  unfold addDays at h
  split at h
  · cases h
  · dsimp only at h
    split at h
    · rename_i hday
      obtain rfl := Except.ok.inj h
      rw [micros_onDay, Int.toNat_of_nonneg (by omega), add_sub_cancel_left]
    · cases h

end UtcDatetime

end Tmis.Lib
