import Mathlib.Algebra.Group.Nat.Defs
import Mathlib.Data.Int.Notation
import Mathlib.Data.Nat.Basic
import Mathlib.Data.Nat.Notation
import Tmis.Lib.Python

/-!
# Dates in ISO format, without a time and with one

`IsoDate.fromIsoFormat` reads a calendar date (`YYYY-MM-DD`, `YYYYMMDD`) or a week date (`YYYY-Www-D`, `YYYYWwwD`, the
day optional) into its ordinal, the number of the day counted from 1 January of the year 1.  Two dates compare as their
ordinals do.

A `datetime` with its fields; of its time zone the offset is kept.  `isoformat` writes it, and
`fromisoformat` reads calendar dates, with separators or without, followed by a time.

* `Datetime` — a moment that there is; `Datetime.key` is what two of them are equal by;
* `isoformat`, `fromisoformat` — the two calls; week dates are not read;
* `parseDigits_padded` — numbers that were written are read;
* `fromisoformat_isoformat` — and so are datetimes;
* `not_mem_isoformat` — what these are written with.
-/

/-! ### Dates -/

namespace Tmis.Lib.IsoDate

def isLeap (year : ℕ) : Bool := year % 4 = 0 ∧ (year % 100 ≠ 0 ∨ year % 400 = 0)

def daysInMonth (year month : ℕ) : ℕ :=
  if month = 2 then (if isLeap year then 29 else 28)
  else if month = 4 ∨ month = 6 ∨ month = 9 ∨ month = 11 then 30
  else 31

/-- The number of days before 1 January of the year. -/
def daysBeforeYear (year : ℕ) : ℕ :=
  (year - 1) * 365 + (year - 1) / 4 - (year - 1) / 100 + (year - 1) / 400

/-- The number of days of the year before the first of the month. -/
def daysBeforeMonth (year month : ℕ) : ℕ :=
  (List.range (month - 1)).foldl (fun days m => days + daysInMonth year (m + 1)) 0

/-- The ordinal of a calendar date, if there is such a date. -/
def ofCalendar (year month day : ℕ) : Option ℕ :=
  if 1 ≤ year ∧ year ≤ 9999 ∧ 1 ≤ month ∧ month ≤ 12 ∧ 1 ≤ day ∧ day ≤ daysInMonth year month then
    some (daysBeforeYear year + daysBeforeMonth year month + day)
  else none

/-- The day of the week of 1 January, counted from Monday. -/
def firstWeekday (year : ℕ) : ℕ := (daysBeforeYear year + 7) % 7

/-- The ordinal of the Monday of the first week of the year. -/
def week1Monday (year : ℕ) : ℕ :=
  let monday := daysBeforeYear year + 8 - firstWeekday year
  if 3 < firstWeekday year then monday else monday - 7

/-- The ordinal of a week date, if there is such a date. -/
def ofWeek (year week day : ℕ) : Option ℕ :=
  let long := firstWeekday year = 3 ∨ (firstWeekday year = 2 ∧ isLeap year)
  let ordinal := week1Monday year + (week - 1) * 7 + (day - 1)
  if 1 ≤ year ∧ year ≤ 9999 ∧ 1 ≤ week ∧ (week ≤ 52 ∨ (week = 53 ∧ long)) ∧ 1 ≤ day ∧ day ≤ 7 ∧
      ordinal ≤ daysBeforeYear 10000 then
    some ordinal
  else none

/-- Read `n` decimal digits. -/
def parseDigits : ℕ → List Char → Option (ℕ × List Char)
  | 0, cs => some (0, cs)
  | n + 1, c :: cs =>
      if c.isDigit then (parseDigits n cs).map fun r => ((c.toNat - 48) * 10 ^ n + r.1, r.2) else none
  | _ + 1, [] => none

/-- Read the separator, if dates are written with one here. -/
def parseSeparator (usesSeparator : Bool) : List Char → Option (List Char)
  | cs => if usesSeparator then (match cs with | '-' :: cs => some cs | _ => none) else some cs

/-- `date.fromisoformat`: the ordinal of the date a text names, if it names one. -/
def fromIsoFormat (text : String) : Option ℕ := do
  if text.utf8ByteSize ≠ 7 ∧ text.utf8ByteSize ≠ 8 ∧ text.utf8ByteSize ≠ 10 then none
  let (year, cs) ← parseDigits 4 text.toList
  let usesSeparator := cs.head? = some '-'
  let cs ← parseSeparator usesSeparator cs
  match cs with
  | 'W' :: cs => do
      let (week, cs) ← parseDigits 2 cs
      if cs = [] then ofWeek year week 1
      else do
        let cs ← parseSeparator usesSeparator cs
        let (day, _) ← parseDigits 1 cs
        ofWeek year week day
  | cs => do
      let (month, cs) ← parseDigits 2 cs
      let cs ← parseSeparator usesSeparator cs
      let (day, _) ← parseDigits 2 cs
      ofCalendar year month day

example : fromIsoFormat "2024-02-29" = some 738945 := by decide
example : fromIsoFormat "2024-W09-4" = some 738945 := by decide
example : fromIsoFormat "2023-02-29" = none := by decide

end Tmis.Lib.IsoDate

/-! ### Dates with a time -/

namespace Tmis.Lib

open IsoDate

/-- The microseconds of a day. -/
abbrev dayMicros : ℕ := 24 * 60 * 60 * 10 ^ 6

/-- The fields of a datetime: the offset is counted in microseconds. -/
structure DatetimeFields where
  year : ℕ
  month : ℕ
  day : ℕ
  hour : ℕ := 0
  minute : ℕ := 0
  second : ℕ := 0
  microsecond : ℕ := 0
  utcoffset : Option ℤ := none
  deriving DecidableEq

/-- There is a moment with these fields. -/
def DatetimeFields.Valid (d : DatetimeFields) : Prop :=
  (1 ≤ d.year ∧ d.year ≤ 9999 ∧ 1 ≤ d.month ∧ d.month ≤ 12 ∧ 1 ≤ d.day ∧
    d.day ≤ daysInMonth d.year d.month) ∧
  (d.hour < 24 ∧ d.minute < 60 ∧ d.second < 60 ∧ d.microsecond < 10 ^ 6) ∧
  ∀ offset ∈ d.utcoffset, offset.natAbs < dayMicros

instance (d : DatetimeFields) : Decidable d.Valid := by unfold DatetimeFields.Valid; infer_instance

structure Datetime extends DatetimeFields where
  valid : toDatetimeFields.Valid
  deriving DecidableEq

/-- What two datetimes are equal by: with time zones their moments, and without one their fields. -/
def Datetime.key (d : Datetime) : DatetimeFields ⊕ ℤ :=
  match d.utcoffset with
  | none => .inl d.toDatetimeFields
  | some offset =>
      let days := daysBeforeYear d.year + daysBeforeMonth d.year d.month + d.day
      .inr ((((days * 24 + d.hour) * 60 + d.minute) * 60 + d.second) * 10 ^ 6 + d.microsecond - offset)

/-! ### Writing -/

/-- `.%06d`, unless there are none. -/
def fractionText (micros : ℕ) : List Char := if micros = 0 then [] else '.' :: padded 10 6 micros

def timeText (hour minute second micros : ℕ) : List Char :=
  padded 10 2 hour ++ ':' :: padded 10 2 minute ++ ':' :: padded 10 2 second ++ fractionText micros

/-- The offset, with seconds only if it has some. -/
def offsetText (offset : ℤ) : List Char :=
  let micros := offset.natAbs
  let seconds := micros / 10 ^ 6
  (if offset < 0 then '-' else '+') ::
    padded 10 2 (seconds / 3600) ++ ':' :: padded 10 2 (seconds / 60 % 60) ++
    if micros % (60 * 10 ^ 6) = 0 then []
    else ':' :: padded 10 2 (seconds % 60) ++ fractionText (micros % 10 ^ 6)

/-- `datetime.isoformat`. -/
def isoformat (d : Datetime) : String :=
  String.ofList (padded 10 4 d.year ++ '-' :: padded 10 2 d.month ++ '-' :: padded 10 2 d.day ++ 'T' ::
    timeText d.hour d.minute d.second d.microsecond ++ (d.utcoffset.map offsetText).getD [])

/-! ### Reading -/

def readDate (cs : List Char) : Option ((ℕ × ℕ × ℕ) × List Char) := do
  let (year, cs) ← parseDigits 4 cs
  let usesSeparator := cs.head? = some '-'
  let cs ← parseSeparator usesSeparator cs
  let (month, cs) ← parseDigits 2 cs
  let cs ← parseSeparator usesSeparator cs
  let (day, cs) ← parseDigits 2 cs
  return ((year, month, day), cs)

/-- Read the separator, if times are written with one here. -/
def parseColon (usesSeparator : Bool) : List Char → Option (List Char)
  | cs => if usesSeparator then (match cs with | ':' :: cs => some cs | _ => none) else some cs

/-- Read the digits of a fraction; those after the sixth are left out. -/
def readFraction (cs : List Char) : Option ℕ :=
  if cs = [] ∨ ¬ cs.all Char.isDigit then none
  else
    let shown := cs.take 6
    (parseDigits shown.length shown).map fun read => read.1 * 10 ^ (6 - shown.length)

/-- Read hours, and what there is of minutes, seconds and a fraction. -/
def readTime (cs : List Char) : Option (ℕ × ℕ × ℕ × ℕ) := do
  let (hour, cs) ← parseDigits 2 cs
  if cs = [] then return (hour, 0, 0, 0)
  else
    let usesSeparator := cs.head? = some ':'
    let cs ← parseColon usesSeparator cs
    let (minute, cs) ← parseDigits 2 cs
    if cs = [] then return (hour, minute, 0, 0)
    else
      let cs ← parseColon usesSeparator cs
      let (second, cs) ← parseDigits 2 cs
      match cs with
      | [] => return (hour, minute, second, 0)
      | c :: cs =>
          if c = '.' ∨ c = ',' then (readFraction cs).map fun micros => (hour, minute, second, micros)
          else none

/-- The sign at which a time zone begins. -/
def zoneSign (cs : List Char) : Option Char := ['-', '+', 'Z'].find? (· ∈ cs)

/-- Read the time zone that begins with a sign. -/
def readOffset (sign : Char) (cs : List Char) : Option ℤ :=
  if sign = 'Z' then (if cs = [] then some 0 else none)
  else do
    let (hour, minute, second, micros) ← readTime cs
    let offset : ℤ := ((hour * 60 + minute) * 60 + second) * 10 ^ 6 + micros
    return if sign = '-' then -offset else offset

/-- Read a time with its time zone. -/
def readZoned (cs : List Char) : Option ((ℕ × ℕ × ℕ × ℕ) × Option ℤ) :=
  match zoneSign cs with
  | none => (readTime cs).map (·, none)
  | some sign => do
      let time ← readTime (cs.takeWhile (· ≠ sign))
      let offset ← readOffset sign (cs.dropWhile (· ≠ sign)).tail
      return (time, some offset)

/-- The fields that a text names. -/
def readFields (text : String) : Option DatetimeFields := do
  let ((year, month, day), cs) ← readDate text.toList
  let ((hour, minute, second, microsecond), utcoffset) ←
    if cs.tail = [] then some ((0, 0, 0, 0), none) else readZoned cs.tail
  return { year, month, day, hour, minute, second, microsecond, utcoffset }

/-- `datetime.fromisoformat`. -/
def fromisoformat (text : String) : Except PyException Datetime :=
  match readFields text with
  | some d =>
      if h : d.Valid then .ok ⟨d, h⟩
      else .error (valueError ("Invalid isoformat string: " ++ pyRepr text))
  | none => .error (valueError ("Invalid isoformat string: " ++ pyRepr text))

/-! ### What is written is read -/

lemma digitChar_isDigit : ∀ d < 10, d.digitChar.isDigit = true ∧ d.digitChar.toNat - 48 = d := by decide

/-- A number that was written is read. -/
lemma parseDigits_padded (cs : List Char) : ∀ {w n : ℕ}, n < 10 ^ w →
    parseDigits w (padded 10 w n ++ cs) = some (n, cs)
  | 0, n, hn => by
      obtain rfl : n = 0 := Nat.lt_one_iff.mp hn
      rfl
  | w + 1, n, hn => by
      have hdigit : n / 10 ^ w < 10 := Nat.div_lt_of_lt_mul (by rwa [← Nat.pow_succ])
      have hrest : n % 10 ^ w < 10 ^ w := Nat.mod_lt n (Nat.pow_pos (by decide))
      obtain ⟨hisDigit, hvalue⟩ := digitChar_isDigit _ hdigit
      rw [padded, List.cons_append, parseDigits, if_pos hisDigit, parseDigits_padded cs hrest,
        Option.map_some, hvalue, Nat.div_add_mod']

lemma parseDigits_padded_nil {w n : ℕ} (hn : n < 10 ^ w) :
    parseDigits w (padded 10 w n) = some (n, []) := by
  rw [← parseDigits_padded [] hn, List.append_nil]

/-- The digits of a fraction are read. -/
lemma readFraction_padded {micros : ℕ} (h : micros < 10 ^ 6) :
    readFraction (padded 10 6 micros) = some micros := by
  have hdigits : (padded 10 6 micros).all Char.isDigit = true := by
    refine List.all_eq_true.mpr fun c hc => ?_
    obtain ⟨d, hd, rfl⟩ := exists_of_mem_padded h hc
    exact (digitChar_isDigit d hd).1
  have hne : padded 10 6 micros ≠ [] := List.cons_ne_nil _ _
  have hshown : (padded 10 6 micros).take 6 = padded 10 6 micros :=
    List.take_of_length_le (length_padded 10 6 micros).le
  rw [readFraction, if_neg (by simp only [hne, hdigits, not_true, or_self, not_false_iff])]
  simp only [hshown, length_padded, parseDigits_padded_nil h, Option.map_some, Nat.sub_self, Nat.pow_zero,
    Nat.mul_one]

/-- A time that was written is read. -/
lemma readTime_timeText {hour minute second micros : ℕ} (hhour : hour < 10 ^ 2)
    (hminute : minute < 10 ^ 2) (hsecond : second < 10 ^ 2) (hmicros : micros < 10 ^ 6) :
    readTime (timeText hour minute second micros) = some (hour, minute, second, micros) := by
  unfold readTime timeText fractionText
  by_cases hzero : micros = 0
  · simp [parseColon, parseDigits_padded _ hhour, parseDigits_padded _ hminute,
      parseDigits_padded_nil hsecond, hzero]
  · simp [parseColon, parseDigits_padded _ hhour, parseDigits_padded _ hminute,
      parseDigits_padded _ hsecond, hzero, readFraction_padded hmicros]

/-- So are hours and minutes. -/
lemma readTime_minutes {hour minute : ℕ} (hhour : hour < 10 ^ 2) (hminute : minute < 10 ^ 2) :
    readTime (padded 10 2 hour ++ ':' :: padded 10 2 minute) = some (hour, minute, 0, 0) := by
  simp [readTime, parseColon, parseDigits_padded _ hhour, parseDigits_padded_nil hminute]

/-- The time zone of a text begins after its time. -/
def isTimeChar (c : Char) : Bool := c.isDigit || c = ':' || c = '.'

lemma isTimeChar_padded {w n : ℕ} (hn : n < 10 ^ w) : (padded 10 w n).all isTimeChar = true := by
  refine List.all_eq_true.mpr fun c hc => ?_
  obtain ⟨d, hd, rfl⟩ := exists_of_mem_padded hn hc
  simp only [isTimeChar, (digitChar_isDigit d hd).1, Bool.true_or]

lemma isTimeChar_timeText {hour minute second micros : ℕ} (hhour : hour < 10 ^ 2)
    (hminute : minute < 10 ^ 2) (hsecond : second < 10 ^ 2) (hmicros : micros < 10 ^ 6) :
    (timeText hour minute second micros).all isTimeChar = true := by
  have hfraction : (fractionText micros).all isTimeChar = true := by
    unfold fractionText
    split
    · rfl
    · rw [List.all_cons, isTimeChar_padded hmicros]
      rfl
  have hcolon : isTimeChar ':' = true := by decide
  simp only [timeText, List.all_append, List.all_cons, isTimeChar_padded hhour,
    isTimeChar_padded hminute, isTimeChar_padded hsecond, hfraction, hcolon, Bool.and_true]

lemma not_mem_of_isTimeChar {cs : List Char} {c : Char} (hcs : cs.all isTimeChar = true)
    (hc : isTimeChar c = false) : c ∉ cs := fun hmem =>
  Bool.noConfusion (hc.symm.trans (List.all_eq_true.mp hcs c hmem))

/-- An offset that was written is read, after its sign. -/
lemma readOffset_offsetText {offset : ℤ} (h : offset.natAbs < dayMicros) :
    ∃ cs, offsetText offset = (if offset < 0 then '-' else '+') :: cs ∧ cs.all isTimeChar = true ∧
      readOffset (if offset < 0 then '-' else '+') cs = some offset := by
  rw [show dayMicros = 86400 * 10 ^ 6 by decide] at h
  have hhours : offset.natAbs / 10 ^ 6 / 3600 < 10 ^ 2 := by omega
  have hminutes : offset.natAbs / 10 ^ 6 / 60 % 60 < 10 ^ 2 := by omega
  have hseconds : offset.natAbs / 10 ^ 6 % 60 < 10 ^ 2 := by omega
  have hmicros : offset.natAbs % 10 ^ 6 < 10 ^ 6 := by omega
  have hZ : (if offset < 0 then '-' else '+') ≠ 'Z' := by split <;> decide
  have hsign : ((if offset < 0 then '-' else '+') = '-') ↔ offset < 0 := by
    split <;> simp_all
  by_cases hwhole : offset.natAbs % (60 * 10 ^ 6) = 0
  · refine ⟨padded 10 2 (offset.natAbs / 10 ^ 6 / 3600) ++
      ':' :: padded 10 2 (offset.natAbs / 10 ^ 6 / 60 % 60), ?_, ?_, ?_⟩
    · rw [offsetText, if_pos hwhole, List.append_nil, List.cons_append]
    · simp only [List.all_append, List.all_cons, isTimeChar_padded hhours, isTimeChar_padded hminutes]
      rfl
    · rw [readOffset, if_neg hZ, readTime_minutes hhours hminutes]
      simp only [Option.bind_eq_bind, Option.bind_some, hsign, pure]
      split <;> refine congrArg some ?_ <;> omega
  · refine ⟨timeText (offset.natAbs / 10 ^ 6 / 3600) (offset.natAbs / 10 ^ 6 / 60 % 60)
      (offset.natAbs / 10 ^ 6 % 60) (offset.natAbs % 10 ^ 6), ?_,
      isTimeChar_timeText hhours hminutes hseconds hmicros, ?_⟩
    · rw [offsetText, if_neg hwhole, timeText]
      simp only [List.append_assoc, List.cons_append]
    · rw [readOffset, if_neg hZ, readTime_timeText hhours hminutes hseconds hmicros]
      simp only [Option.bind_eq_bind, Option.bind_some, hsign, pure]
      split <;> refine congrArg some ?_ <;> omega

/-- A time is read with its time zone. -/
lemma readZoned_timeText {hour minute second micros : ℕ} (hhour : hour < 10 ^ 2)
    (hminute : minute < 10 ^ 2) (hsecond : second < 10 ^ 2) (hmicros : micros < 10 ^ 6)
    {utcoffset : Option ℤ} (hoffset : ∀ offset ∈ utcoffset, offset.natAbs < dayMicros) :
    readZoned (timeText hour minute second micros ++ (utcoffset.map offsetText).getD []) =
      some ((hour, minute, second, micros), utcoffset) := by
  have htime := isTimeChar_timeText hhour hminute hsecond hmicros
  have hread := readTime_timeText hhour hminute hsecond hmicros
  generalize timeText hour minute second micros = time at htime hread
  have hminus : '-' ∉ time := not_mem_of_isTimeChar htime (by decide)
  have hplus : '+' ∉ time := not_mem_of_isTimeChar htime (by decide)
  have hZ : 'Z' ∉ time := not_mem_of_isTimeChar htime (by decide)
  cases utcoffset with
  | none =>
      have hsign : zoneSign time = none := by simp [zoneSign, hminus, hplus, hZ]
      simp only [Option.map_none, Option.getD_none, List.append_nil, readZoned, hsign, hread,
        Option.map_some]
  | some offset =>
      obtain ⟨cs, htext, hcs, hread'⟩ := readOffset_offsetText (hoffset offset rfl)
      have hminus' : '-' ∉ cs := not_mem_of_isTimeChar hcs (by decide)
      simp only [Option.map_some, Option.getD_some, htext]
      have hsign : zoneSign (time ++ (if offset < 0 then '-' else '+') :: cs) =
          some (if offset < 0 then '-' else '+') := by
        by_cases hnegative : offset < 0
        · simp [zoneSign, hnegative]
        · simp [zoneSign, hnegative, hminus, hminus']
      have hmem : (if offset < 0 then '-' else '+') ∉ time := by
        split
        · exact hminus
        · exact hplus
      generalize (if offset < 0 then '-' else '+') = sign at hsign hmem hread' ⊢
      have hall : ∀ c ∈ time, decide (c ≠ sign) = true := fun c hc =>
        decide_eq_true fun hcs => hmem (hcs ▸ hc)
      simp only [readZoned, hsign, List.takeWhile_append_of_pos hall, List.dropWhile_append_of_pos hall,
        List.takeWhile_cons, List.dropWhile_cons, ne_eq, not_true, decide_false, Bool.false_eq_true,
        if_false, List.append_nil, List.tail_cons, hread, hread', Option.bind_eq_bind, Option.bind_some,
        pure]

/-- A datetime that was written is read. -/
theorem fromisoformat_isoformat (d : Datetime) : fromisoformat (isoformat d) = .ok d := by
  obtain ⟨⟨year, month, day, hour, minute, second, micros, utcoffset⟩, hvalid⟩ := d
  obtain ⟨⟨-, hyear, -, hmonth, -, hday⟩, ⟨hhour, hminute, hsecond, hmicros⟩, hoffset⟩ := id hvalid
  dsimp only at hyear hmonth hday hhour hminute hsecond hmicros hoffset
  have hdays : daysInMonth year month ≤ 31 := by
    unfold daysInMonth
    split_ifs <;> decide
  have hyear' : year < 10 ^ 4 := by omega
  have hmonth' : month < 10 ^ 2 := by omega
  have hday' : day < 10 ^ 2 := by omega
  have hhour' : hour < 10 ^ 2 := by omega
  have hminute' : minute < 10 ^ 2 := by omega
  have hsecond' : second < 10 ^ 2 := by omega
  have hfields : readFields (isoformat ⟨_, hvalid⟩) =
      some ⟨year, month, day, hour, minute, second, micros, utcoffset⟩ := by
    have hne : timeText hour minute second micros ++ (utcoffset.map offsetText).getD [] ≠ [] :=
      List.append_ne_nil_of_left_ne_nil (List.append_ne_nil_of_left_ne_nil (List.cons_ne_nil _ _) _) _
    simp [readFields, isoformat, readDate, parseSeparator, parseDigits_padded _ hyear',
      parseDigits_padded _ hmonth', parseDigits_padded _ hday', hne,
      readZoned_timeText hhour' hminute' hsecond' hmicros hoffset]
  rw [fromisoformat, hfields]
  exact dif_pos hvalid

example : (fromisoformat "2024-02-29T12:30:00.250000+01:00").map isoformat =
    .ok "2024-02-29T12:30:00.250000+01:00" := by decide +kernel

/-- What datetimes are written with. -/
lemma not_mem_isoformat (d : Datetime) {c : Char} (htime : isTimeChar c = false) (h : c ∉ ['-', '+', 'T']) :
    c ∉ (isoformat d).toList := by
  obtain ⟨d, ⟨hyear, hyear', hmonth, hmonth', hday, hday'⟩, ⟨hhour, hminute, hsecond, hmicros⟩, hoffset⟩ := d
  have hdays : daysInMonth d.year d.month ≤ 31 := by
    unfold daysInMonth
    split_ifs <;> decide
  simp only [List.mem_cons, List.not_mem_nil, or_false, not_or] at h
  have hpadded {w n : ℕ} (hn : n < 10 ^ w) : c ∉ padded 10 w n := not_mem_of_isTimeChar (isTimeChar_padded hn) htime
  have htext : c ∉ timeText d.hour d.minute d.second d.microsecond :=
    not_mem_of_isTimeChar (isTimeChar_timeText (by omega) (by omega) (by omega) hmicros) htime
  have hzone : c ∉ (d.utcoffset.map offsetText).getD [] := by
    cases hutc : d.utcoffset with
    | none => exact List.not_mem_nil
    | some offset =>
      obtain ⟨cs, hcs, hall, -⟩ := readOffset_offsetText (hoffset offset hutc)
      rw [Option.map_some, Option.getD_some, hcs, List.mem_cons, not_or]
      refine ⟨?_, not_mem_of_isTimeChar hall htime⟩
      split
      · exact h.1
      · exact h.2.1
  simp only [isoformat, String.toList_ofList, List.mem_append, List.mem_cons, not_or]
  exact ⟨⟨⟨⟨hpadded (by omega), h.1, hpadded (by omega)⟩, h.1, hpadded (by omega)⟩, h.2.2, htext⟩, hzone⟩

end Tmis.Lib
