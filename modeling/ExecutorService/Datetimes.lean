/-
Datetimes as Python's `datetime` module writes and reads them.

An aware datetime is the instant it names: microseconds since the first moment of year 1,
UTC.  `isoformat` is `astimezone(UTC).isoformat()`, `fromisoformat` reads the ISO 8601
formats that Python accepts: calendar and week dates, with and without separators, a time
of day with an optional fraction, and an offset.  Dates are ordinals of the proleptic
Gregorian calendar.

* `Datetime.ordinal_toDate` — the date of an ordinal has that ordinal;
* `Datetime.fromisoformat_isoformat` — reading what was written gives the instant back.
-/
import Mathlib.Data.List.Basic
import Mathlib.Data.Nat.Basic
import Mathlib.Tactic.IntervalCases

namespace Datetime

/-! ### Dates -/

/-- A date. -/
structure Date where
  year : ℕ
  month : ℕ
  day : ℕ
  deriving DecidableEq, Repr

/-- A leap year. -/
def isLeap (year : ℕ) : Bool :=
  year % 4 == 0 && (year % 100 != 0 || year % 400 == 0)

/-- Days before the first of a month. -/
def daysBeforeMonth (leap : Bool) (month : ℕ) : ℕ :=
  [0, 31, 59, 90, 120, 151, 181, 212, 243, 273, 304, 334].getD (month - 1) 0 +
    if 2 < month ∧ leap then 1 else 0

/-- The days of a month. -/
def daysInMonth (leap : Bool) (month : ℕ) : ℕ :=
  if month = 2 ∧ leap then 29
  else [31, 28, 31, 30, 31, 30, 31, 31, 30, 31, 30, 31].getD (month - 1) 0

/-- Days before the first of January. -/
def daysBeforeYear (year : ℕ) : ℕ :=
  (year - 1) * 365 + (year - 1) / 4 - (year - 1) / 100 + (year - 1) / 400

/-- `_ymd2ord`: the first of January of year 1 is day 1. -/
def Date.ordinal (d : Date) : ℕ :=
  daysBeforeYear d.year + daysBeforeMonth (isLeap d.year) d.month + d.day

/-- A date that Python accepts. -/
def Date.Valid (d : Date) : Bool :=
  decide (1 ≤ d.year ∧ d.year ≤ 9999 ∧ 1 ≤ d.month ∧ d.month ≤ 12 ∧ 1 ≤ d.day ∧
    d.day ≤ daysInMonth (isLeap d.year) d.month)

/-- Month and day of the `n`th day of a year, counted from zero: an estimate of the month
that is at most one too large. -/
def monthDay (leap : Bool) (n : ℕ) : ℕ × ℕ :=
  let month := (n + 50) / 32
  let month := if n < daysBeforeMonth leap month then month - 1 else month
  (month, n - daysBeforeMonth leap month + 1)

/-- `_ord2ymd`. -/
def toDate (ordinal : ℕ) : Date :=
  let n := ordinal - 1
  let n400 := n / 146097
  let n := n % 146097
  let n100 := n / 36524
  let n := n % 36524
  let n4 := n / 1461
  let n := n % 1461
  let n1 := n / 365
  let n := n % 365
  let year := n400 * 400 + 1 + n100 * 100 + n4 * 4 + n1
  -- The last day of a leap year and of a cycle of 400 years.
  if n1 = 4 ∨ n100 = 4 then ⟨year - 1, 12, 31⟩
  else
    let md := monthDay (n1 == 3 && (n4 != 24 || n100 == 3)) n
    ⟨year, md.1, md.2⟩

/-- The Monday of the first week of an ISO year. -/
def weekOneMonday (year : ℕ) : ℕ :=
  let first := daysBeforeYear year + 1
  let weekday := (first + 6) % 7
  if 3 < weekday then first - weekday + 7 else first - weekday

/-- `_isoweek_to_gregorian`. -/
def ofWeek (year week day : ℕ) : Option Date :=
  let weekday := (daysBeforeYear year + 1) % 7
  let long := weekday == 4 || (weekday == 3 && isLeap year)
  if ¬ (1 ≤ year ∧ year ≤ 9999) ∨ ¬ (1 ≤ week ∧ (week < 53 ∨ week = 53 ∧ long)) ∨
      ¬ (1 ≤ day ∧ day ≤ 7) then none
  else some (toDate (weekOneMonday year + (week - 1) * 7 + (day - 1)))

/-! ### Instants -/

/-- The microseconds of a day. -/
def microsecondsPerDay : ℕ := 86400000000

/-- The end of year 9999. -/
def instants : ℕ := 3652059 * microsecondsPerDay

/-! ### Writing -/

/-- A decimal digit. -/
def digit (n : ℕ) : Char :=
  Char.ofNat ('0'.toNat + n)

/-- `'%02d'` and its relatives, for numbers that fit. -/
def pad : ℕ → ℕ → List Char
  | 0, _ => []
  | width + 1, n => pad width (n / 10) ++ [digit (n % 10)]

/-- The date in ISO format. -/
def formatDate (d : Date) : List Char :=
  pad 4 d.year ++ '-' :: (pad 2 d.month ++ '-' :: pad 2 d.day)

/-- `_format_time`; a fraction of zero is left out. -/
def formatTime (hour minute second microsecond : ℕ) : List Char :=
  pad 2 hour ++ ':' :: (pad 2 minute ++ ':' :: (pad 2 second ++
    if microsecond = 0 then [] else '.' :: pad 6 microsecond))

/-- `isoformat()` in UTC. -/
def isoformat (instant : ℕ) : List Char :=
  let seconds := instant % microsecondsPerDay / 1000000
  formatDate (toDate (instant / microsecondsPerDay + 1)) ++ 'T' ::
    (formatTime (seconds / 3600) (seconds / 60 % 60) (seconds % 60) (instant % 1000000) ++
      ['+', '0', '0', ':', '0', '0'])

/-! ### Reading -/

/-- The value of a digit. -/
def digitValue (c : Char) : Option ℕ :=
  if '0' ≤ c ∧ c ≤ '9' then some (c.toNat - '0'.toNat) else none

/-- A number written in digits. -/
def number (cs : List Char) : Option ℕ :=
  cs.foldlM (fun n c => (digitValue c).map fun d => n * 10 + d) 0

/-- The first `width` characters as a number, with the rest. -/
def takeNumber (width : ℕ) (cs : List Char) : Option (ℕ × List Char) :=
  if cs.length < width then none
  else (number (cs.take width)).map fun n => (n, cs.drop width)

/-- `_find_isoformat_datetime_separator`: the length of the date. -/
def dateLength (cs : List Char) : ℕ :=
  let isDigit (i : ℕ) : Bool := cs[i]?.any fun c => (digitValue c).isSome
  if cs.length = 7 then 7
  else if cs[4]? = some '-' then
    if cs[5]? = some 'W' then
      -- `YYYY-Www`, unless a separator and a digit of the day follow.
      if cs[8]? = some '-' ∧ ¬ isDigit 10 then 10 else 8
    else 10
  else if cs[4]? = some 'W' then
    let stop := 7 + ((cs.drop 7).takeWhile fun c => (digitValue c).isSome).length
    -- `YYYYWww` or `YYYYWwwD`: an even number of digits of the time follows.
    if stop < 9 then stop else if stop % 2 = 0 then 7 else 8
  else 8

/-- `_parse_isoformat_date`. -/
def parseDate (cs : List Char) : Option Date := do
  let (year, cs) ← takeNumber 4 cs
  let separated := cs.head? == some '-'
  let cs := if separated then cs.drop 1 else cs
  if cs.head? = some 'W' then
    let (week, cs) ← takeNumber 2 (cs.drop 1)
    if cs = [] then ofWeek year week 1
    else if (cs.head? == some '-') != separated then none
    else do
      let day ← number (if separated then cs.drop 1 else cs)
      ofWeek year week day
  else do
    let (month, cs) ← takeNumber 2 cs
    if (cs.head? == some '-') != separated then none
    else do
      let (day, rest) ← takeNumber 2 (if separated then cs.drop 1 else cs)
      if rest = [] ∧ Date.Valid ⟨year, month, day⟩ then some ⟨year, month, day⟩ else none

/-- A fraction of a second in microseconds; further digits are dropped. -/
def parseFraction (cs : List Char) : Option ℕ := do
  let _ ← number cs
  if cs = [] then none
  else (number (cs.take 6)).map fun n => n * 10 ^ (6 - min 6 cs.length)

/-- `_parse_hh_mm_ss_ff`, as seconds and microseconds. -/
def parseClock (cs : List Char) : Option (ℕ × ℕ × ℕ × ℕ) := do
  let (hour, cs) ← takeNumber 2 cs
  if cs = [] then return (hour, 0, 0, 0)
  else
    let separated := cs.head? == some ':'
    let (minute, cs) ← takeNumber 2 (if separated then cs.drop 1 else cs)
    if cs = [] then return (hour, minute, 0, 0)
    else if separated ∧ cs.head? ≠ some ':' then none
    else
      let (second, cs) ← takeNumber 2 (if separated then cs.drop 1 else cs)
      match cs with
      | [] => return (hour, minute, second, 0)
      | c :: cs =>
        if c = '.' ∨ c = ',' then
          let microsecond ← parseFraction cs
          return (hour, minute, second, microsecond)
        else none

/-- Where the offset from UTC begins. -/
def isOffsetStart (c : Char) : Bool :=
  c == '+' || c == '-' || c == 'Z'

/-- The microseconds of a clock reading. -/
def clockMicroseconds : ℕ × ℕ × ℕ × ℕ → ℕ
  | (hour, minute, second, microsecond) =>
    ((hour * 60 + minute) * 60 + second) * 1000000 + microsecond

/-- The offset of a time: `none` inside for a naive one. -/
def parseOffset : List Char → Option (Option ℤ)
  | [] => some none
  | 'Z' :: rest => if rest = [] then some (some 0) else none
  | sign :: rest => do
    let offset := clockMicroseconds (← parseClock rest)
    if microsecondsPerDay ≤ offset then none
    else return some (if sign = '-' then -(offset : ℤ) else offset)

/-- `_parse_isoformat_time`. -/
def parseTime (cs : List Char) : Option (ℕ × Option ℤ) := do
  let (hour, minute, second, microsecond) ← parseClock (cs.takeWhile (!isOffsetStart ·))
  let offset ← parseOffset (cs.dropWhile (!isOffsetStart ·))
  if hour < 24 ∧ minute < 60 ∧ second < 60 then
    return (clockMicroseconds (hour, minute, second, microsecond), offset)
  else none

/-- `datetime.fromisoformat`: local microseconds since the start of year 1, and the
offset of an aware datetime. -/
def fromisoformat (cs : List Char) : Option (ℕ × Option ℤ) := do
  if cs.length < 7 then none
  else
    let date ← parseDate (cs.take (dateLength cs))
    let start := (date.ordinal - 1) * microsecondsPerDay
    -- Any one character separates date and time.
    if cs.length ≤ dateLength cs then return (start, none)
    else
      let (time, offset) ← parseTime (cs.drop (dateLength cs + 1))
      return (start + time, offset)

/-! ### The date of an ordinal -/

/-- A year after whole cycles of 400, 100 and 4 years. -/
theorem daysBeforeYear_cycles {a b c d : ℕ} (hb : b ≤ 3) (hc : c ≤ 24) (hd : d ≤ 3) :
    daysBeforeYear (a * 400 + 1 + b * 100 + c * 4 + d) =
      a * 146097 + b * 36524 + c * 1461 + d * 365 := by
  unfold daysBeforeYear
  omega

theorem isLeap_cycles {a b c d : ℕ} (hb : b ≤ 3) (hc : c ≤ 24) (hd : d ≤ 3) :
    isLeap (a * 400 + 1 + b * 100 + c * 4 + d) = (d == 3 && (c != 24 || b == 3)) := by
  rw [Bool.eq_iff_iff]
  simp only [isLeap, Bool.and_eq_true, Bool.or_eq_true, beq_iff_eq, bne_iff_ne]
  omega

theorem monthDay_correct : ∀ leap : Bool, ∀ n < 366, (n = 365 → leap = true) →
    daysBeforeMonth leap (monthDay leap n).1 + (monthDay leap n).2 = n + 1 ∧
      1 ≤ (monthDay leap n).1 ∧ (monthDay leap n).1 ≤ 12 ∧ 1 ≤ (monthDay leap n).2 ∧
      (monthDay leap n).2 ≤ daysInMonth leap (monthDay leap n).1 := by
  decide +kernel

/-- The date of an ordinal is a date of the calendar and has that ordinal. -/
theorem ordinal_toDate {n : ℕ} (hpos : 1 ≤ n) (hle : n ≤ 3652059) :
    (toDate n).ordinal = n ∧ (toDate n).Valid = true := by
  obtain ⟨m, rfl⟩ : ∃ m, n = m + 1 := ⟨n - 1, by omega⟩
  -- Name the quotients and remainders of the four cycles, so that the arithmetic stays linear.
  simp only [toDate, Nat.add_sub_cancel]
  generalize ha : m / 146097 = a
  generalize hm400 : m % 146097 = m400
  generalize hb : m400 / 36524 = b
  generalize hm100 : m400 % 36524 = m100
  generalize hc : m100 / 1461 = c
  generalize hm4 : m100 % 1461 = m4
  generalize hd : m4 / 365 = d
  generalize hm1 : m4 % 365 = m1
  by_cases hlast : d = 4 ∨ b = 4
  · -- The thirty-first of December of a leap year.
    rw [if_pos hlast]
    obtain ⟨b', c', hb', hc', hyear, hdays, hleap⟩ : ∃ b' c', b' ≤ 3 ∧ c' ≤ 24 ∧
        a * 400 + 1 + b * 100 + c * 4 + d - 1 = a * 400 + 1 + b' * 100 + c' * 4 + 3 ∧
        m = a * 146097 + b' * 36524 + c' * 1461 + 1460 ∧ (c' ≠ 24 ∨ b' = 3) := by
      -- The short last cycle runs into its end: move the count back into the last full one.
      rcases hlast with hlast | hlast
      · exact ⟨b, c, by omega, by omega, by omega, by omega, by omega⟩
      · exact ⟨3, 24, by omega, by omega, by omega, by omega, by omega⟩
    have hisLeap := isLeap_cycles (a := a) hb' hc' le_rfl
    rw [← hyear] at hisLeap
    have hbefore := daysBeforeYear_cycles (a := a) hb' hc' le_rfl
    rw [← hyear] at hbefore
    have htrue : isLeap (a * 400 + 1 + b * 100 + c * 4 + d - 1) = true := by
      rw [hisLeap]
      simpa using hleap
    constructor
    · simp only [Date.ordinal, htrue, hbefore]
      have hmonth : daysBeforeMonth true 12 = 335 := by decide
      omega
    · simp only [Date.Valid, htrue, decide_eq_true_eq]
      have hmonth : daysInMonth true 12 = 31 := by decide
      omega
  · -- Within the cycles the year is their sum, and the day of the year gives month and day.
    rw [if_neg hlast]
    rw [not_or] at hlast
    have hb3 : b ≤ 3 := by omega
    have hc24 : c ≤ 24 := by omega
    have hd3 : d ≤ 3 := by omega
    have hisLeap := isLeap_cycles (a := a) hb3 hc24 hd3
    have hbefore := daysBeforeYear_cycles (a := a) hb3 hc24 hd3
    have hmd := monthDay_correct (d == 3 && (c != 24 || b == 3)) m1 (by omega) (by omega)
    obtain ⟨hsum, hmonth, hmonth', hday, hday'⟩ := hmd
    constructor
    · simp only [Date.ordinal, hisLeap, hbefore]
      omega
    · simp only [Date.Valid, hisLeap, decide_eq_true_eq]
      exact ⟨by omega, by omega, hmonth, hmonth', hday, hday'⟩

/-! ### Reading what was written -/

theorem digitValue_digit : ∀ n < 10, digitValue (digit n) = some n := by
  decide

theorem not_isOffsetStart_digit : ∀ n < 10, isOffsetStart (digit n) = false := by
  decide

theorem digit_ne_week : ∀ n < 10, digit n ≠ 'W' := by
  decide

@[simp] theorem length_pad (width n : ℕ) : (pad width n).length = width := by
  induction width generalizing n with
  | zero => rfl
  | succ width ih => simp [pad, ih]

theorem mem_pad {width n : ℕ} {c : Char} (h : c ∈ pad width n) : ∃ d < 10, c = digit d := by
  induction width generalizing n with
  | zero => nomatch h
  | succ width ih =>
    rw [pad, List.mem_append, List.mem_singleton] at h
    rcases h with h | rfl
    · exact ih h
    · exact ⟨n % 10, Nat.mod_lt _ (by omega), rfl⟩

theorem number_pad {width n : ℕ} (h : n < 10 ^ width) : number (pad width n) = some n := by
  induction width generalizing n with
  | zero =>
    obtain rfl : n = 0 := by simpa using h
    rfl
  | succ width ih =>
    have hdiv : n / 10 < 10 ^ width := by
      rw [pow_succ] at h
      omega
    have hread := ih hdiv
    rw [number] at hread
    rw [pad, number, List.foldlM_append, hread]
    simp only [List.foldlM_cons, List.foldlM_nil, digitValue_digit _ (Nat.mod_lt n (by omega)),
      Option.map_some, Option.bind_eq_bind, Option.bind_some, Option.pure_def, Option.some.injEq]
    omega

theorem takeNumber_pad {width n : ℕ} (h : n < 10 ^ width) (rest : List Char) :
    takeNumber width (pad width n ++ rest) = some (n, rest) := by
  rw [takeNumber, if_neg (by simp)]
  simp [List.take_left', List.drop_left', number_pad h]

@[simp] theorem length_formatDate (d : Date) : (formatDate d).length = 10 := by
  simp [formatDate]

theorem dateLength_formatDate (d : Date) (rest : List Char) :
    dateLength (formatDate d ++ rest) = 10 := by
  have hfour : (formatDate d ++ rest)[4]? = some '-' := by
    rw [formatDate, List.append_assoc, List.getElem?_append_right (by simp)]
    simp
  have hfive : (formatDate d ++ rest)[5]? ≠ some 'W' := by
    rw [formatDate, List.append_assoc, List.getElem?_append_right (by simp)]
    simpa [pad] using digit_ne_week _ (Nat.mod_lt _ (by omega))
  rw [dateLength, if_neg (by simp; omega), if_pos hfour, if_neg hfive]

theorem parseDate_formatDate {d : Date} (h : d.Valid = true) : parseDate (formatDate d) = some d := by
  have hvalid := of_decide_eq_true h
  have hday : daysInMonth (isLeap d.year) d.month ≤ 31 := by
    obtain ⟨_, _, hmonth, hmonth', _⟩ := hvalid
    generalize d.month = m at hmonth hmonth' ⊢
    cases isLeap d.year <;> interval_cases m <;> decide
  have hday' : d.day < 10 ^ 2 := by omega
  simp only [parseDate, formatDate]
  rw [takeNumber_pad (by omega)]
  simp only [Option.bind_eq_bind, Option.bind_some, List.head?_cons, beq_self_eq_true, if_true,
    List.drop_succ_cons, List.drop_zero]
  have hweek : (pad 2 d.month ++ '-' :: pad 2 d.day).head? ≠ some 'W' := by
    simpa [pad] using digit_ne_week _ (Nat.mod_lt _ (by omega))
  rw [if_neg hweek, takeNumber_pad (by omega)]
  simp only [Option.bind_some, List.head?_cons, bne_self_eq_false, List.drop_succ_cons,
    List.drop_zero, Bool.false_eq_true, if_false, beq_self_eq_true]
  have hlast := takeNumber_pad hday' []
  rw [List.append_nil] at hlast
  rw [hlast]
  simp only [Option.bind_some]
  exact if_pos ⟨trivial, h⟩

theorem parseClock_formatTime {hour minute second microsecond : ℕ} (hhour : hour < 10 ^ 2)
    (hminute : minute < 10 ^ 2) (hsecond : second < 10 ^ 2) (hmicro : microsecond < 10 ^ 6) :
    parseClock (formatTime hour minute second microsecond) =
      some (hour, minute, second, microsecond) := by
  have hfraction : parseFraction (pad 6 microsecond) = some microsecond := by
    have hne : pad 6 microsecond ≠ [] := by
      intro hnil
      simpa using congrArg List.length hnil
    simp [parseFraction, number_pad hmicro, hne, List.take_of_length_le]
  simp only [parseClock, formatTime]
  rw [takeNumber_pad hhour]
  simp only [Option.bind_eq_bind, Option.bind_some, reduceCtorEq, if_false, List.head?_cons,
    beq_self_eq_true, if_true, List.drop_succ_cons, List.drop_zero]
  rw [takeNumber_pad hminute]
  simp only [Option.bind_some, reduceCtorEq, if_false, List.head?_cons, ne_eq, not_true_eq_false,
    and_false, List.drop_succ_cons, List.drop_zero]
  rw [takeNumber_pad hsecond]
  by_cases hzero : microsecond = 0
  · simp [hzero]
  · simp [hzero, hfraction]

theorem formatTime_not_offset {hour minute second microsecond : ℕ} {c : Char}
    (h : c ∈ formatTime hour minute second microsecond) : isOffsetStart c = false := by
  have hpad : ∀ {width n : ℕ}, c ∈ pad width n → isOffsetStart c = false := by
    intro width n hc
    obtain ⟨d, hd, rfl⟩ := mem_pad hc
    exact not_isOffsetStart_digit d hd
  simp only [formatTime, List.mem_append, List.mem_cons] at h
  rcases h with h | rfl | h | rfl | h | h
  · exact hpad h
  · decide
  · exact hpad h
  · decide
  · exact hpad h
  · split at h
    · nomatch h
    · rcases List.mem_cons.mp h with rfl | h
      · decide
      · exact hpad h

theorem parseTime_formatTime {hour minute second microsecond : ℕ} (hhour : hour < 24)
    (hminute : minute < 60) (hsecond : second < 60) (hmicro : microsecond < 10 ^ 6) :
    parseTime (formatTime hour minute second microsecond ++ ['+', '0', '0', ':', '0', '0']) =
      some (clockMicroseconds (hour, minute, second, microsecond), some 0) := by
  have hall : ∀ c ∈ formatTime hour minute second microsecond, (!isOffsetStart c) = true :=
    fun c hc => by rw [formatTime_not_offset hc]; rfl
  have hoffset : parseOffset ['+', '0', '0', ':', '0', '0'] = some (some 0) := by decide
  rw [parseTime, List.takeWhile_append_of_pos hall, List.dropWhile_append_of_pos hall]
  have htake : (['+', '0', '0', ':', '0', '0'].takeWhile fun c => !isOffsetStart c) = [] := rfl
  have hdrop : (['+', '0', '0', ':', '0', '0'].dropWhile fun c => !isOffsetStart c) =
      ['+', '0', '0', ':', '0', '0'] := rfl
  rw [htake, hdrop, List.append_nil, hoffset, parseClock_formatTime (by omega) (by omega)
    (by omega) hmicro]
  simp only [Option.bind_eq_bind, Option.bind_some]
  exact if_pos ⟨hhour, hminute, hsecond⟩

/-- Every instant until the end of year 9999 is read back from its text. -/
theorem fromisoformat_isoformat {instant : ℕ} (h : instant < instants) :
    fromisoformat (isoformat instant) = some (instant, some 0) := by
  have hday : instant / microsecondsPerDay + 1 ≤ 3652059 :=
    Nat.div_lt_of_lt_mul (by rw [Nat.mul_comm]; exact h)
  obtain ⟨hordinal, hvalid⟩ := ordinal_toDate (Nat.le_add_left 1 _) hday
  generalize hd : toDate (instant / microsecondsPerDay + 1) = date at hordinal hvalid
  simp only [isoformat, fromisoformat, hd]
  rw [if_neg (by simp; omega), dateLength_formatDate, List.take_left' (length_formatDate _),
    parseDate_formatDate hvalid]
  simp only [Option.bind_eq_bind, Option.bind_some]
  rw [if_neg (by simp)]
  have hdrop : ∀ rest : List Char, (formatDate date ++ 'T' :: rest).drop (10 + 1) = rest := by
    intro rest
    rw [List.drop_append, List.drop_eq_nil_of_le (by simp)]
    simp
  rw [hdrop, parseTime_formatTime, hordinal]
  · simp only [Option.bind_some, clockMicroseconds, Option.pure_def, Option.some.injEq,
      Prod.mk.injEq, and_true, microsecondsPerDay]
    omega
  · unfold microsecondsPerDay
    omega
  · omega
  · omega
  · omega

end Datetime
