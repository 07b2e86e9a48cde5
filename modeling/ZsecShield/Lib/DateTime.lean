import ZsecShield.Lib.Number

/-!
# Dates and times

`datetime` as its fields, which are those of a calendar date and a time of day, and
the ISO 8601 text of one.  `fromIsoFormat` reads the forms `datetime.fromisoformat`
documents: calendar and week dates, with or without separators, any character between
date and time, a decimal point or comma, and an offset.  `fromIsoFormat_isoFormat` is the
round trip for a whole second in UTC.
-/

open Text

namespace Calendar

def isLeap (year : Nat) : Bool := year % 4 = 0 && (year % 100 ≠ 0 || year % 400 = 0)

def daysInMonth (year month : Nat) : Nat :=
  if month = 2 then if isLeap year then 29 else 28
  else if month = 4 ∨ month = 6 ∨ month = 9 ∨ month = 11 then 30
  else 31

def daysBeforeYear (year : Nat) : Nat :=
  (year - 1) * 365 + (year - 1) / 4 - (year - 1) / 100 + (year - 1) / 400

/-- The days of a year before a month. -/
def daysBeforeMonth (year : Nat) : (month : Nat) → Nat
  | 0 => 0
  | 1 => 0
  | month + 2 => daysBeforeMonth year (month + 1) + daysInMonth year (month + 1)

/-- The number of a day, January 1 of year 1 being day 1. -/
def ordinal (year month day : Nat) : Nat :=
  daysBeforeYear year + daysBeforeMonth year month + day

/-- The month and the day in it of a day of a year, counted from 0. -/
def monthDay (year : Nat) (n : Nat) : (months : Nat) → Nat × Nat
  | 0 => (1, n + 1)
  | months + 1 =>
      if daysBeforeMonth year (months + 2) ≤ n then
        (months + 2, n - daysBeforeMonth year (months + 2) + 1)
      else monthDay year n months

/-- The date of a day number: year, month and day. -/
def ofOrdinal (n : Nat) : Nat × Nat × Nat :=
  let n := n - 1
  let centuries := min (n % 146097 / 36524) 3
  let rest := n % 146097 - centuries * 36524
  let years := min (rest % 1461 / 365) 3
  let year := n / 146097 * 400 + centuries * 100 + rest / 1461 * 4 + years + 1
  let (month, day) := monthDay year (rest % 1461 - years * 365) 11
  (year, month, day)

/-- The date of a day of an ISO week. -/
def ofIsoWeek (year week day : Nat) : Option (Nat × Nat × Nat) :=
  let newYear := ordinal year 1 1
  let weekday := (newYear + 6) % 7
  let monday := if 3 < weekday then newYear - weekday + 7 else newYear - weekday
  let long := weekday = 3 ∨ weekday = 2 ∧ isLeap year = true
  if 1 ≤ year ∧ (1 ≤ week ∧ week ≤ 52 ∨ week = 53 ∧ long) ∧ 1 ≤ day ∧ day ≤ 7 then
    some (ofOrdinal (monday + (week - 1) * 7 + (day - 1)))
  else none

end Calendar

/-- A date and a time of day. -/
structure DateTime where
  year : Nat
  month : Nat
  day : Nat
  hour : Nat
  minute : Nat
  second : Nat
  microsecond : Nat
  date : (1 ≤ year ∧ year ≤ 9999) ∧ (1 ≤ month ∧ month ≤ 12) ∧
    1 ≤ day ∧ day ≤ Calendar.daysInMonth year month
  time : hour < 24 ∧ minute < 60 ∧ second < 60 ∧ microsecond < 1000000
deriving DecidableEq

namespace DateTime

/-- `datetime(year, …)`, which refuses a date or a time that is none. -/
def make (year month day hour minute second microsecond : Nat) : Option DateTime :=
  if hdate : (1 ≤ year ∧ year ≤ 9999) ∧ (1 ≤ month ∧ month ≤ 12) ∧
      1 ≤ day ∧ day ≤ Calendar.daysInMonth year month then
    if htime : hour < 24 ∧ minute < 60 ∧ second < 60 ∧ microsecond < 1000000 then
      some ⟨year, month, day, hour, minute, second, microsecond, hdate, htime⟩
    else none
  else none

theorem make_self (d : DateTime) :
    make d.year d.month d.day d.hour d.minute d.second d.microsecond = some d := by
  rw [make, dif_pos d.date, dif_pos d.time]

/-! ## Instants -/

def microsecondsOfDay : Nat := 86400000000

/-- Microseconds since the beginning of day 0. -/
def instant (d : DateTime) : Nat :=
  Calendar.ordinal d.year d.month d.day * microsecondsOfDay +
    ((d.hour * 60 + d.minute) * 60 + d.second) * 1000000 + d.microsecond

/-- The last instant a `datetime` can stand for. -/
def lastInstant : Nat := Calendar.ordinal 9999 12 31 * microsecondsOfDay + (microsecondsOfDay - 1)

/-- The time of an instant, if it lies between the first and the last year. -/
def ofInstant (n : Nat) : Option DateTime :=
  let (year, month, day) := Calendar.ofOrdinal (n / microsecondsOfDay)
  let rest := n % microsecondsOfDay
  let seconds := rest / 1000000
  if microsecondsOfDay ≤ n ∧ n ≤ lastInstant then
    make year month day (seconds / 3600) (seconds / 60 % 60) (seconds % 60) (rest % 1000000)
  else none

def seconds (n : Nat) : Nat := n * 1000000

def minutes (n : Nat) : Nat := seconds (n * 60)

def days (n : Nat) : Nat := n * microsecondsOfDay

/-- `value.replace(microsecond=0)`. -/
def wholeSecond (d : DateTime) : DateTime :=
  { d with microsecond := 0, time := ⟨d.time.1, d.time.2.1, d.time.2.2.1, by omega⟩ }

/-! ## Writing -/

/-- The last decimal digit of a number. -/
def lastDigit (n : Nat) : CodePoint := ⟨48 + n % 10, by omega⟩

def twoDigits (n : Nat) : Str := [lastDigit (n / 10), lastDigit n]

def fourDigits (n : Nat) : Str :=
  [lastDigit (n / 1000), lastDigit (n / 100), lastDigit (n / 10), lastDigit n]

/-- `YYYY-MM-DDTHH:MM:SS` of a whole second. -/
def isoSecond (d : DateTime) : Str :=
  fourDigits d.year ++ (ofChar '-' :: (twoDigits d.month ++ (ofChar '-' :: (twoDigits d.day ++
    (ofChar 'T' :: (twoDigits d.hour ++ (ofChar ':' :: (twoDigits d.minute ++ (ofChar ':' ::
      twoDigits d.second)))))))))

/-! ## Reading -/

/-- The number that `count` leading digits denote, and the rest. -/
def leadingDigits (count : Nat) (s : Str) : Option (Nat × Str) :=
  if count ≤ s.length ∧ (s.take count).all isDigit = true then
    some (ofDigits (s.take count), s.drop count)
  else none

/-- Where the date ends and the separator stands. -/
def separatorLocation (s : Str) : Nat :=
  let at' (i : Nat) (c : Char) : Bool := s[i]? = some (ofChar c)
  if s.length = 7 then 7
  else if at' 4 '-' then
    if at' 5 'W' then
      if at' 8 '-' then
        if (s[10]?).any isDigit then 8 else 10
      else 8
    else 10
  else if at' 4 'W' then
    let digits := ((s.drop 7).takeWhile isDigit).length
    if digits < 2 then 7 + digits else if digits % 2 = 1 then 7 else 8
  else 8

/-- The day behind a week, `-D` or `D`, or Monday where there is none. -/
def parseWeekDay (dashed : Bool) (s : Str) : Option Nat :=
  match s with
  | [] => some 1
  | c :: rest =>
      if dashed then
        if c = ofChar '-' then (leadingDigits 1 rest).bind fun p =>
          if p.2 = [] then some p.1 else none
        else none
      else (leadingDigits 1 (c :: rest)).bind fun p => if p.2 = [] then some p.1 else none

/-- `YYYY-MM-DD`, `YYYYMMDD`, `YYYY-Www[-D]` or `YYYYWww[D]`. -/
def parseDate (s : Str) : Option (Nat × Nat × Nat) := do
  let (year, s) ← leadingDigits 4 s
  let dashed := s.head? = some (ofChar '-')
  let s := if dashed then s.drop 1 else s
  if s.head? = some (ofChar 'W') then
    let (week, s) ← leadingDigits 2 (s.drop 1)
    let day ← parseWeekDay dashed s
    Calendar.ofIsoWeek year week day
  else
    let (month, s) ← leadingDigits 2 s
    if decide (s.head? = some (ofChar '-')) ≠ dashed then none
    let (day, s) ← leadingDigits 2 (if dashed then s.drop 1 else s)
    if s = [] then some (year, month, day) else none

/-- The microseconds that the digits behind a decimal point denote. -/
def parseFraction (s : Str) : Option Nat :=
  if s ≠ [] ∧ s.all isDigit = true then
    some (ofDigits (s.take 6) * 10 ^ (6 - (s.take 6).length))
  else none

/-- What follows the seconds: nothing or a fraction. -/
def parseMicrosecond (s : Str) : Option Nat :=
  match s with
  | [] => some 0
  | c :: rest => if c = ofChar '.' ∨ c = ofChar ',' then parseFraction rest else none

/-- Two more digits behind a separator. -/
def parsePart (colons : Bool) (s : Str) : Option (Nat × Str) :=
  if colons then
    match s with
    | c :: rest => if c = ofChar ':' then leadingDigits 2 rest else none
    | [] => none
  else leadingDigits 2 s

/-- `HH[:?MM[:?SS[{.,}f+]]]`: hour, minute, second and microsecond. -/
def parseTime (s : Str) : Option (Nat × Nat × Nat × Nat) := do
  let (hour, s) ← leadingDigits 2 s
  if s = [] then some (hour, 0, 0, 0)
  else
    let colons := s.head? = some (ofChar ':')
    let (minute, s) ← parsePart colons s
    if s = [] then some (hour, minute, 0, 0)
    else
      let (second, s) ← parsePart colons s
      let microsecond ← parseMicrosecond s
      some (hour, minute, second, microsecond)

/-- The characters an offset can start with. -/
def startsZone (c : CodePoint) : Bool :=
  c = ofChar '+' || c = ofChar '-' || c = ofChar 'Z'

/-- An offset in microseconds, from its sign on. -/
def parseZone (s : Str) : Option Int :=
  match s with
  | [] => none
  | sign :: rest =>
      if sign = ofChar 'Z' then if rest = [] then some 0 else none
      else
        (parseTime rest).bind fun (hour, minute, second, microsecond) =>
          let offset := ((hour * 60 + minute) * 60 + second) * 1000000 + microsecond
          if offset < microsecondsOfDay then
            some (if sign = ofChar '-' then -(offset : Int) else offset)
          else none

/-- A time with its offset, or a time without one. -/
structure Parsed where
  value : DateTime
  offset : Option Int

/-- `datetime.fromisoformat`. -/
def fromIsoFormat (s : Str) : Option Parsed := do
  if s.length < 7 then none
  let location := separatorLocation s
  let (year, month, day) ← parseDate (s.take location)
  let rest := s.drop (location + 1)
  if rest = [] then
    let value ← make year month day 0 0 0 0
    some ⟨value, none⟩
  else
    let (hour, minute, second, microsecond) ← parseTime (rest.takeWhile fun c => !startsZone c)
    let value ← make year month day hour minute second microsecond
    let zone := rest.dropWhile fun c => !startsZone c
    if zone = [] then some ⟨value, none⟩
    else
      let offset ← parseZone zone
      some ⟨value, some offset⟩

/-! ## Round trip -/

theorem isDigit_lastDigit (n : Nat) : isDigit (lastDigit n) = true := by
  have := Nat.mod_lt n (by omega : 0 < 10)
  rw [isDigit, Bool.and_eq_true, decide_eq_true_eq, decide_eq_true_eq]
  change 48 ≤ 48 + n % 10 ∧ 48 + n % 10 ≤ 57
  omega

theorem lastDigit_ne (n : Nat) {c : CodePoint} (h : isDigit c = false) : lastDigit n ≠ c := by
  intro heq
  rw [← heq, isDigit_lastDigit] at h
  cases h

theorem leadingDigits_twoDigits {n : Nat} (h : n < 100) (rest : Str) :
    leadingDigits 2 (twoDigits n ++ rest) = some (n, rest) := by
  have hn : ofDigits (twoDigits n) = n := by
    simp only [ofDigits, twoDigits, lastDigit, List.foldl_cons, List.foldl_nil]
    omega
  have htake : (twoDigits n ++ rest).take 2 = twoDigits n := rfl
  have hdrop : (twoDigits n ++ rest).drop 2 = rest := rfl
  rw [leadingDigits, if_pos, htake, hdrop, hn]
  refine ⟨by simp [twoDigits], ?_⟩
  rw [htake]
  simp [twoDigits, isDigit_lastDigit]

theorem leadingDigits_fourDigits {n : Nat} (h : n < 10000) (rest : Str) :
    leadingDigits 4 (fourDigits n ++ rest) = some (n, rest) := by
  have hn : ofDigits (fourDigits n) = n := by
    simp only [ofDigits, fourDigits, lastDigit, List.foldl_cons, List.foldl_nil]
    omega
  have htake : (fourDigits n ++ rest).take 4 = fourDigits n := rfl
  have hdrop : (fourDigits n ++ rest).drop 4 = rest := rfl
  rw [leadingDigits, if_pos, htake, hdrop, hn]
  refine ⟨by simp [fourDigits], ?_⟩
  rw [htake]
  simp [fourDigits, isDigit_lastDigit]

theorem takeWhile_unzoned {s : Str} (h : ∀ c ∈ s, startsZone c = false) (zone : Str)
    (hzone : ∀ c ∈ zone.head?, startsZone c = true) :
    (s ++ zone).takeWhile (fun c => !startsZone c) = s ∧
      (s ++ zone).dropWhile (fun c => !startsZone c) = zone := by
  have hall : ∀ c ∈ s, (!startsZone c) = true := by
    intro c hc
    rw [h c hc]
    rfl
  rw [List.takeWhile_append_of_pos hall, List.dropWhile_append_of_pos hall]
  cases zone with
  | nil => simp
  | cons c zone => simp [hzone c rfl]

theorem startsZone_lastDigit (n : Nat) : startsZone (lastDigit n) = false := by
  simp only [startsZone, lastDigit_ne n (by decide : isDigit (ofChar '+') = false),
    lastDigit_ne n (by decide : isDigit (ofChar '-') = false),
    lastDigit_ne n (by decide : isDigit (ofChar 'Z') = false), decide_false, Bool.or_self]

theorem twoDigits_ne_nil (n : Nat) : twoDigits n ≠ [] := by simp [twoDigits]

/-- The text of a time of day. -/
def clockText (d : DateTime) : Str :=
  twoDigits d.hour ++ (ofChar ':' :: (twoDigits d.minute ++ (ofChar ':' :: twoDigits d.second)))

/-- The text of a date. -/
def dateText (d : DateTime) : Str :=
  fourDigits d.year ++ (ofChar '-' :: (twoDigits d.month ++ (ofChar '-' :: twoDigits d.day)))

theorem isoSecond_eq (d : DateTime) : isoSecond d = dateText d ++ ofChar 'T' :: clockText d := by
  simp only [isoSecond, dateText, clockText, List.append_assoc, List.cons_append]

theorem parseTime_clockText (d : DateTime) :
    parseTime (clockText d) = some (d.hour, d.minute, d.second, 0) := by
  obtain ⟨hh, hm, hs, -⟩ := d.time
  have hsecond : leadingDigits 2 (twoDigits d.second) = some (d.second, []) := by
    have h := leadingDigits_twoDigits (by omega : d.second < 100) []
    rwa [List.append_nil] at h
  rw [parseTime, clockText, leadingDigits_twoDigits (by omega : d.hour < 100)]
  simp only [Option.bind_eq_bind, Option.bind_some, List.cons_ne_nil, ↓reduceIte, List.head?_cons,
    decide_true, parsePart, leadingDigits_twoDigits (by omega : d.minute < 100), hsecond,
    parseMicrosecond]

theorem parseDate_dateText (d : DateTime) :
    parseDate (dateText d) = some (d.year, d.month, d.day) := by
  obtain ⟨⟨-, hy⟩, ⟨-, hm⟩, -, hd⟩ := d.date
  have hday : d.day < 100 := by
    have : Calendar.daysInMonth d.year d.month ≤ 31 := by
      unfold Calendar.daysInMonth
      split
      · split <;> omega
      · split <;> omega
    omega
  have hlast : leadingDigits 2 (twoDigits d.day) = some (d.day, []) := by
    have h := leadingDigits_twoDigits hday []
    rwa [List.append_nil] at h
  have hmonth := leadingDigits_twoDigits (by omega : d.month < 100) (ofChar '-' :: twoDigits d.day)
  have hweek : ¬ (twoDigits d.month ++ ofChar '-' :: twoDigits d.day).head? = some (ofChar 'W') := by
    intro h
    exact lastDigit_ne (d.month / 10) (by decide : isDigit (ofChar 'W') = false)
      (Option.some.inj h)
  rw [parseDate, dateText, leadingDigits_fourDigits (by omega : d.year < 10000)]
  simp only [Option.bind_eq_bind, Option.bind_some, List.head?_cons, decide_true, ↓reduceIte,
    List.drop_succ_cons, List.drop_zero, hweek, hmonth, ne_eq, not_true_eq_false, hlast]

theorem separatorLocation_dateText (d : DateTime) (rest : Str) :
    separatorLocation (dateText d ++ ofChar 'T' :: rest) = 10 := by
  have hlen : ¬ (dateText d ++ ofChar 'T' :: rest).length = 7 := by
    simp [dateText, fourDigits, twoDigits]
  have hdash : (dateText d ++ ofChar 'T' :: rest)[4]? = some (ofChar '-') := rfl
  have hmonth : (dateText d ++ ofChar 'T' :: rest)[5]? = some (lastDigit (d.month / 10)) := rfl
  have hweek : ¬ some (lastDigit (d.month / 10)) = some (ofChar 'W') := by
    intro h
    exact lastDigit_ne _ (by decide : isDigit (ofChar 'W') = false) (Option.some.inj h)
  simp only [separatorLocation, hlen, hdash, hmonth, hweek, decide_true, decide_false, ↓reduceIte,
    Bool.false_eq_true]

/-- A whole second with the offset of UTC is read back. -/
theorem fromIsoFormat_isoSecond (d : DateTime) :
    fromIsoFormat (isoSecond d ++ Text.str "+00:00") = some ⟨d.wholeSecond, some 0⟩ := by
  have hzoned : ∀ c ∈ clockText d, startsZone c = false := by
    intro c hc
    simp only [clockText, twoDigits, List.cons_append, List.nil_append, List.mem_cons,
      List.not_mem_nil, or_false] at hc
    obtain rfl | rfl | rfl | rfl | rfl | rfl | rfl | rfl := hc
    all_goals first | exact startsZone_lastDigit _ | decide
  have hzone : ∀ c ∈ (Text.str "+00:00").head?, startsZone c = true := by
    intro c hc
    cases hc
    decide
  obtain ⟨htake, hdrop⟩ := takeWhile_unzoned hzoned (Text.str "+00:00") hzone
  have hparse : parseZone (Text.str "+00:00") = some 0 := by decide
  have hlen : ¬ (isoSecond d ++ Text.str "+00:00").length < 7 := by
    simp [isoSecond, fourDigits, twoDigits]
  have hloc : separatorLocation (isoSecond d ++ Text.str "+00:00") = 10 := by
    rw [isoSecond_eq, List.append_assoc, List.cons_append]
    exact separatorLocation_dateText d _
  have hdate : (isoSecond d ++ Text.str "+00:00").take 10 = dateText d := rfl
  have hrest : (isoSecond d ++ Text.str "+00:00").drop 11 = clockText d ++ Text.str "+00:00" := rfl
  have hne : clockText d ++ Text.str "+00:00" ≠ [] := by simp [clockText, twoDigits]
  have hplus : Text.str "+00:00" ≠ [] := by decide
  have hmake : make d.year d.month d.day d.hour d.minute d.second 0 = some d.wholeSecond :=
    make_self d.wholeSecond
  simp only [fromIsoFormat, hlen, ↓reduceIte, hloc, hdate, parseDate_dateText, hrest, hne, htake,
    hdrop, hplus, hparse, parseTime_clockText, hmake, Option.bind_eq_bind, Option.bind_some]

end DateTime
