/-!
# Points in time

An instant counts seconds from 1970 in universal time. It is written and read in the form of
RFC 3339, with as many fraction digits (none, three, six or nine) as it needs. A leap second is
kept as a fraction from one second up, so that the second is written as 60.
-/

namespace Reckoner

/-- A point in universal time. -/
structure Instant where
  /-- Whole seconds since the start of 1970. -/
  seconds : Int
  /-- Billionths of a second; from one second up within a leap second. -/
  nanoseconds : Nat
deriving DecidableEq, Inhabited, Repr

/-- A day of the proleptic Gregorian calendar. -/
structure Day where
  /-- The year; the year before year one is zero. -/
  year : Int
  /-- January is one. -/
  month : Nat
  /-- The first day of a month is one. -/
  day : Nat
deriving DecidableEq, Repr

namespace Day

/-- Whether a year has a twenty-ninth of February. -/
def isLeapYear (year : Int) : Bool :=
  year % 4 == 0 && (year % 100 != 0 || year % 400 == 0)

/-- How many days a month has. -/
def monthLength (year : Int) (month : Nat) : Nat :=
  if month = 2 then (if isLeapYear year then 29 else 28)
  else if month = 4 ∨ month = 6 ∨ month = 9 ∨ month = 11 then 30
  else 31

/-- Whether the calendar has this day. -/
def isValid (d : Day) : Bool :=
  1 ≤ d.month && d.month ≤ 12 && 1 ≤ d.day && d.day ≤ monthLength d.year d.month

/-- The number of days since the first of January 1970. Years are counted from March, in spans of
400 years, which all have 146097 days. -/
def number (d : Day) : Int :=
  let shifted := if d.month ≤ 2 then d.year - 1 else d.year
  let span := shifted.fdiv 400
  let yearOfSpan := shifted - span * 400
  let month : Int := if d.month ≤ 2 then d.month + 9 else d.month - 3
  let dayOfYear := (153 * month + 2) / 5 + d.day - 1
  let dayOfSpan := yearOfSpan * 365 + yearOfSpan / 4 - yearOfSpan / 100 + dayOfYear
  span * 146097 + dayOfSpan - 719468

/-- The day with a given number. -/
def ofNumber (n : Int) : Day :=
  let shifted := n + 719468
  let span := shifted.fdiv 146097
  let dayOfSpan := shifted - span * 146097
  let yearOfSpan :=
    (dayOfSpan - dayOfSpan / 1460 + dayOfSpan / 36524 - dayOfSpan / 146096) / 365
  let dayOfYear := dayOfSpan - (365 * yearOfSpan + yearOfSpan / 4 - yearOfSpan / 100)
  let month := (5 * dayOfYear + 2) / 153
  let day := dayOfYear - (153 * month + 2) / 5 + 1
  let calendarMonth := if month < 10 then month + 3 else month - 9
  let year := yearOfSpan + span * 400
  ⟨if calendarMonth ≤ 2 then year + 1 else year, calendarMonth.toNat, day.toNat⟩

/-- A day that the numbering goes through a leap day to reach. -/
example : ofNumber (number ⟨2024, 3, 1⟩) = ⟨2024, 3, 1⟩ ∧ number ⟨1970, 1, 1⟩ = 0 := by decide

end Day

namespace Instant

/-- The number with zeros in front, to a given width. -/
def padded (width n : Nat) : String :=
  let digits := Nat.toDigits 10 n
  String.ofList (List.replicate (width - digits.length) '0' ++ digits)

/-- A year with at least four digits; years outside of these carry a sign. -/
def yearText (year : Int) : String :=
  if 0 ≤ year ∧ year ≤ 9999 then padded 4 year.toNat
  else (if year < 0 then "-" else "+") ++ padded 4 year.natAbs

/-- The day of an instant. -/
def day (t : Instant) : Day := Day.ofNumber (t.seconds.fdiv 86400)

/-- The date of an instant. -/
def dateText (t : Instant) : String :=
  yearText t.day.year ++ "-" ++ padded 2 t.day.month ++ "-" ++ padded 2 t.day.day

/-- The time of day, without the fraction. -/
def clockText (t : Instant) : String :=
  let second := (t.seconds.fmod 86400).toNat
  let leap := t.nanoseconds / 1000000000
  padded 2 (second / 3600) ++ ":" ++ padded 2 (second / 60 % 60) ++ ":" ++
    padded 2 (second % 60 + leap)

/-- The fraction of the second, with its point, in thousandths, millionths or billionths. -/
def fractionText (t : Instant) : String :=
  let n := t.nanoseconds % 1000000000
  if n = 0 then ""
  else if n % 1000000 = 0 then "." ++ padded 3 (n / 1000000)
  else if n % 1000 = 0 then "." ++ padded 6 (n / 1000)
  else "." ++ padded 9 n

/-- The instant in the form of RFC 3339, with a given text for the zone. -/
def rfc3339 (t : Instant) (zone : String) : String :=
  t.dateText ++ "T" ++ t.clockText ++ t.fractionText ++ zone

/-- The form in which instants are stored and sent. -/
def stored (t : Instant) : String := t.rfc3339 "+00:00"

/-- The form of JSON listings. -/
def zulu (t : Instant) : String := t.rfc3339 "Z"

/-- The form of tables, to the second. -/
def listed (t : Instant) : String := t.dateText ++ " " ++ t.clockText

/-- Exactly `count` digits at the front of a text, as a number, and what follows. -/
def readDigits? (count : Nat) (text : List Char) : Option (Nat × List Char) :=
  let digits := text.take count
  if digits.length = count ∧ digits.all Char.isDigit then
    some (digits.foldl (fun n c => 10 * n + (c.toNat - 48)) 0, text.drop count)
  else none

/-- What follows one of the given characters. -/
def readChar? (accepted : List Char) : List Char → Option (List Char)
  | c :: rest => if accepted.contains c then some rest else none
  | [] => none

/-- An optional fraction in billionths, digits from the tenth on ignored, and what follows. -/
def readFraction? : List Char → Option (Nat × List Char)
  | '.' :: rest =>
    let digits := rest.takeWhile Char.isDigit
    if digits.isEmpty then none
    else
      let kept := digits.take 9
      let value := kept.foldl (fun n c => 10 * n + (c.toNat - 48)) 0
      some (value * Nat.pow 10 (9 - kept.length), rest.dropWhile Char.isDigit)
  | rest => some (0, rest)

/-- A zone at the end of a text, in seconds east. -/
def readZone? : List Char → Option Int
  | [c] => if c == 'Z' || c == 'z' then some 0 else none
  | sign :: rest => do
    let negative ←
      if sign == '+' then some false
      else if sign == '-' || sign == '−' then some true
      else none
    let (hours, rest) ← readDigits? 2 rest
    let rest ← readChar? [':'] rest
    let (minutes, rest) ← readDigits? 2 rest
    if hours ≤ 23 ∧ minutes ≤ 59 ∧ rest = [] then
      let east : Int := hours * 3600 + minutes * 60
      some (if negative then -east else east)
    else none
  | [] => none

/-- The instant that a text in the form of RFC 3339 denotes. Date and time may be joined by a blank
or by a small letter, and the zone's sign may be the minus of typography. -/
def ofRfc3339? (text : String) : Option Instant := do
  let (year, rest) ← readDigits? 4 text.toList
  let rest ← readChar? ['-'] rest
  let (month, rest) ← readDigits? 2 rest
  let rest ← readChar? ['-'] rest
  let (day, rest) ← readDigits? 2 rest
  let rest ← readChar? ['T', 't', ' '] rest
  let (hour, rest) ← readDigits? 2 rest
  let rest ← readChar? [':'] rest
  let (minute, rest) ← readDigits? 2 rest
  let rest ← readChar? [':'] rest
  let (second, rest) ← readDigits? 2 rest
  let (fraction, rest) ← readFraction? rest
  let east ← readZone? rest
  let date : Day := ⟨year, month, day⟩
  if date.isValid ∧ hour ≤ 23 ∧ minute ≤ 59 ∧ second ≤ 60 then
    let leap : Nat := if second = 60 then 1 else 0
    let clock : Int := (hour * 3600 + minute * 60 + (second - leap) : Nat)
    some ⟨date.number * 86400 + clock - east, fraction + leap * 1000000000⟩
  else none

/-- How far `t` lies behind `since`, in billionths of a second. -/
def elapsed (t since : Instant) : Int :=
  (t.seconds - since.seconds) * 1000000000 + ((t.nanoseconds : Int) - since.nanoseconds)

/-- The instant some seconds earlier. -/
def secondsAgo (t : Instant) (n : Int) : Instant := { t with seconds := t.seconds - n }

end Instant

end Reckoner
