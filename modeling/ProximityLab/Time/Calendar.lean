import ProximityLab.Number.FloatText

/-!
# Dates and times of day

A `DateTime` is a date of the Gregorian calendar, continued into the past and the future, with a
time of day in whole seconds. A minute may have a sixtieth second. `DateTime.ofFields?` takes six
numbers and refuses those that are no date or no time. `DateTime.ofSeconds` reads a clock that
counts seconds.
-/

namespace ProximityLab

/-- A date and a time of day. -/
structure DateTime where
  year : Int
  month : Nat
  day : Nat
  hour : Nat
  minute : Nat
  second : Nat
  deriving DecidableEq

namespace DateTime

/-- The year has a 29th of February. -/
def isLeap (year : Int) : Bool := year % 4 = 0 && (year % 100 != 0 || year % 400 = 0)

/-- The days of a month. -/
def daysIn (year : Int) (month : Nat) : Nat :=
  if month = 2 then if isLeap year then 29 else 28
  else if [4, 6, 9, 11].contains month then 30
  else 31

/-- The numbers are a date and a time of day. -/
def isValid (d : DateTime) : Bool :=
  1 ≤ d.month && d.month ≤ 12 && 1 ≤ d.day && d.day ≤ daysIn d.year d.month &&
    d.hour < 24 && d.minute < 60 && d.second ≤ 60

/-- The date and time of six numbers. -/
def ofFields? (year : Int) (month day hour minute second : Nat) : Option DateTime :=
  let d : DateTime := ⟨year, month, day, hour, minute, second⟩
  if d.isValid then some d else none

/-- The date of the day that lies `days` days after the first of March of the year 0. A cycle of the
calendar has 146097 days and 400 years; a year that starts in March ends with its leap day. -/
def dateOfDay (days : Int) : Int × Nat × Nat :=
  let cycle := days.fdiv 146097
  let inCycle := (days.fmod 146097).toNat
  let yearInCycle := (inCycle - inCycle / 1460 + inCycle / 36524 - inCycle / 146096) / 365
  let inYear := inCycle - (365 * yearInCycle + yearInCycle / 4 - yearInCycle / 100)
  let monthFromMarch := (5 * inYear + 2) / 153
  let day := inYear - (153 * monthFromMarch + 2) / 5 + 1
  let month := if monthFromMarch < 10 then monthFromMarch + 3 else monthFromMarch - 9
  (cycle * 400 + yearInCycle + if month ≤ 2 then 1 else 0, month, day)

/-- The date and time `seconds` seconds after the start of 1970. -/
def ofSeconds (seconds : Int) : DateTime :=
  let (year, month, day) := dateOfDay (seconds.fdiv 86400 + 719468)
  let inDay := (seconds.fmod 86400).toNat
  ⟨year, month, day, inDay / 3600, inDay / 60 % 60, inDay % 60⟩

/-- A year with at least four digits; one that needs more or is negative has its sign. -/
def yearChars (year : Int) : List Char :=
  (if year < 0 then ['-'] else if 9999 < year then ['+'] else []) ++ paddedDigits 4 year.natAbs

/-- The six numbers as text. -/
def fields (d : DateTime) : List (List Char) :=
  yearChars d.year :: [d.month, d.day, d.hour, d.minute, d.second].map (paddedDigits 2)

/-- The six numbers with blanks between them. -/
def spaced (d : DateTime) : String := String.ofList ([' '].intercalate d.fields)

/-- The date with dashes and the time with colons. -/
def text (d : DateTime) : String :=
  let f := d.fields
  String.ofList (['-'].intercalate (f.take 3) ++ ' ' :: [':'].intercalate (f.drop 3))

end DateTime

end ProximityLab
