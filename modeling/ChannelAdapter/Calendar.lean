/-!
Calendar dates, times of day and instants of universal time. A date has a day number, which grows
by one from each day to the next, and the date is found again from it.
-/

namespace ChannelAdapter.Calendar

/-- A day of the calendar that is used today, reckoned back before its introduction. The year before
the year 1 is the year 0. -/
structure Date where
  year : Int
  month : Nat
  day : Nat
  deriving DecidableEq, Repr

def isLeap (year : Int) : Bool :=
  (year % 4 == 0 && year % 100 != 0) || year % 400 == 0

def monthLength (year : Int) : Nat → Nat
  | 2 => if isLeap year then 29 else 28
  | 4 | 6 | 9 | 11 => 30
  | _ => 31

def daysBeforeMonth (year : Int) (month : Nat) : Nat :=
  (List.range (month - 1)).foldl (fun days m => days + monthLength year (m + 1)) 0

/-- The days from the beginning of the year 0 to that of a year, which is a leap year for each
multiple of four in between, but not of a hundred, and yet of four hundred. -/
def daysBeforeYear (year : Int) : Int :=
  365 * year + (year + 3) / 4 - (year + 99) / 100 + (year + 399) / 400

def minYear : Int := -262143

def maxYear : Int := 262142

namespace Date

def isValid (d : Date) : Bool :=
  minYear ≤ d.year && d.year ≤ maxYear && 1 ≤ d.month && d.month ≤ 12 && 1 ≤ d.day &&
    d.day ≤ monthLength d.year d.month

/-- The day number of the first day of 1970. -/
def epoch : Int := 719528

/-- The days since 1970. -/
def dayNumber (d : Date) : Int :=
  daysBeforeYear d.year + daysBeforeMonth d.year d.month + d.day - 1 - epoch

def monthOfDay (year : Int) (month : Nat) : Nat → Nat → Nat × Nat
  | 0, day => (month, day)
  | more + 1, day =>
      if day ≤ monthLength year month then (month, day)
      else monthOfDay year (month + 1) more (day - monthLength year month)

def ofDayNumber (n : Int) : Date :=
  let days := n + epoch
  let guess := days * 400 / 146097
  let year :=
    if days < daysBeforeYear guess then guess - 1
    else if daysBeforeYear (guess + 1) ≤ days then guess + 1
    else guess
  let (month, day) := monthOfDay year 1 11 ((days - daysBeforeYear year).toNat + 1)
  ⟨year, month, day⟩

end Date

/-- A time of day. The second 60 is a leap second. -/
structure Time where
  hour : Nat
  minute : Nat
  second : Nat
  nanosecond : Nat
  deriving DecidableEq, Repr

def Time.isValid (t : Time) : Bool :=
  t.hour ≤ 23 && t.minute ≤ 59 && t.second ≤ 60 && t.nanosecond < 1000000000

def Time.midnight : Time := ⟨0, 0, 0, 0⟩

/-- A point in time: seconds since 1970, and nanoseconds on top of them. From a second on, the
nanoseconds belong to a leap second. -/
structure Instant where
  seconds : Int
  nanoseconds : Nat
  deriving DecidableEq, Repr

namespace Instant

/-- The instant of a date and a time that is ahead of universal time by `offset` seconds. -/
def ofDateTime (d : Date) (t : Time) (offset : Int) : Instant :=
  let leap := t.second = 60
  { seconds :=
      d.dayNumber * 86400 + t.hour * 3600 + t.minute * 60 + (if leap then 59 else t.second) - offset
    nanoseconds := t.nanosecond + if leap then 1000000000 else 0 }

/-- Whole milliseconds since 1970. -/
def milliseconds (t : Instant) : Int :=
  t.seconds * 1000 + t.nanoseconds / 1000000

def ofMilliseconds (ms : Int) : Instant :=
  ⟨ms / 1000, (ms % 1000).toNat * 1000000⟩

def digits (width n : Nat) : String :=
  let ds := toString n
  "".pushn '0' (width - ds.length) ++ ds

/-- A year, with a sign unless it has four digits and none is needed. -/
def yearText (year : Int) : String :=
  if 0 ≤ year ∧ year ≤ 9999 then digits 4 year.toNat
  else (if year < 0 then "-" else "+") ++ digits 4 year.natAbs

def fractionText (nanoseconds : Nat) : String :=
  if nanoseconds = 0 then ""
  else if nanoseconds % 1000000 = 0 then "." ++ digits 3 (nanoseconds / 1000000)
  else if nanoseconds % 1000 = 0 then "." ++ digits 6 (nanoseconds / 1000)
  else "." ++ digits 9 nanoseconds

def text (t : Instant) : String :=
  let d := Date.ofDayNumber (t.seconds / 86400)
  let clock := (t.seconds % 86400).toNat
  let leap := t.nanoseconds / 1000000000
  yearText d.year ++ "-" ++ digits 2 d.month ++ "-" ++ digits 2 d.day ++ "T" ++
    digits 2 (clock / 3600) ++ ":" ++ digits 2 (clock / 60 % 60) ++ ":" ++
    digits 2 (clock % 60 + leap) ++ fractionText (t.nanoseconds % 1000000000) ++ "+00:00"

end Instant

end ChannelAdapter.Calendar
