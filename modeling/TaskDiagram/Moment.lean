/-!
# Points in time

A moment is counted in nanoseconds since the beginning of 1970, universal time. Dates are those of
the Gregorian calendar, found by counting from a first of March: there the day a leap year adds is
the last one of its year.
-/

namespace TaskDiagram

structure Moment where
  nanoseconds : Nat
  deriving DecidableEq, Repr, Inhabited

structure Date where
  year : Nat
  month : Nat
  day : Nat
  deriving DecidableEq, Repr

namespace Date

/-- Days in 400 years. -/
def cycleDays : Nat := 146097

/-- The date a number of days after the first of January 1970. -/
def ofDays (days : Nat) : Date :=
  let shifted := days + 719468
  let inCycle := shifted % cycleDays
  let yearOfCycle := (inCycle - inCycle / 1460 + inCycle / 36524 - inCycle / 146096) / 365
  let dayOfYear := inCycle - (365 * yearOfCycle + yearOfCycle / 4 - yearOfCycle / 100)
  let monthFromMarch := (5 * dayOfYear + 2) / 153
  let month := if monthFromMarch < 10 then monthFromMarch + 3 else monthFromMarch - 9
  let year := yearOfCycle + shifted / cycleDays * 400
  ⟨if month ≤ 2 then year + 1 else year, month, dayOfYear - (153 * monthFromMarch + 2) / 5 + 1⟩

end Date

/-- Decimal digits with zeros in front up to a width. -/
def padded (width n : Nat) : String :=
  let digits := Nat.toDigits 10 n
  String.ofList (List.replicate (width - digits.length) '0' ++ digits)

def Date.text (d : Date) : String :=
  padded 4 d.year ++ "-" ++ padded 2 d.month ++ "-" ++ padded 2 d.day

namespace Moment

/-- Nanoseconds in a second. -/
def secondLength : Nat := 1000000000

def seconds (m : Moment) : Nat := m.nanoseconds / secondLength

def date (m : Moment) : Date := .ofDays (m.seconds / 86400)

def milliseconds (m : Moment) : Nat := m.nanoseconds / 1000000

/-- Hours and minutes of the day. -/
def clock (m : Moment) : String :=
  let minutes := m.seconds / 60 % 1440
  padded 2 (minutes / 60) ++ ":" ++ padded 2 (minutes % 60)

/-- Date and time to the minute, as people are shown it. -/
def minuteText (m : Moment) : String := m.date.text ++ " " ++ m.clock

/-- Date and time to the nanosecond, as documents have it. -/
def text (m : Moment) : String :=
  m.date.text ++ "T" ++ m.clock ++ ":" ++ padded 2 (m.seconds % 60) ++ "." ++
    padded 9 (m.nanoseconds % secondLength) ++ "Z"

end Moment

example : (Moment.mk 1735689600000000000).minuteText = "2025-01-01 00:00" := by decide +kernel

end TaskDiagram
