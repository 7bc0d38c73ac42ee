/-!
# Calendar dates

A moment is a number of seconds since the start of 1970 in universal time.
Dates follow the Gregorian calendar in both directions, with a year zero.
A leap second is told by its nanoseconds, which go on from those of the
last second of its minute.
-/

namespace Resemblance.Calendar

structure Moment where
  year : Int
  month : Nat
  day : Nat
  hour : Nat
  minute : Nat
  second : Nat
  deriving DecidableEq, Repr

/-- Year, month and day of a day counted from the start of 1970.  Years are
counted from March on, so that a leap day is the last day of its year, and in
eras of four hundred years. -/
def dateOfDay (day : Int) : Int × Nat × Nat :=
  let shifted := day + 719468
  let era := shifted / 146097
  let dayOfEra := (shifted % 146097).toNat
  let yearOfEra :=
    (dayOfEra - dayOfEra / 1460 + dayOfEra / 36524 - dayOfEra / 146096) / 365
  let dayOfYear :=
    dayOfEra - (365 * yearOfEra + yearOfEra / 4 - yearOfEra / 100)
  let monthFromMarch := (5 * dayOfYear + 2) / 153
  let day := dayOfYear - (153 * monthFromMarch + 2) / 5 + 1
  let month :=
    if monthFromMarch < 10 then monthFromMarch + 3 else monthFromMarch - 9
  let year := 400 * era + yearOfEra
  (if month ≤ 2 then year + 1 else year, month, day)

def Moment.ofSeconds (seconds : Int) : Moment :=
  let (year, month, day) := dateOfDay (seconds / 86400)
  let ofDay := (seconds % 86400).toNat
  { year, month, day
    hour := ofDay / 3600
    minute := ofDay / 60 % 60
    second := ofDay % 60 }

def nanosInSecond : Nat := 1000000000

/-- The moment so many nanoseconds into a second, of which fractions are
dropped.  Only the last second of a minute may last longer, by the leap second
behind it. -/
def Moment.ofNanos? (seconds : Int) (nanos : Nat) : Option Moment :=
  let m := Moment.ofSeconds seconds
  if nanos < nanosInSecond then some m
  else if m.second = 59 ∧ nanos < 2 * nanosInSecond then
    some { m with second := 60 }
  else none

def padded (width n : Nat) : List Char := (Nat.toDigits 10 n).leftpad width '0'

/-- Four digits, and a sign for a year that is not one of them. -/
def yearDigits (year : Int) : List Char :=
  if 0 ≤ year ∧ year ≤ 9999 then padded 4 year.toNat
  else (if year < 0 then '-' else '+') :: padded 4 year.natAbs

def Moment.date (m : Moment) : List Char :=
  yearDigits m.year ++ '-' :: padded 2 m.month ++ '-' :: padded 2 m.day

def Moment.time (m : Moment) : List Char :=
  padded 2 m.hour ++ ':' :: padded 2 m.minute ++ ':' :: padded 2 m.second

/-- Date and time as machines exchange them. -/
def Moment.timestamp (m : Moment) : String :=
  String.ofList (m.date ++ 'T' :: m.time ++ ['Z'])

/-- Date and time as people read them. -/
def Moment.readable (m : Moment) : String :=
  String.ofList (m.date ++ ' ' :: m.time) ++ " UTC"

end Resemblance.Calendar
