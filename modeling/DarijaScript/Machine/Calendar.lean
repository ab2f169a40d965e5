import DarijaScript.Decimal.Binary

/-!
# The calendar

Points in time as milliseconds from the beginning of 1970, and their parts in the Gregorian
calendar, which is continued in both directions.
-/

namespace DarijaScript.Calendar

/-- A day of the calendar and a time on it, to the second. -/
structure DateTime where
  year : Int
  month : Nat
  day : Nat
  hour : Nat
  minute : Nat
  second : Nat
  /-- Sunday is zero. -/
  weekday : Nat
  deriving Repr, DecidableEq

/-- The first and the last year with dates. -/
def yearRange : Int × Int := (-262143, 262142)

/-- The year, month and day of a day counted from the beginning of 1970. Years are taken to begin in
March, so that the leap day ends them, and are grouped into eras of four hundred. -/
def civil (days : Int) : Int × Nat × Nat :=
  let shifted := days + 719468
  let era := Int.fdiv shifted 146097
  let dayOfEra := (Int.fmod shifted 146097).toNat
  let yearOfEra := (dayOfEra - dayOfEra / 1460 + dayOfEra / 36524 - dayOfEra / 146096) / 365
  let dayOfYear := dayOfEra - (365 * yearOfEra + yearOfEra / 4 - yearOfEra / 100)
  let shiftedMonth := (5 * dayOfYear + 2) / 153
  let day := dayOfYear - (153 * shiftedMonth + 2) / 5 + 1
  let month := if shiftedMonth < 10 then shiftedMonth + 3 else shiftedMonth - 9
  let year := (yearOfEra : Int) + era * 400
  (if month ≤ 2 then year + 1 else year, month, day)

/-- The date and time of a number of milliseconds, if its year has dates. -/
def ofMilliseconds? (milliseconds : Int) : Option DateTime :=
  let seconds := Int.fdiv milliseconds 1000
  let days := Int.fdiv seconds 86400
  let time := (Int.fmod seconds 86400).toNat
  let (year, month, day) := civil days
  if yearRange.1 ≤ year ∧ year ≤ yearRange.2 then
    some ⟨year, month, day, time / 3600, time / 60 % 60, time % 60,
      (Int.fmod (days + 4) 7).toNat⟩
  else none

/-- The date and time of a number of milliseconds, the fraction of which does not count. -/
def ofFloat? (milliseconds : Float) : Option DateTime :=
  (Decimal.truncatedInt? milliseconds).bind ofMilliseconds?

end DarijaScript.Calendar
