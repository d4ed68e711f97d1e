import Relocation.Text.Basic

/-!
# Time stamps

A moment is given in microseconds since the start of 1970 in universal time, and written as date and time of day in
the calendar of today, continued back. Years are counted from the first of March, so that a leap day is the last day
of its year.
-/

namespace Relocation.Log.Stamp

/-- The days of four hundred years. -/
def daysPerEra : Nat := 146097

/-- The days from the first of March of the year 0 to the start of 1970. -/
def daysBeforeEpoch : Nat := 719468

/-- A day of the calendar. -/
structure Date where
  year : Nat
  month : Nat
  day : Nat
  deriving DecidableEq

/-- The day that comes so many days after the start of 1970. -/
def dateOfDays (days : Nat) : Date :=
  let sinceMarch := days + daysBeforeEpoch
  let dayOfEra := sinceMarch % daysPerEra
  let yearOfEra := (dayOfEra - dayOfEra / 1460 + dayOfEra / 36524 - dayOfEra / 146096) / 365
  let dayOfYear := dayOfEra - (365 * yearOfEra + yearOfEra / 4 - yearOfEra / 100)
  let monthFromMarch := (5 * dayOfYear + 2) / 153
  let day := dayOfYear - (153 * monthFromMarch + 2) / 5 + 1
  let month := if monthFromMarch < 10 then monthFromMarch + 3 else monthFromMarch - 9
  let year := yearOfEra + sinceMarch / daysPerEra * 400
  ⟨if month ≤ 2 then year + 1 else year, month, day⟩

def padded (width n : Nat) : Text :=
  padLeft '0' width (decimal n)

def writeDate (d : Date) : Text :=
  padded 4 d.year ++ '-' :: padded 2 d.month ++ '-' :: padded 2 d.day

/-- The time of day that comes so many seconds after midnight. -/
def writeTime (seconds : Nat) : Text :=
  padded 2 (seconds / 3600) ++ ':' :: padded 2 (seconds % 3600 / 60) ++ ':' :: padded 2 (seconds % 60)

def write (microseconds : Nat) : Text :=
  let seconds := microseconds / 1000000
  writeDate (dateOfDays (seconds / 86400)) ++ 'T' :: writeTime (seconds % 86400)
    ++ '.' :: padded 6 (microseconds % 1000000) ++ ['Z']

example : write 1709164800000000 = "2024-02-29T00:00:00.000000Z".toList := by decide +kernel

end Relocation.Log.Stamp
