import Provision.Time.Timestamp

/-!
# Seconds since 1970

The point in time a number of seconds after the start of 1970, leap seconds not counted. The
calendar repeats every 400 years; within such an era years start in March, so that the leap
day is the last day of its year.
-/

namespace Provision.Timestamp

def eraDays : Int := 146097

def epochDay : Int := 719468

/-- The year that starts in March, and the day in it, of a day of an era. -/
def yearOfDay (day : Nat) : Nat × Nat :=
  let year := (day - day / 1460 + day / 36524 - day / 146096) / 365
  (year, day - (365 * year + year / 4 - year / 100))

def monthOfDay (day : Nat) : Nat × Nat :=
  let m := (5 * day + 2) / 153
  (if m < 10 then m + 3 else m - 9, day - (153 * m + 2) / 5 + 1)

def ofUnix (seconds : Int) (nanos : Nat) : Timestamp :=
  let days := seconds / 86400 + epochDay
  let second := (seconds % 86400).toNat
  let (year, dayOfYear) := yearOfDay (days % eraDays).toNat
  let (month, day) := monthOfDay dayOfYear
  { year := days / eraDays * 400 + year + (if month ≤ 2 then 1 else 0)
    month
    day
    hour := second / 3600
    minute := second / 60 % 60
    second := second % 60
    nanos }

end Provision.Timestamp
