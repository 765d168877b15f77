import WeatherStation.Text.Decimal
import WeatherStation.Time.Instant

/-!
# Written times

The stamps of days, hours and months that keys are made of, and the RFC 3339 text of an instant.
A year has at least four digits, and a sign outside 0 to 9999.
-/

namespace WeatherStation

open Text

/-- A year with at least four digits, and a sign outside 0 to 9999. -/
def yearText (y : Int) : String :=
  if 0 ≤ y ∧ y ≤ 9999 then padded 4 y.natAbs
  else (if y < 0 then "-" else "+") ++ padded 4 y.natAbs

/-- The month of a date, such as `2025-09`. -/
def Date.monthStamp (d : Date) : String :=
  yearText d.civil.year ++ "-" ++ padded 2 d.civil.month

/-- A date, such as `2025-09-11`. -/
def Date.stamp (d : Date) : String := d.monthStamp ++ "-" ++ padded 2 d.civil.day

/-- A week, such as `2025-W37`. Its year has no leading zeros. -/
def IsoWeek.stamp (w : IsoWeek) : String := intText w.year.toInt ++ "-W" ++ padded 2 w.week.toNat

/-- The hour of an instant, such as `2025-09-11T15`. -/
def Instant.hourStamp (t : Instant) : String := t.date.stamp ++ "T" ++ padded 2 t.hour

/-- A fraction of a second in the fewest of no, three, six or nine digits. -/
def fractionText (nanos : Nat) : String :=
  if nanos = 0 then ""
  else if nanos % 1000000 = 0 then "." ++ padded 3 (nanos / 1000000)
  else if nanos % 1000 = 0 then "." ++ padded 6 (nanos / 1000)
  else "." ++ padded 9 nanos

/-- The RFC 3339 text of an instant in UTC. A leap second is the second `60`. -/
def Instant.text (t : Instant) : String :=
  let clock := t.secondOfDay
  let (second, nanos) :=
    if t.isLeap then (clock % 60 + 1, t.nanos - 1000000000) else (clock % 60, t.nanos)
  t.hourStamp ++ ":" ++ padded 2 (clock / 60 % 60) ++ ":" ++ padded 2 second
    ++ fractionText nanos ++ "Z"

end WeatherStation
