import WeatherStation.Overflow
import WeatherStation.SortedMap

/-!
# The calendar

Dates of the proleptic Gregorian calendar, from 1 January −262143 to 31 December 262142, numbered
by days since 1 January 1970, and the ISO weeks that they fall into.

* `yearOf_spec`: the year of a day is the one whose days enclose it.
* `Date.ofCivil?`: the date of a year, month and day, if there is such a date.
* `IsoWeek.of`: the ISO week of a date, which belongs to the year of its Thursday.
-/

namespace WeatherStation

/-! ## Years -/

/-- Every fourth year is a leap year, except for the centuries that 400 does not divide. -/
def isLeapYear (y : Int) : Bool := y % 4 == 0 && (y % 100 != 0 || y % 400 == 0)

/-- The number of 1 January of a year, counted from 1 January 1970. -/
def yearStart (y : Int) : Int :=
  365 * (y - 1) + (y - 1) / 4 - (y - 1) / 100 + (y - 1) / 400 - 719162

/-- The year that the mean length of a year assigns to a day. -/
def meanYearOf (day : Int) : Int := 400 * (day + 719162) / 146097 + 1

/-- The mean length of a year misses the year of a day by at most one. -/
theorem meanYearOf_near (day : Int) :
    yearStart (meanYearOf day - 1) ≤ day ∧ day < yearStart (meanYearOf day + 2) := by
  simp only [meanYearOf, yearStart]
  omega

/-- The year that a day falls into. -/
def yearOf (day : Int) : Int :=
  if day < yearStart (meanYearOf day) then meanYearOf day - 1
  else if yearStart (meanYearOf day + 1) ≤ day then meanYearOf day + 1
  else meanYearOf day

theorem yearOf_spec (day : Int) :
    yearStart (yearOf day) ≤ day ∧ day < yearStart (yearOf day + 1) := by
  have h := meanYearOf_near day
  unfold yearOf
  split
  · exact ⟨h.1, by simpa using by assumption⟩
  · split
    · exact ⟨by assumption, by rw [Int.add_assoc]; exact h.2⟩
    · exact ⟨by omega, by omega⟩

/-- The lengths of the twelve months. -/
def monthLengths (leap : Bool) : List Nat :=
  [31, if leap then 29 else 28, 31, 30, 31, 30, 31, 31, 30, 31, 30, 31]

/-! ## Dates -/

/-- The first and the last day of the calendar. -/
def firstDay : Int := -96465292

@[inherit_doc firstDay] def lastDay : Int := 95026236

theorem firstDay_eq : firstDay = yearStart (-262143) := by decide

theorem lastDay_eq : lastDay = yearStart 262143 - 1 := by decide

/-- A date, as the number of days since 1 January 1970. -/
structure Date where
  day : Int
  first_le : firstDay ≤ day
  le_last : day ≤ lastDay
  deriving DecidableEq

/-- A date in years, months and days of the month, all counted from 1. -/
structure CivilDate where
  year : Int
  month : Nat
  day : Nat
  deriving DecidableEq

/-- Month and day of the month of the `n`-th day (from 0) of a stretch of months, the first of
    which has the number `month`. -/
def monthAndDay (month : Nat) : List Nat → Nat → Nat × Nat
  | [], n => (month, n + 1)
  | [_], n => (month, n + 1)
  | len :: rest, n => if n < len then (month, n + 1) else monthAndDay (month + 1) rest (n - len)

namespace Date

/-- The date with a day number, if the calendar reaches so far. -/
def ofDay? (day : Int) : Option Date :=
  if h : firstDay ≤ day ∧ day ≤ lastDay then some ⟨day, h.1, h.2⟩ else none

/-- The day of the year, counted from 0. -/
def ordinal (d : Date) : Nat := (d.day - yearStart (yearOf d.day)).toNat

/-- Year, month and day of the month. -/
def civil (d : Date) : CivilDate :=
  let year := yearOf d.day
  let (month, day) := monthAndDay 1 (monthLengths (isLeapYear year)) d.ordinal
  ⟨year, month, day⟩

/-- The date of a year, month and day of the month, if there is such a date. -/
def ofCivil? (year : Int) (month day : Nat) : Option Date := do
  guard (1 ≤ month)
  let lengths := monthLengths (isLeapYear year)
  let length ← lengths[month - 1]?
  guard (1 ≤ day ∧ day ≤ length)
  let before : Nat := (lengths.take (month - 1)).foldl (· + ·) 0
  ofDay? (yearStart year + before + (day - 1))

/-- The number of the weekday: 0 for Monday to 6 for Sunday. -/
def weekday (d : Date) : Nat := ((d.day + 3) % 7).toNat

theorem weekday_lt (d : Date) : d.weekday < 7 := by
  unfold weekday
  omega

end Date

/-! ## ISO weeks -/

/-- A week from Monday to Sunday. It belongs to the year of its Thursday. -/
structure IsoWeek where
  year : Int32
  week : UInt32
  deriving DecidableEq

namespace IsoWeek

/-- Weeks come in the order of their years, then of their numbers. -/
instance : Key IsoWeek :=
  Key.pullback (fun w => (w.year.toInt, w.week)) fun {a b} h => by
    obtain ⟨y, w⟩ := a
    obtain ⟨y', w'⟩ := b
    simp only [Prod.mk.injEq, Int32.toInt_inj] at h
    rw [h.1, h.2]

/-- The ISO week of a date. -/
def of (d : Date) : IsoWeek :=
  let thursday := d.day - d.weekday + 3
  let year := yearOf thursday
  ⟨Int32.ofInt year, UInt32.ofNat (((thursday - yearStart year) / 7).toNat + 1)⟩

/-- The Monday of a week, as a day number. The first week of a year holds 4 January. -/
def monday (w : IsoWeek) : Int :=
  let fourth := yearStart w.year.toInt + 3
  fourth - (fourth + 3) % 7 + 7 * ((w.week.toNat : Int) - 1)

/-- The week of a year with a number, if the year has so many weeks and the week begins within
    the calendar. The year in which the week begins has to be a 32-bit number, too. -/
def ofParts (year : Int32) (week : UInt32) : Except Overflow (Option IsoWeek) :=
  let w : IsoWeek := ⟨year, week⟩
  let thursday := w.monday + 3
  if 1 ≤ week.toNat ∧ yearStart year.toInt ≤ thursday ∧ thursday < yearStart (year.toInt + 1) then
    if yearOf w.monday < Int32.minValue.toInt then .error .year
    else .ok (if firstDay ≤ w.monday ∧ w.monday ≤ lastDay then some w else none)
  else .ok none

end IsoWeek

end WeatherStation
