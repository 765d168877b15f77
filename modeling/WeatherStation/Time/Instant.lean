import WeatherStation.Time.Calendar

/-!
# Instants

Points of time in UTC with nanoseconds, including leap seconds: the sixty-first second of a minute
is kept as a second second `59`, with nanoseconds from `10^9` on.

* `Instant.shift?`: moves an instant; a step that starts in a leap second leaves it behind.
* `Instant.since`: elapsed nanoseconds. A leap second counts only between instants of one day.
* `Instant.truncate?`: rounds down to a multiple of a width since 1970. It works on signed 64-bit
  nanoseconds, hence only between the years 1677 and 2262.
-/

namespace WeatherStation

/-- The first second of the calendar, counted from 1970-01-01T00:00:00Z. -/
def firstSecond : Int := firstDay * 86400

/-- The last second of the calendar. -/
def lastSecond : Int := lastDay * 86400 + 86399

/-- A point of time: whole seconds since 1970-01-01T00:00:00Z and nanoseconds within the second,
    which pass `10^9` within a leap second. -/
structure Instant where
  seconds : Int
  nanos : Nat
  first_le : firstSecond ≤ seconds
  le_last : seconds ≤ lastSecond
  nanos_lt : nanos < 2000000000
  leap_ends_minute : 1000000000 ≤ nanos → seconds % 60 = 59
  deriving DecidableEq

namespace Instant

/-- The instant with the given parts, if the calendar has it. -/
def ofParts? (seconds : Int) (nanos : Nat) : Option Instant :=
  if h : firstSecond ≤ seconds ∧ seconds ≤ lastSecond ∧ nanos < 2000000000
      ∧ (1000000000 ≤ nanos → seconds % 60 = 59) then
    some ⟨seconds, nanos, h.1, h.2.1, h.2.2.1, h.2.2.2⟩
  else none

/-- The start of a second since 1970, if the calendar reaches so far. -/
def ofSeconds? (seconds : Int) : Option Instant := ofParts? seconds 0

/-- Seconds and nanoseconds as one number, which orders the instants. -/
def rank (t : Instant) : Int := t.seconds * 2000000000 + t.nanos

theorem rank_inj {a b : Instant} (h : a.rank = b.rank) : a = b := by
  obtain ⟨s, n, _, _, hn, _⟩ := a
  obtain ⟨s', n', _, _, hn', _⟩ := b
  simp only [rank] at h
  have : s = s' := by omega
  have : n = n' := by omega
  subst_vars
  rfl

instance : LT Instant := ⟨fun a b => a.rank < b.rank⟩
instance : LE Instant := ⟨fun a b => a.rank ≤ b.rank⟩
instance (a b : Instant) : Decidable (a < b) := inferInstanceAs (Decidable (a.rank < b.rank))
instance (a b : Instant) : Decidable (a ≤ b) := inferInstanceAs (Decidable (a.rank ≤ b.rank))

/-- Instants come in the order of time. -/
instance : Key Instant := Key.pullback rank rank_inj

/-- Whether the instant lies within a leap second. -/
def isLeap (t : Instant) : Bool := 1000000000 ≤ t.nanos

/-- The UTC date. -/
def date (t : Instant) : Date :=
  ⟨t.seconds / 86400,
    by have := t.first_le; unfold firstSecond at this; omega,
    by have := t.le_last; unfold lastSecond at this; omega⟩

/-- Seconds since UTC midnight; a leap second belongs to the second before it. -/
def secondOfDay (t : Instant) : Nat := (t.seconds % 86400).toNat

/-- The UTC hour, 0 to 23. -/
def hour (t : Instant) : Nat := t.secondOfDay / 3600

theorem secondOfDay_lt (t : Instant) : t.secondOfDay < 86400 := by
  unfold secondOfDay
  omega

theorem hour_lt (t : Instant) : t.hour < 24 := by
  have := t.secondOfDay_lt
  unfold hour
  omega

/-- The parts of an instant moved by a number of nanoseconds. A move out of a leap second starts
    from the end of that second when it goes back and from its start when it goes forward; a move
    of less than a second that does not reach the end of the leap second stays within it. -/
def shiftedParts (t : Instant) (offset : Int) : Int × Int :=
  let seconds := offset.tdiv 1000000000
  let nanos := offset.tmod 1000000000
  let plain (s n : Int) : Int × Int :=
    let total := n + nanos
    (s + seconds + total / 1000000000, total % 1000000000)
  if t.isLeap then
    if seconds > 0 ∨ (nanos > 0 ∧ (t.nanos : Int) + nanos ≥ 2000000000) then
      plain t.seconds (t.nanos - 1000000000)
    else if seconds < 0 then plain (t.seconds + 1) (t.nanos - 1000000000)
    else (t.seconds, t.nanos + nanos)
  else plain t.seconds t.nanos

/-- The instant a number of nanoseconds later (earlier, if negative). -/
def shift (t : Instant) (offset : Int) : Except Overflow Instant :=
  let (seconds, nanos) := t.shiftedParts offset
  match ofParts? seconds nanos.toNat with
  | some t => .ok t
  | none => .error .calendar

/-- The instant a number of whole seconds later. -/
def shiftSeconds (t : Instant) (seconds : Int) : Except Overflow Instant :=
  t.shift (seconds * 1000000000)

/-- The nanoseconds from `start` to `t`: days and times of day are subtracted apart, and a leap
    second counts if the time of day passes it. -/
def since (t start : Instant) : Int :=
  let days := t.seconds / 86400 - start.seconds / 86400
  let seconds := (t.secondOfDay : Int) - start.secondOfDay
  let leap : Int :=
    if t.secondOfDay > start.secondOfDay ∧ start.isLeap then 1
    else if t.secondOfDay < start.secondOfDay ∧ t.isLeap then -1
    else 0
  (days * 86400 + seconds + leap) * 1000000000 + ((t.nanos : Int) - start.nanos)

/-- Nanoseconds since 1970, if 64 bits hold them. -/
def nanoseconds? (t : Instant) : Option Int :=
  let total := t.seconds * 1000000000 + t.nanos
  if -9223372036854775808 ≤ total ∧ total ≤ 9223372036854775807 then some total else none

/-- The latest multiple of `width` seconds since 1970 that is not after `t`. There is none for a
    width of zero, nor where 64 bits do not hold the nanoseconds. -/
def truncate? (t : Instant) (width : Nat) : Option Instant := do
  guard (width ≠ 0)
  let total ← t.nanoseconds?
  (t.shift (-(total % ((width : Int) * 1000000000)))).toOption

end Instant

end WeatherStation
