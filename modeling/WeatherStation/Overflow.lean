/-!
# Overflow

Computations whose numbers are bounded, and so can fail although nothing refuses their input.

* `Overflow`: the numbers that can leave their range.
* `Failure`: a refusal or an overflow.
-/

namespace WeatherStation

/-- A result that leaves the range of its type: the computation cannot go on. -/
inductive Overflow where
  /-- A point of time outside the calendar. -/
  | calendar
  /-- A year outside 32 bits. -/
  | year
  /-- A length of time whose milliseconds do not fit into 64 bits. -/
  | duration
  /-- More slots than a 32-bit number counts. -/
  | slotCount
  /-- More values than a 64-bit number counts. -/
  | valueCount
  deriving DecidableEq

/-- How an operation with refusals of type `ε` can fail. -/
inductive Failure (ε : Type) where
  /-- The operation refused its input. -/
  | refused (error : ε)
  /-- An intermediate result left its range. -/
  | overflow (overflow : Overflow)
  deriving DecidableEq

/-- Renames the refusals of a failure. -/
def Failure.map {ε ε' : Type} (f : ε → ε') : Failure ε → Failure ε'
  | .refused e => .refused (f e)
  | .overflow o => .overflow o

end WeatherStation
