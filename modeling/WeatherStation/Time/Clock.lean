import WeatherStation.Time.Instant

/-!
# Clocks

A clock that is set by hand. Each look at it moves it on by a fixed step. A clock that would leave
the calendar stops: it keeps its time, whatever happens to it afterwards.

* `Clock.start`: a clock whose step is a length of time.
* `Clock.advance`: a clock that is moved. A number of seconds that is no length of time leaves the
  clock as it was, and does not stop it.
* `Clock.read`: a look at a clock.
-/

namespace WeatherStation

/-- The longest length of time, in seconds: its milliseconds still fit into 64 bits. -/
def maxDurationSeconds : Int := Int64.maxValue.toInt / 1000

/-- The numbers of seconds that are lengths of time. -/
def IsDuration (seconds : Int) : Prop :=
  -maxDurationSeconds ≤ seconds ∧ seconds ≤ maxDurationSeconds

instance (seconds : Int) : Decidable (IsDuration seconds) := inferInstanceAs (Decidable (_ ∧ _))

/-- A clock that is set by hand. -/
structure Clock where
  time : Instant
  /-- How far each look moves the clock, in seconds. -/
  step : Int
  /-- Whether the clock ran out of the calendar. -/
  stopped : Bool
  deriving DecidableEq

namespace Clock

/-- A clock that starts at an instant. -/
def start (time : Instant) (step : Int) : Except Overflow Clock :=
  if IsDuration step then .ok ⟨time, step, false⟩ else .error .duration

/-- A clock that goes on by a length of time, unless it has stopped. -/
def goOn (seconds : Int) (c : Clock) : Except Overflow Unit × Clock :=
  if c.stopped then (.ok (), c)
  else match c.time.shiftSeconds seconds with
    | .ok t => (.ok (), { c with time := t })
    | .error e => (.error e, { c with stopped := true })

/-- Moves a clock by a number of seconds. -/
def advance (seconds : Int) (c : Clock) : Except Overflow Unit × Clock :=
  if IsDuration seconds then c.goOn seconds else (.error .duration, c)

/-- The time of a clock, which then moves on. -/
def read (c : Clock) : Except Overflow Instant × Clock :=
  let (moved, c') := c.goOn c.step
  (moved.map fun _ => c.time, c')

end Clock

end WeatherStation
