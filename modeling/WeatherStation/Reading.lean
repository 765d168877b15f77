import WeatherStation.Metric
import WeatherStation.Rain.Counts
import WeatherStation.Time.Format

/-!
# Readings

One report of one station: scalar metrics at an instant, and perhaps a rain report.

* `Reading.sourceId`: what a repeated delivery of a reading is recognised by.
* `Reading.brokenRules`: the rules that an accepted reading has to satisfy, as far as it does not.
-/

namespace WeatherStation

/-- A report of a station. -/
structure Reading (α : Type) where
  device : String
  /-- The name that the sender gave to this delivery. -/
  source : Option String
  time : Instant
  values : PerMetric (Option α)
  rain : Option (RainCounts α)
  deriving DecidableEq

/-- A rule that a reading can break. -/
inductive ReadingCheck where
  | emptyDevice
  | rain (check : RainCheck)
  deriving DecidableEq

namespace ReadingCheck

/-- The member of a reading that a rule is about, and the wording of the broken rule. -/
def line : ReadingCheck → String
  | .emptyDevice => "device_id: Device id cannot be empty"
  | .rain c => "rain." ++ c.field ++ ": " ++ c.message

end ReadingCheck

namespace Reading

variable {α : Type}

/-- The name of a delivery: the sender's, or else the device and the instant of the reading. -/
def sourceId (r : Reading α) : String := r.source.getD (r.device ++ "@" ++ r.time.text)

/-- The metrics that the reading carries, in order. -/
def carried (r : Reading α) : List (Metric × α) :=
  r.values.toList.filterMap fun v => v.2.map (v.1, ·)

/-- The rules that the reading breaks. -/
def brokenRules [Quantity α] (r : Reading α) : List ReadingCheck :=
  (if r.device = "" then [.emptyDevice] else []) ++
  ((r.rain.map RainCounts.brokenRules).getD []).map .rain

end Reading

end WeatherStation
