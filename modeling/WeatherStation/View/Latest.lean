import WeatherStation.Reading
import WeatherStation.Rain.Resample
import WeatherStation.Settings.Ingest
import WeatherStation.View.Id

/-!
# Latest views

The last reading of a device, with its rain in a window of aligned buckets.
-/

namespace WeatherStation

/-- A version tag, which a store gives to what it stores. -/
abbrev Version := String

/-- The last reading of a device. -/
structure LatestView (α : Type) where
  id : ViewId
  device : String
  time : Instant
  sourceId : String
  values : PerMetric (Option α)
  rain : Option (RainWindow α)
  version : Option Version
  deriving DecidableEq

namespace LatestView

variable {α : Type} [Quantity α]

/-- The rain of a report in the latest view: it starts at the bucket that holds the start of the
    report. -/
def rainOf (settings : IngestSettings) (c : RainCounts α) :
    Except (Failure ResampleError) (RainWindow α) := do
  let width := settings.latestBucket
  let buckets ← resample c c.unitValue width
  match c.start.truncate? width.toNat with
  | some start =>
    let window := RainWindow.dry start width settings.latestSlots.toNat
    return window.merge settings.latestMerge buckets
  | none => throw (.refused .timestampOutOfRange)

/-- The latest view after a reading. -/
def ofReading (settings : IngestSettings) (r : Reading α) :
    Except (Failure ResampleError) (LatestView α) := do
  let rain ← r.rain.mapM (rainOf settings)
  return ⟨ViewId.latest r.device, r.device, r.time, r.sourceId, r.values, rain, none⟩

end LatestView

end WeatherStation
