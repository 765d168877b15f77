import WeatherStation.Reading
import WeatherStation.Rain.Resample
import WeatherStation.Revision
import WeatherStation.Settings.Ingest
import WeatherStation.View.Latest

/-!
# Window views

The readings of one device in one hour or one day: a tally for each metric, the rain, and the names
of the deliveries that were folded in. A daily view also keeps the tallies of its hours. A sealed
view takes no more readings.

* `WindowView.fold`: folds a reading in. Rain counts wherever it fell, metrics only in the window
  that contains the instant of the reading.
* `DailyView.close`: closes every tally of a daily view.
-/

namespace WeatherStation

/-- The width of a window. -/
inductive Granularity where
  | hourly
  | daily
  deriving DecidableEq

/-- Tallies by hour of the day. -/
abbrev HourTallies (α : Type) := SortedMap UInt32 (Tally α)

namespace Granularity

/-- The name of a granularity. -/
def name : Granularity → String
  | hourly => "hourly"
  | daily => "daily"

/-- The width of a window in seconds. -/
def seconds : Granularity → Nat
  | hourly => 3600
  | daily => 86400

/-- The width of the rain buckets in a window. -/
def bucket (settings : IngestSettings) : Granularity → UInt32
  | hourly => settings.hourlyBucket
  | daily => settings.dailyBucket

/-- The number of rain buckets in a window. -/
def slots (settings : IngestSettings) : Granularity → Nat
  | hourly => settings.hourlySlots
  | daily => settings.dailySlots

/-- The start of the window that contains an instant. -/
def start (g : Granularity) (t : Instant) : Except ResampleError Instant :=
  match t.truncate? g.seconds with
  | some s => .ok s
  | none => .error .timestampOutOfRange

/-- The id of the window that starts at an instant. -/
def id (device : String) (start : Instant) : Granularity → ViewId
  | hourly => ViewId.hourly device start
  | daily => ViewId.daily device start.date

/-- What a window keeps beside its tallies: a day has the tallies of its hours. -/
abbrev Detail (α : Type) : Granularity → Type
  | hourly => Unit
  | daily => PerMetric (Option (HourTallies α))

instance {α : Type} [DecidableEq α] (g : Granularity) : DecidableEq (g.Detail α) :=
  match g with
  | hourly => inferInstanceAs (DecidableEq Unit)
  | daily => inferInstanceAs (DecidableEq (PerMetric (Option (HourTallies α))))

/-- The detail of a window without readings. -/
def noDetail (α : Type) : (g : Granularity) → g.Detail α
  | hourly => ()
  | daily => .const none

end Granularity

/-- The readings of one device in one window. -/
structure WindowView (g : Granularity) (α : Type) where
  id : ViewId
  device : String
  start : Instant
  tallies : PerMetric (Option (Tally α))
  detail : g.Detail α
  rain : Option (RainWindow α)
  /-- The names of the deliveries that were folded in. -/
  applied : SortedSet String
  isSealed : Bool
  version : Option Version
  deriving DecidableEq

/-- The readings of one device in one hour. -/
abbrev HourlyView := WindowView .hourly

/-- The readings of one device in one day. -/
abbrev DailyView := WindowView .daily

namespace WindowView

variable {g : Granularity} {α : Type}

/-- The window of a device that starts at an instant, without readings. -/
def empty (device : String) (start : Instant) : WindowView g α :=
  ⟨g.id device start, device, start, .const none, g.noDetail α, none, SortedMap.empty, false, none⟩

/-- Whether an instant lies within the window. -/
def contains (w : WindowView g α) (t : Instant) : Except Overflow Bool :=
  if t < w.start then .ok false
  else do return t < (← w.start.shiftSeconds g.seconds)

variable [Quantity α]

/-- Adds a value to a tally, or starts one with it. -/
def addValue (x : α) : Option (Tally α) → Except (Failure TallyError) (Tally α)
  | some t => t.add x
  | none => .ok (.single x)

/-- Adds a value of a metric to the tally of its hour, in a view that keeps one. -/
def addDetail (m : Metric) (hour : UInt32) (x : α) :
    (g : Granularity) → g.Detail α → Except (Failure TallyError) (g.Detail α)
  | .hourly, d => .ok d
  | .daily, d => do
    let hours : HourTallies α := (d.get m).getD SortedMap.empty
    return d.set m (some (hours.insert hour (← addValue x (hours.find? hour))))

/-- Adds the value of a metric at an hour of the day. -/
def addMetric (hour : UInt32) (w : WindowView g α) (v : Metric × α) :
    Except (Failure TallyError) (WindowView g α) := do
  let tally ← addValue v.2 (w.tallies.get v.1)
  let detail ← addDetail v.1 hour v.2 g w.detail
  return { w with tallies := w.tallies.set v.1 (some tally), detail := detail }

/-- Folds resampled rain in. The first rain makes the window keep rain. -/
def addRain (settings : IngestSettings) (w : WindowView g α) (buckets : Buckets α) :
    WindowView g α :=
  let rain := w.rain.getD (.dry w.start (g.bucket settings) (g.slots settings))
  { w with rain := some (rain.merge settings.windowMerge buckets) }

/-- Folds a reading in, together with its rain in buckets of the right width. -/
def fold (settings : IngestSettings) (r : Reading α) (buckets : Option (Buckets α))
    (w : WindowView g α) : Except (Failure TallyError) (WindowView g α) := do
  let rained := (buckets.map (addRain settings w)).getD w
  let inside ← (w.contains r.time).mapError .overflow
  let hour := UInt32.ofNat r.time.hour
  let folded ← if inside then r.carried.foldlM (addMetric hour) rained else .ok rained
  return { folded with applied := folded.applied.add r.sourceId }

end WindowView

namespace DailyView

variable {α : Type} [Quantity α]

/-- Closes the tally of a metric, if there is one. -/
def closeTally (m : Metric) : Revision TallyError (DailyView α) Unit := do
  if let some t := (← get).tallies.get m then
    let closed ← t.close
    modify fun d => { d with tallies := d.tallies.set m (some closed) }

/-- The tallies of the hours of a metric. -/
def hours (d : DailyView α) (m : Metric) : HourTallies α :=
  (PerMetric.get d.detail m).getD SortedMap.empty

/-- Closes the tally of a metric in one hour. -/
def closeHour (m : Metric) (hour : UInt32) : Revision TallyError (DailyView α) Unit := do
  let hours := (← get).hours m
  if let some t := hours.find? hour then
    let closed ← t.close
    modify fun d => { d with detail := PerMetric.set d.detail m (some (hours.insert hour closed)) }

/-- Closes every tally of a day, those of its hours last, and marks the day sealed. -/
def close : Revision TallyError (DailyView α) Unit := do
  if (← get).isSealed then throw .alreadyClosed
  Metric.all.forM closeTally
  Metric.all.forM fun m => do ((← get).hours m).keys.forM (closeHour m)
  modify fun d => { d with isSealed := true }

/-- The summary of the rain of a day. A day without rain has the summary of zeros. -/
def rainSummary (d : DailyView α) : Summary α := (d.rain.bind RainWindow.stats).getD .zero

end DailyView

end WeatherStation
