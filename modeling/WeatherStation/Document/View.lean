import WeatherStation.Document.Rain
import WeatherStation.Document.Tally
import WeatherStation.View.Basic

/-!
# Documents of views

The document of each kind of view, and the document of any view: an object whose only member is
named for the kind.
-/

namespace WeatherStation

open Document

variable {α : Type}

/-- The fields that begin the document of every view. -/
def ViewId.fields : List Field := [⟨"key", false⟩, ⟨"date_id", false⟩, ⟨"device_id", false⟩]

/-- The members that begin the document of every view. -/
def ViewId.members (id : ViewId) (device : String) : List (String × Json α) :=
  [("key", .str id.key), ("date_id", .str id.dateId), ("device_id", .str device)]

/-- The document of a week. -/
def IsoWeek.encode (w : IsoWeek) : Json α :=
  .object [("year", encodeInt32 w.year), ("week", encodeUInt32 w.week)]

@[inherit_doc IsoWeek.encode] def IsoWeek.decode? (v : Json α) : Option IsoWeek := do
  match ← Record.read? [⟨"year", false⟩, ⟨"week", false⟩] v with
  | [year, week] => return ⟨← required decodeInt32? year, ← required decodeUInt32? week⟩
  | _ => none

/-- The name of a granularity. -/
def Granularity.decode? (v : Json α) : Option Granularity := do
  let name ← name? v
  [Granularity.hourly, Granularity.daily].find? fun g => g.name == name

/-- The name of a metric. -/
def Metric.decode? (v : Json α) : Option Metric := (name? v).bind Metric.ofName?

variable [Quantity α]

/-! ## Latest views -/

namespace LatestView

/-- The fields of a latest view. -/
def fields : List Field :=
  ViewId.fields ++
  [⟨"last_event_at", false⟩, ⟨"last_source_id", false⟩, ⟨"temperature", false⟩,
   ⟨"humidity", false⟩, ⟨"pressure", false⟩, ⟨"rain", false⟩, ⟨"version", true⟩]

/-- The document of a latest view. -/
def encode (v : LatestView α) : Json α :=
  .object <|
    v.id.members v.device
    ++ [("last_event_at", encodeInstant v.time), ("last_source_id", .str v.sourceId),
        ("temperature", nullable encodeReal v.values.temperature),
        ("humidity", nullable encodeReal v.values.humidity),
        ("pressure", nullable encodeReal v.values.pressure),
        ("rain", nullable RainWindow.encode v.rain)]
    ++ member? "version" .str v.version

@[inherit_doc encode] def decode? (v : Json α) : Option (LatestView α) := do
  match ← Record.read? fields v with
  | [key, dateId, device, time, source, temperature, humidity, pressure, rain, version] =>
    return {
      id := ⟨← required Json.str? key, ← required Json.str? dateId⟩
      device := ← required Json.str? device
      time := ← required decodeInstant? time
      sourceId := ← required Json.str? source
      values := ⟨← optional decodeReal? temperature, ← optional decodeReal? humidity,
        ← optional decodeReal? pressure⟩
      rain := ← optional RainWindow.decode? rain
      version := ← optional Json.str? version }
  | _ => none

end LatestView

/-! ## Hours and days -/

/-- The document of tallies by hour of the day. -/
def HourTallies.encode (hours : HourTallies α) : Json α := encodeIndexed Tally.encode hours

@[inherit_doc HourTallies.encode] def HourTallies.decode? (v : Json α) : Option (HourTallies α) :=
  decodeIndexed? Tally.decode? v

/-- The fields that end the document of an hour or a day. -/
def windowTail : List Field :=
  [⟨"rain", false⟩, ⟨"applied_sources", true⟩, ⟨"is_finalized", true⟩, ⟨"version", true⟩]

/-- The members that end the document of an hour or a day. -/
def WindowView.tail {g : Granularity} (w : WindowView g α) : List (String × Json α) :=
  [("rain", nullable RainWindow.encode w.rain), ("applied_sources", encodeSet w.applied),
   ("is_finalized", .bool w.isSealed)]
  ++ member? "version" .str w.version

namespace HourlyView

/-- The fields of an hour. -/
def fields : List Field :=
  ViewId.fields ++ [⟨"hour_start", false⟩, ⟨"metrics", true⟩] ++ windowTail

/-- The document of an hour. -/
def encode (w : HourlyView α) : Json α :=
  .object <|
    w.id.members w.device
    ++ [("hour_start", encodeInstant w.start), ("metrics", encodePerMetric Tally.encode w.tallies)]
    ++ w.tail

@[inherit_doc encode] def decode? (v : Json α) : Option (HourlyView α) := do
  match ← Record.read? fields v with
  | [key, dateId, device, start, metrics, rain, applied, isSealed, version] =>
    return {
      id := ⟨← required Json.str? key, ← required Json.str? dateId⟩
      device := ← required Json.str? device
      start := ← required decodeInstant? start
      tallies := ← defaulted (.const none) (decodePerMetric? Tally.decode?) metrics
      detail := ()
      rain := ← optional RainWindow.decode? rain
      applied := ← defaulted SortedMap.empty decodeSet? applied
      isSealed := ← defaulted false Json.bool? isSealed
      version := ← optional Json.str? version }
  | _ => none

end HourlyView

namespace DailyView

/-- The fields of a day. -/
def fields : List Field :=
  ViewId.fields ++ [⟨"day_start", false⟩, ⟨"metrics", true⟩, ⟨"hourly_metrics", true⟩] ++ windowTail

/-- The document of a day. -/
def encode (w : DailyView α) : Json α :=
  .object <|
    w.id.members w.device
    ++ [("day_start", encodeInstant w.start), ("metrics", encodePerMetric Tally.encode w.tallies),
        ("hourly_metrics", encodePerMetric HourTallies.encode w.detail)]
    ++ w.tail

@[inherit_doc encode] def decode? (v : Json α) : Option (DailyView α) := do
  match ← Record.read? fields v with
  | [key, dateId, device, start, metrics, hours, rain, applied, isSealed, version] =>
    return {
      id := ⟨← required Json.str? key, ← required Json.str? dateId⟩
      device := ← required Json.str? device
      start := ← required decodeInstant? start
      tallies := ← defaulted (.const none) (decodePerMetric? Tally.decode?) metrics
      detail := ← defaulted (.const none) (decodePerMetric? HourTallies.decode?) hours
      rain := ← optional RainWindow.decode? rain
      applied := ← defaulted SortedMap.empty decodeSet? applied
      isSealed := ← defaulted false Json.bool? isSealed
      version := ← optional Json.str? version }
  | _ => none

end DailyView

/-! ## Weeks -/

namespace WeeklySeries

/-- The document of a weekly series. -/
def encode (s : WeeklySeries α) : Json α :=
  .object
    [("days", encodeList (nullable Summary.encode) s.days.toList),
     ("summary", nullable Summary.encode s.summary)]

/-- Seven values from a list of seven. -/
def seven? {β : Type} (l : List β) : Option (Vector β 7) :=
  if h : l.length = 7 then some ⟨l.toArray, by simpa using h⟩ else none

@[inherit_doc encode] def decode? (v : Json α) : Option (WeeklySeries α) := do
  match ← Record.read? [⟨"days", false⟩, ⟨"summary", false⟩] v with
  | [days, summary] =>
    let day (v : Json α) : Option (Option (Summary α)) := optional Summary.decode? (some v)
    return ⟨← (← required (decodeList? day) days) |> seven?, ← optional Summary.decode? summary⟩
  | _ => none

end WeeklySeries

namespace WeeklyView

/-- The fields of a week. -/
def fields : List Field :=
  ViewId.fields ++
  [⟨"week", false⟩, ⟨"temperature", true⟩, ⟨"humidity", true⟩, ⟨"pressure", true⟩, ⟨"rain", true⟩,
   ⟨"version", true⟩]

/-- The document of a week. -/
def encode (w : WeeklyView α) : Json α :=
  .object <|
    w.id.members w.device
    ++ [("week", w.week.encode), ("temperature", w.metrics.temperature.encode),
        ("humidity", w.metrics.humidity.encode), ("pressure", w.metrics.pressure.encode),
        ("rain", w.rain.encode)]
    ++ member? "version" .str w.version

@[inherit_doc encode] def decode? (v : Json α) : Option (WeeklyView α) := do
  match ← Record.read? fields v with
  | [key, dateId, device, week, temperature, humidity, pressure, rain, version] =>
    let series := defaulted WeeklySeries.empty WeeklySeries.decode?
    return {
      id := ⟨← required Json.str? key, ← required Json.str? dateId⟩
      device := ← required Json.str? device
      week := ← required IsoWeek.decode? week
      metrics := ⟨← series temperature, ← series humidity, ← series pressure⟩
      rain := ← series rain
      version := ← optional Json.str? version }
  | _ => none

end WeeklyView

/-! ## Any view -/

namespace View

/-- The document of a view without the name of its kind. -/
def content : View α → Json α
  | latest v => v.encode
  | hourly v => HourlyView.encode v
  | daily v => DailyView.encode v
  | weekly v => v.encode

/-- The document of a view. -/
def encode (v : View α) : Json α := .object [(v.kind.name, v.content)]

@[inherit_doc encode] def decode? : Json α → Option (View α)
  | .obj [(kind, v)] =>
    let kind := kind.text
    if kind = ViewKind.latest.name then (LatestView.decode? v).map latest
    else if kind = ViewKind.hourly.name then (HourlyView.decode? v).map hourly
    else if kind = ViewKind.daily.name then (DailyView.decode? v).map daily
    else if kind = ViewKind.weekly.name then (WeeklyView.decode? v).map weekly
    else none
  | _ => none

end View

end WeatherStation
