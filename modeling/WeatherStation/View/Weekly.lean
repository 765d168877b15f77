import WeatherStation.View.Window

/-!
# Weekly views

The sealed days of one device in one ISO week: for each metric and for the rain a row of seven day
summaries, Monday first, with the summary of the days that are there.

* `WeeklyView.applyDay`: writes a sealed day into its place. Writing it again changes nothing.
-/

namespace WeatherStation

/-- The summaries of the days of a week. -/
structure WeeklySeries (α : Type) where
  days : Vector (Option (Summary α)) 7
  /-- The summary of all days that have one. -/
  summary : Option (Summary α)
  deriving DecidableEq

namespace WeeklySeries

variable {α : Type}

/-- The series without days. -/
def empty : WeeklySeries α := ⟨Vector.replicate 7 none, none⟩

variable [Quantity α]

/-- The summary of some days: the least and the greatest value, and the mean of the averages. -/
def summarize : List (Summary α) → Option (Summary α)
  | [] => none
  | x :: xs =>
    some ⟨Quantity.least x.min (xs.map (·.min)), Quantity.greatest x.max (xs.map (·.max)),
      Quantity.mean ((x :: xs).map (·.avg))⟩

/-- The series with the summary that its days have. -/
def recompute (s : WeeklySeries α) : WeeklySeries α :=
  { s with summary := summarize (s.days.toList.filterMap fun d => d) }

/-- Writes the summary of a day, and the new summary of the week. -/
def write (s : WeeklySeries α) (day : Fin 7) (summary : Option (Summary α)) : WeeklySeries α :=
  recompute { s with days := s.days.set day summary }

end WeeklySeries

/-- The sealed days of one device in one week. -/
structure WeeklyView (α : Type) where
  id : ViewId
  device : String
  week : IsoWeek
  metrics : PerMetric (WeeklySeries α)
  rain : WeeklySeries α
  version : Option Version
  deriving DecidableEq

/-- Why a day is not written into a week. -/
inductive ApplyDayError where
  | deviceMismatch (day expected found : String)
  | weekMismatch (day : String) (week : IsoWeek)
  | notSealed (day : String)
  /-- A tally of the day has no summary. -/
  | metric (day : String) (error : TallyError)
  deriving DecidableEq

/-- The wording of a refusal to write a day. -/
def ApplyDayError.message : ApplyDayError → String
  | .deviceMismatch day expected found =>
    "Day " ++ day ++ " belongs to device " ++ found ++ ", expected " ++ expected
  | .weekMismatch day week => "Day " ++ day ++ " is outside week " ++ week.stamp
  | .notSealed day => "Day " ++ day ++ " must be finalized before weekly rollup"
  | .metric day e => "Invalid metric on day " ++ day ++ ": " ++ e.message

namespace WeeklyView

variable {α : Type}

/-- The week of a device without days. -/
def empty (device : String) (week : IsoWeek) : WeeklyView α :=
  ⟨ViewId.weekly device week, device, week, .const .empty, .empty, none⟩

variable [Quantity α]

/-- The place of a day in its week. -/
def place (d : Date) : Fin 7 := ⟨d.weekday, d.weekday_lt⟩

/-- Writes the summary of one metric of a day. -/
def writeMetric (day : DailyView α) (m : Metric) : Revision ApplyDayError (WeeklyView α) Unit := do
  let summary ← match (day.tallies.get m).mapM Tally.summary with
    | .ok summary => pure summary
    | .error e => throw (.metric day.id.key e)
  modify fun w =>
    let series := (w.metrics.get m).write (place day.start.date) summary
    { w with metrics := w.metrics.set m series }

/-- Writes a sealed day of the device and week into its place. -/
def applyDay (day : DailyView α) : Revision ApplyDayError (WeeklyView α) Unit := do
  let w ← get
  if day.device ≠ w.device then throw (.deviceMismatch day.id.key w.device day.device)
  if IsoWeek.of day.start.date ≠ w.week then throw (.weekMismatch day.id.key w.week)
  if !day.isSealed then throw (.notSealed day.id.key)
  Metric.all.forM (writeMetric day)
  modify fun w => { w with rain := w.rain.write (place day.start.date) day.rainSummary }

end WeeklyView

end WeatherStation
