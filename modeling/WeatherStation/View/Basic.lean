import WeatherStation.View.Weekly

/-!
# Views

The four kinds of views that are stored: the latest reading of a device, its hours, its days and
its weeks.
-/

namespace WeatherStation

/-- The kinds of stored views. -/
inductive ViewKind where
  | latest
  | hourly
  | daily
  | weekly
  deriving DecidableEq

namespace ViewKind

/-- The name of a kind. -/
def name : ViewKind → String
  | latest => "latest"
  | hourly => "hourly"
  | daily => "daily"
  | weekly => "weekly"

/-- The views of a kind. -/
abbrev Content (α : Type) : ViewKind → Type
  | latest => LatestView α
  | hourly => HourlyView α
  | daily => DailyView α
  | weekly => WeeklyView α

end ViewKind

/-- The kind of view that a window of some width is stored as. -/
def Granularity.kind : Granularity → ViewKind
  | .hourly => .hourly
  | .daily => .daily

/-- A stored view. -/
inductive View (α : Type) where
  | latest (v : LatestView α)
  | hourly (v : HourlyView α)
  | daily (v : DailyView α)
  | weekly (v : WeeklyView α)
  deriving DecidableEq

namespace View

variable {α : Type}

/-- The kind of a view. -/
def kind : View α → ViewKind
  | latest _ => .latest
  | hourly _ => .hourly
  | daily _ => .daily
  | weekly _ => .weekly

/-- The id of a view. -/
def id : View α → ViewId
  | latest v => v.id
  | hourly v => v.id
  | daily v => v.id
  | weekly v => v.id

/-- The key that a view is stored under. -/
def key (v : View α) : String := v.id.key

/-- The version of a view that came from a store. -/
def version : View α → Option Version
  | latest v => v.version
  | hourly v => v.version
  | daily v => v.version
  | weekly v => v.version

/-- The view with another version. -/
def withVersion (version : Option Version) : View α → View α
  | latest v => latest { v with version := version }
  | hourly v => hourly { v with version := version }
  | daily v => daily { v with version := version }
  | weekly v => weekly { v with version := version }

/-- The view of a window. -/
def ofWindow : {g : Granularity} → WindowView g α → View α
  | .hourly, w => hourly w
  | .daily, w => daily w

/-- The view as one of a kind. -/
def ofKind? : (k : ViewKind) → View α → Option (k.Content α)
  | .latest, latest v => some v
  | .hourly, hourly v => some v
  | .daily, daily v => some v
  | .weekly, weekly v => some v
  | _, _ => none

/-- The view as a window of some width. -/
def window? : (g : Granularity) → View α → Option (WindowView g α)
  | .hourly, hourly w => some w
  | .daily, daily w => some w
  | _, _ => none

/-- The view as a day. -/
def daily? : View α → Option (DailyView α) := window? .daily

@[simp] theorem version_withVersion (v : View α) (t : Option Version) :
    (v.withVersion t).version = t := by cases v <;> rfl

@[simp] theorem key_withVersion (v : View α) (t : Option Version) :
    (v.withVersion t).key = v.key := by cases v <;> rfl

@[simp] theorem window?_ofWindow {g : Granularity} (w : WindowView g α) :
    (ofWindow w).window? g = some w := by cases g <;> rfl

end View

end WeatherStation
