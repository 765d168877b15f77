/-!
# Metrics

The three scalar metrics of a station, and families of values with one member for each of them.
-/

namespace WeatherStation

/-- A scalar metric. -/
inductive Metric where
  /-- Air temperature. -/
  | temperature
  /-- Relative humidity. -/
  | humidity
  /-- Barometric pressure. -/
  | pressure
  deriving DecidableEq

namespace Metric

/-- The metrics in their fixed order. -/
def all : List Metric := [temperature, humidity, pressure]

/-- The name of a metric. -/
def name : Metric → String
  | temperature => "temperature"
  | humidity => "humidity"
  | pressure => "pressure"

/-- The metric with a name. -/
def ofName? (s : String) : Option Metric := all.find? fun m => m.name == s

theorem mem_all (m : Metric) : m ∈ all := by cases m <;> simp [all]

theorem ofName?_name (m : Metric) : ofName? m.name = some m := by cases m <;> decide

end Metric

/-- One value for each metric. -/
structure PerMetric (β : Type) where
  temperature : β
  humidity : β
  pressure : β
  deriving DecidableEq

namespace PerMetric

variable {β : Type}

/-- The family with the same value for every metric. -/
def const (b : β) : PerMetric β := ⟨b, b, b⟩

/-- The value of a metric. -/
def get (f : PerMetric β) : Metric → β
  | .temperature => f.temperature
  | .humidity => f.humidity
  | .pressure => f.pressure

/-- Replaces the value of a metric. -/
def set (f : PerMetric β) (m : Metric) (b : β) : PerMetric β :=
  match m with
  | .temperature => { f with temperature := b }
  | .humidity => { f with humidity := b }
  | .pressure => { f with pressure := b }

/-- The metrics and their values, in order. -/
def toList (f : PerMetric β) : List (Metric × β) := Metric.all.map fun m => (m, f.get m)

@[ext] theorem ext_get {f g : PerMetric β} (h : ∀ m, f.get m = g.get m) : f = g := by
  cases f; cases g
  exact congr (congr (congrArg mk (h .temperature)) (h .humidity)) (h .pressure)

@[simp] theorem get_const (b : β) (m : Metric) : (const b).get m = b := by cases m <;> rfl

@[simp] theorem get_set_self (f : PerMetric β) (m : Metric) (b : β) : (f.set m b).get m = b := by
  cases m <;> rfl

theorem get_set_ne (f : PerMetric β) {m k : Metric} (h : k ≠ m) (b : β) :
    (f.set m b).get k = f.get k := by
  cases m <;> cases k <;> first | rfl | exact absurd rfl h

end PerMetric

end WeatherStation
