import WeatherStation.Quantity
import WeatherStation.Tally
import WeatherStation.Time.Instant

/-!
# Rain windows

The rain of a stored view: one amount for each slot of a row of slots of equal width.

* `RainWindow.merge`: folds the rain of buckets into the slots that they start in.
* `RainWindow.stats`: the summary of the wet slots.
-/

namespace WeatherStation

/-- Amounts of rain by the start of the bucket they fell in. -/
abbrev Buckets (α : Type) := SortedMap Instant α

/-- How new rain joins the rain of a slot. -/
inductive MergeMode where
  /-- Amounts add up. -/
  | sum
  /-- The greatest amount stays. -/
  | max
  deriving DecidableEq

namespace MergeMode

/-- The name of a mode. -/
def name : MergeMode → String
  | sum => "sum"
  | max => "max"

/-- Joins new rain to the rain of a slot. -/
def join {α : Type} [Quantity α] : MergeMode → α → α → α
  | sum, current, incoming => current + incoming
  | max, current, incoming => Quantity.greater current incoming

end MergeMode

/-- Amounts of rain in consecutive slots. -/
structure RainWindow (α : Type) where
  values : List α
  /-- The width of a slot in seconds. -/
  interval : UInt32
  /-- The start of slot 0. -/
  start : Instant
  deriving DecidableEq

namespace RainWindow

variable {α : Type} [Quantity α]

/-- The window of dry slots. -/
def dry (start : Instant) (interval : UInt32) (slots : Nat) : RainWindow α :=
  ⟨List.replicate slots 0, interval, start⟩

/-- The rain of all slots. -/
def total (w : RainWindow α) : α := Quantity.sum w.values

/-- The summary of the slots with rain, if there is one. -/
def stats (w : RainWindow α) : Option (Summary α) :=
  match w.values.filter (Quantity.below 0) with
  | [] => none
  | x :: xs =>
    some ⟨Quantity.least x xs, Quantity.greatest x xs, Quantity.mean (x :: xs)⟩

/-- The slot that an instant falls in, by the whole seconds elapsed since the start of the
    window. -/
def slot (w : RainWindow α) (t : Instant) : Int :=
  ((t.since w.start).tdiv 1000000000).tdiv w.interval.toNat

/-- Folds the rain of one bucket into the window. A bucket that starts before the window or behind
    its last slot is dropped. -/
def mergeBucket (mode : MergeMode) (w : RainWindow α) (bucket : Instant × α) : RainWindow α :=
  let slot := w.slot bucket.1
  if bucket.1 < w.start ∨ slot < 0 then w
  else { w with values := w.values.modify slot.toNat (mode.join · bucket.2) }

/-- Folds the rain of buckets into the window, in the order of time. A window without width takes
    none. -/
def merge (mode : MergeMode) (w : RainWindow α) (buckets : Buckets α) : RainWindow α :=
  if w.interval = 0 then w else buckets.entries.foldl (mergeBucket mode) w

end RainWindow

end WeatherStation
