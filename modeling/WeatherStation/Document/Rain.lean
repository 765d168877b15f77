import WeatherStation.Document.Record
import WeatherStation.Rain.Counts

/-!
# Documents of rain

The documents of rain reports, of rain windows and of merge modes.
-/

namespace WeatherStation

open Document

variable {α : Type}

/-- The name of a mode. -/
def MergeMode.encode (m : MergeMode) : Json α := .str m.name

@[inherit_doc MergeMode.encode] def MergeMode.decode? (v : Json α) : Option MergeMode := do
  let name ← name? v
  [MergeMode.sum, MergeMode.max].find? fun m => m.name == name

variable [Quantity α]

namespace RainCounts

/-- The fields of a rain report. -/
def fields : List Field :=
  [⟨"unit_counts", true⟩, ⟨"interval_seconds", false⟩, ⟨"start_time", false⟩,
   ⟨"slot_count", true⟩, ⟨"value_per_unit", false⟩]

/-- The document of a rain report. -/
def encode (c : RainCounts α) : Json α :=
  .object <|
    [("unit_counts", encodeIndexed encodeUInt32 c.units),
     ("interval_seconds", encodeUInt32 c.interval),
     ("start_time", encodeInstant c.start)]
    ++ member? "slot_count" encodeUInt32 c.declaredSlots
    ++ [("value_per_unit", encodeReal c.unitValue)]

@[inherit_doc encode] def decode? (v : Json α) : Option (RainCounts α) := do
  match ← Record.read? fields v with
  | [units, interval, start, slots, unitValue] =>
    return {
      units := ← defaulted SortedMap.empty (decodeIndexed? decodeUInt32?) units
      interval := ← required decodeUInt32? interval
      start := ← required decodeInstant? start
      declaredSlots := ← optional decodeUInt32? slots
      unitValue := ← required decodeReal? unitValue }
  | _ => none

end RainCounts

namespace RainWindow

/-- The fields of a rain window. -/
def fields : List Field :=
  [⟨"values", false⟩, ⟨"interval_seconds", false⟩, ⟨"start_time", false⟩]

/-- The document of a rain window. -/
def encode (w : RainWindow α) : Json α :=
  .object
    [("values", encodeList encodeReal w.values),
     ("interval_seconds", encodeUInt32 w.interval),
     ("start_time", encodeInstant w.start)]

@[inherit_doc encode] def decode? (v : Json α) : Option (RainWindow α) := do
  match ← Record.read? fields v with
  | [values, interval, start] =>
    return {
      values := ← required (decodeList? decodeReal?) values
      interval := ← required decodeUInt32? interval
      start := ← required decodeInstant? start }
  | _ => none

end RainWindow

end WeatherStation
