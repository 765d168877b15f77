import WeatherStation.Document.Rain
import WeatherStation.Reading

/-!
# Documents of readings
-/

namespace WeatherStation

open Document

namespace Reading

variable {α : Type} [Quantity α]

/-- The fields of a reading. -/
def fields : List Field :=
  [⟨"device_id", false⟩, ⟨"source_id", true⟩, ⟨"timestamp", false⟩, ⟨"temperature", true⟩,
   ⟨"humidity", true⟩, ⟨"pressure", true⟩, ⟨"rain", true⟩]

/-- The document of a reading. What it does not carry is left out. -/
def encode (r : Reading α) : Json α :=
  .object <|
    [("device_id", .str r.device)]
    ++ member? "source_id" .str r.source
    ++ [("timestamp", encodeInstant r.time)]
    ++ member? "temperature" encodeReal r.values.temperature
    ++ member? "humidity" encodeReal r.values.humidity
    ++ member? "pressure" encodeReal r.values.pressure
    ++ member? "rain" RainCounts.encode r.rain

@[inherit_doc encode] def decode? (v : Json α) : Option (Reading α) := do
  match ← Record.read? fields v with
  | [device, source, time, temperature, humidity, pressure, rain] =>
    return {
      device := ← required Json.str? device
      source := ← optional Json.str? source
      time := ← required decodeInstant? time
      values := ⟨← optional decodeReal? temperature, ← optional decodeReal? humidity,
        ← optional decodeReal? pressure⟩
      rain := ← optional RainCounts.decode? rain }
  | _ => none

end Reading

end WeatherStation
