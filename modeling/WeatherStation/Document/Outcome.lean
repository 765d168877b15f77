import WeatherStation.Document.Record
import WeatherStation.Ingest
import WeatherStation.Sweep

/-!
# Documents of outcomes

What is reported about a reading that was taken in and about a sweep.
-/

namespace WeatherStation

open Document

variable {α : Type}

/-- The document of the windows that a reading touched. -/
def WindowOutcome.encode (o : WindowOutcome) : Json α :=
  .object
    [("updated", encodeList .str o.updated), ("duplicates", encodeList .str o.duplicates),
     ("sealed", encodeList .str o.closed)]

/-- The document of what a reading did. -/
def IngestOutcome.encode (o : IngestOutcome) : Json α :=
  .object
    [("device_id", .str o.device), ("source_id", .str o.sourceId),
     ("latest_version", .str o.latestVersion), ("hourly", o.hourly.encode),
     ("daily", o.daily.encode)]

namespace SweepResult

/-- The fields of what a sweep did. -/
def fields : List Field :=
  [⟨"success", false⟩, ⟨"processed_count", false⟩, ⟨"failed_count", false⟩,
   ⟨"skipped_count", false⟩, ⟨"budget_exhausted", false⟩, ⟨"error_message", true⟩]

/-- The document of what a sweep did. -/
def encode (r : SweepResult) : Json α :=
  .object <|
    [("success", .bool r.success), ("processed_count", .int r.processed),
     ("failed_count", .int r.failed), ("skipped_count", .int r.skipped),
     ("budget_exhausted", .bool r.budgetExhausted)]
    ++ member? "error_message" .str r.error

@[inherit_doc encode] def decode? (v : Json α) : Option SweepResult := do
  match ← Record.read? fields v with
  | [success, processed, failed, skipped, exhausted, error] =>
    return {
      success := ← required Json.bool? success
      processed := ← required decodeCount? processed
      failed := ← required decodeCount? failed
      skipped := ← required decodeCount? skipped
      budgetExhausted := ← required Json.bool? exhausted
      error := ← optional Json.str? error }
  | _ => none

end SweepResult

end WeatherStation
