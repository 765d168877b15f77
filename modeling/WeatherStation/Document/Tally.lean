import WeatherStation.Document.Record
import WeatherStation.Tally

/-!
# Documents of tallies

A summary has its three values. A tally has its extremes and either its sum and count, while it is
active, or its average.
-/

namespace WeatherStation

open Document

variable {α : Type} [Quantity α]

namespace Summary

/-- The fields of a summary. -/
def fields : List Field := [⟨"min", false⟩, ⟨"max", false⟩, ⟨"avg", false⟩]

/-- The document of a summary. -/
def encode (s : Summary α) : Json α :=
  .object [("min", encodeReal s.min), ("max", encodeReal s.max), ("avg", encodeReal s.avg)]

@[inherit_doc encode] def decode? (v : Json α) : Option (Summary α) := do
  match ← Record.read? fields v with
  | [min, max, avg] =>
    return ⟨← required decodeReal? min, ← required decodeReal? max, ← required decodeReal? avg⟩
  | _ => none

end Summary

namespace Tally

/-- The fields of a tally. -/
def fields : List Field :=
  [⟨"sum", true⟩, ⟨"count", true⟩, ⟨"min", false⟩, ⟨"max", false⟩, ⟨"avg", true⟩]

/-- The document of a tally. -/
def encode : Tally α → Json α
  | .active sum count min max =>
    .object [("sum", encodeReal sum), ("count", encodeUInt64 count), ("min", encodeReal min),
      ("max", encodeReal max)]
  | .closed s =>
    .object [("min", encodeReal s.min), ("max", encodeReal s.max), ("avg", encodeReal s.avg)]

/-- The tally of the parts of a document. -/
def ofDocument (sum : Option α) (count : Option UInt64) (min max : α) (avg : Option α) :
    Except (TallyPartsError α) (Tally α) :=
  match sum, count, avg with
  | some sum, some count, none => ofParts? sum count min max
  | none, none, some avg => ofSummary? ⟨min, max, avg⟩
  | _, _, some _ => .error .averageBesideSum
  | _, _, none => .error .incomplete

@[inherit_doc encode] def decode? (v : Json α) : Option (Tally α) := do
  match ← Record.read? fields v with
  | [sum, count, min, max, avg] =>
    (ofDocument (← optional decodeReal? sum) (← optional decodeUInt64? count)
      (← required decodeReal? min) (← required decodeReal? max)
      (← optional decodeReal? avg)).toOption
  | _ => none

end Tally

end WeatherStation
