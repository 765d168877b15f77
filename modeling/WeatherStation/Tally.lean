import WeatherStation.Quantity
import WeatherStation.Time.Instant

/-!
# Tallies

Running statistics of one metric over one window. A tally is *active* while it takes values and
keeps their sum, count and extremes; closing it turns it once and for all into the summary of its
average and extremes.

* `Tally.add`: takes a value; only an active tally does.
* `Tally.close`: the passage from active to closed.
* `Tally.ofParts?`, `Tally.ofSummary?`: rebuilding a tally from stored parts.
-/

namespace WeatherStation

/-- The extremes and the average of some values. -/
structure Summary (α : Type) where
  min : α
  max : α
  avg : α
  deriving DecidableEq

/-- The summary of a dry day: it was measured, and all of it was zero. -/
def Summary.zero {α : Type} [Zero α] : Summary α := ⟨0, 0, 0⟩

/-- Running statistics of a metric. -/
inductive Tally (α : Type) where
  /-- Still taking values. -/
  | active (sum : α) (count : UInt64) (min max : α)
  /-- Closed, with the average of all values. -/
  | closed (summary : Summary α)
  deriving DecidableEq

/-- Why a tally refuses an operation. -/
inductive TallyError where
  | alreadyClosed
  /-- There is no value to average. -/
  | empty
  deriving DecidableEq

/-- The wording of a tally's refusal. -/
def TallyError.message : TallyError → String
  | .alreadyClosed => "Metric aggregate is already finalized"
  | .empty => "Metric aggregate is empty"

/-- Why parts do not make up a tally. -/
inductive TallyPartsError (α : Type) where
  | empty
  /-- The least value lies above the greatest. -/
  | invalidRange (min max : α)
  /-- An average stands beside a sum or a count. -/
  | averageBesideSum
  /-- Neither an average nor both a sum and a count are there. -/
  | incomplete
  deriving DecidableEq

namespace Tally

variable {α : Type}

/-- The tally of a single value. -/
def single (x : α) : Tally α := .active x 1 x x

/-- Whether the tally is closed. -/
def isClosed : Tally α → Bool
  | .active .. => false
  | .closed _ => true

/-- The least value. -/
def min : Tally α → α
  | .active _ _ min _ => min
  | .closed s => s.min

/-- The greatest value. -/
def max : Tally α → α
  | .active _ _ _ max => max
  | .closed s => s.max

variable [Quantity α]

/-- Takes one more value. -/
def add (x : α) : Tally α → Except (Failure TallyError) (Tally α)
  | .active sum count min max =>
    if count.toNat + 1 < UInt64.size then
      .ok (.active (sum + x) (count + 1) (Quantity.lesser min x) (Quantity.greater max x))
    else .error (.overflow .valueCount)
  | .closed _ => .error (.refused .alreadyClosed)

/-- The average of all values. -/
def average : Tally α → Except TallyError α
  | .active sum count _ _ =>
    if count = 0 then .error .empty else .ok (sum / Quantity.ofNat count.toNat)
  | .closed s => .ok s.avg

/-- The extremes and the average. -/
def summary (t : Tally α) : Except TallyError (Summary α) := do
  return ⟨t.min, t.max, ← t.average⟩

/-- Closes an active tally. -/
def close (t : Tally α) : Except TallyError (Tally α) :=
  match t with
  | .active .. => t.summary.map .closed
  | .closed _ => .error .alreadyClosed

/-- Checks that the least value does not lie above the greatest. -/
def checkRange (min max : α) : Except (TallyPartsError α) Unit :=
  if Quantity.below max min then .error (.invalidRange min max) else .ok ()

/-- An active tally of at least one value. -/
def ofParts? (sum : α) (count : UInt64) (min max : α) : Except (TallyPartsError α) (Tally α) := do
  if count = 0 then throw .empty
  checkRange min max
  return .active sum count min max

/-- The closed tally of a summary. -/
def ofSummary? (s : Summary α) : Except (TallyPartsError α) (Tally α) := do
  checkRange s.min s.max
  return .closed s

end Tally

end WeatherStation
