import WeatherStation.Quantity
import WeatherStation.Time.Instant

/-!
# Rain counts

The rain report of a gauge: how often it tipped in each slot of a row of slots of equal width.
-/

namespace WeatherStation

/-- A sparse report of a rain gauge. Slots without an entry are dry. -/
structure RainCounts (α : Type) where
  /-- Tips by slot. -/
  units : SortedMap UInt32 UInt32
  /-- The width of a slot in seconds. -/
  interval : UInt32
  /-- The start of slot 0. -/
  start : Instant
  /-- The number of slots, where it is declared. -/
  declaredSlots : Option UInt32
  /-- The rain of one tip. -/
  unitValue : α
  deriving DecidableEq

namespace RainCounts

variable {α : Type}

/-- The report of consecutive slots, of which it keeps those with tips. A row too long for 32 bits
    is cut short and has no declared length. -/
def ofList (counts : List UInt32) (interval : UInt32) (start : Instant) (unitValue : α) :
    RainCounts α where
  units := SortedMap.ofList <|
    (counts.zipIdx.filter fun c => c.2 < UInt32.size ∧ 0 < c.1).map fun c =>
      (UInt32.ofNat c.2, c.1)
  interval := interval
  start := start
  declaredSlots := if counts.length < UInt32.size then some (UInt32.ofNat counts.length) else none
  unitValue := unitValue

/-- The number of slots: the declared one, or else one more than the last slot with an entry. -/
def slotCount (c : RainCounts α) : Except Overflow UInt32 :=
  match c.declaredSlots, c.units.keys.getLast? with
  | some n, _ => .ok n
  | none, none => .ok 0
  | none, some last =>
    if last.toNat + 1 < UInt32.size then .ok (last + 1) else .error .slotCount

/-- The number of tips in all slots. -/
def totalUnits (c : RainCounts α) : Nat := (c.units.values.map UInt32.toNat).foldl (· + ·) 0

end RainCounts

/-- A rule that a rain report can break. -/
inductive RainCheck where
  | zeroInterval
  | negativeUnitValue
  deriving DecidableEq

/-- The member of a report that a rule is about. -/
def RainCheck.field : RainCheck → String
  | .zeroInterval => "interval_seconds"
  | .negativeUnitValue => "value_per_unit"

/-- The wording of a broken rule. -/
def RainCheck.message : RainCheck → String
  | .zeroInterval => "Histogram interval must be positive"
  | .negativeUnitValue => "Value per unit cannot be negative"

/-- The rules that a rain report breaks. -/
def RainCounts.brokenRules {α : Type} [Quantity α] (c : RainCounts α) : List RainCheck :=
  (if c.interval = 0 then [.zeroInterval] else []) ++
  (if Quantity.below c.unitValue 0 then [.negativeUnitValue] else [])

end WeatherStation
