import WeatherStation.Json.Basic
import WeatherStation.Metric
import WeatherStation.Quantity
import WeatherStation.Rain.Window
import WeatherStation.Text.Decimal
import WeatherStation.Time.Grammar

/-!
# Documents

How values stand in JSON documents. A record is an object whose unknown members are ignored and
whose known members do not repeat, or else an array of its fields in order.

* `Record.read?`: the fields of a record.
* `required`, `optional`, `defaulted`: what a field means when it is not there.
* `indexed`, `perMetric`: objects whose names are numbers or metrics; of a repeated name the last
  member counts.
-/

namespace WeatherStation.Document

variable {α β : Type}

/-! ## Records -/

/-- A field of a record. In an array, the last fields may be left out as far as they are
    `omittable`. -/
structure Field where
  name : String
  omittable : Bool := false

/-- The only member with a name, if there is one; nothing if there are several. -/
def single? (members : List (MemberName × Json α)) (name : String) : Option (Option (Json α)) :=
  match members.filter fun m => m.1.text == name with
  | [] => some none
  | [m] => some (some m.2)
  | _ => none

/-- The fields of a record, as far as they are there. -/
def Record.read? (fields : List Field) : Json α → Option (List (Option (Json α)))
  | .obj members => fields.mapM fun f => single? members f.name
  | .arr items =>
    if items.length ≤ fields.length ∧ (fields.drop items.length).all Field.omittable then
      some (items.map some ++ List.replicate (fields.length - items.length) none)
    else none
  | _ => none

/-- A field that has to be there. -/
def required (decode : Json α → Option β) (field : Option (Json α)) : Option β :=
  field.bind decode

/-- A field that may be missing or null. -/
def optional (decode : Json α → Option β) : Option (Json α) → Option (Option β)
  | none => some none
  | some .null => some none
  | some v => (decode v).map some

/-- A field that may be missing, but not null. -/
def defaulted (default : β) (decode : Json α → Option β) : Option (Json α) → Option β
  | none => some default
  | some v => decode v

/-- The member of a field that is left out where there is no value. -/
def member? (name : String) (encode : β → Json α) (value : Option β) : List (String × Json α) :=
  match value with
  | some b => [(name, encode b)]
  | none => []

/-- The value of a field that is null where there is no value. -/
def nullable (encode : β → Json α) : Option β → Json α
  | some b => encode b
  | none => .null

/-! ## Numbers and texts -/

/-- A 32-bit number. -/
def encodeUInt32 (n : UInt32) : Json α := .int n.toNat

@[inherit_doc encodeUInt32] def decodeUInt32? (v : Json α) : Option UInt32 :=
  (v.nat? (UInt32.size - 1)).map UInt32.ofNat

/-- A 64-bit number. -/
def encodeUInt64 (n : UInt64) : Json α := .int n.toNat

@[inherit_doc encodeUInt64] def decodeUInt64? (v : Json α) : Option UInt64 :=
  (v.nat? (UInt64.size - 1)).map UInt64.ofNat

/-- A signed 32-bit number. -/
def encodeInt32 (n : Int32) : Json α := .int n.toInt

@[inherit_doc encodeInt32] def decodeInt32? (v : Json α) : Option Int32 := do
  let n ← v.int?
  guard (Int32.minValue.toInt ≤ n ∧ n ≤ Int32.maxValue.toInt)
  return Int32.ofInt n

/-- A number that a 64-bit count holds. -/
def decodeCount? (v : Json α) : Option Nat := v.nat? (UInt64.size - 1)

/-- A measured value; null stands for one that is not finite. -/
def encodeReal [Quantity α] (x : α) : Json α := if Quantity.isFinite x then .real x else .null

/-- A measured value, which has to be finite. -/
def decodeReal? [Quantity α] : Json α → Option α
  | .int n => if Quantity.isFinite (Quantity.ofInt n : α) then some (Quantity.ofInt n) else none
  | .real x => if Quantity.isFinite x then some x else none
  | _ => none

/-- An instant, by its RFC 3339 text. -/
def encodeInstant (t : Instant) : Json α := .str t.text

@[inherit_doc encodeInstant] def decodeInstant? (v : Json α) : Option Instant :=
  v.str?.bind Instant.ofText?

/-- The text of one of several names, or an object with this name and null. -/
def name? : Json α → Option String
  | .str s => some s
  | .obj [(s, .null)] => some s.text
  | _ => none

/-! ## Lists and maps -/

/-- A list, by an array. -/
def encodeList (encode : β → Json α) (l : List β) : Json α := .arr (l.map encode)

@[inherit_doc encodeList] def decodeList? (decode : Json α → Option β) (v : Json α) :
    Option (List β) :=
  v.items?.bind fun items => items.mapM decode

/-- A set of texts, by an array in which they may repeat. -/
def encodeSet (s : SortedSet String) : Json α := encodeList .str s.keys

@[inherit_doc encodeSet] def decodeSet? (v : Json α) : Option (SortedSet String) :=
  (decodeList? Json.str? v).map SortedSet.ofList

/-- The index that a name stands for: digits without leading zeros and without escapes. -/
def index? (name : MemberName) : Option UInt32 :=
  let digits := name.text.toList
  if !name.verbatim ∨ digits.head? = some '+' ∨ (digits.head? = some '0' ∧ digits ≠ ['0']) then none
  else match Text.readNat (UInt32.size - 1) digits with
    | .ok n => some (UInt32.ofNat n)
    | .error _ => none

/-- A map from indices, by an object. -/
def encodeIndexed (encode : β → Json α) (m : SortedMap UInt32 β) : Json α :=
  .object (m.entries.map fun e => (Text.natText e.1.toNat, encode e.2))

@[inherit_doc encodeIndexed] def decodeIndexed? (decode : Json α → Option β) (v : Json α) :
    Option (SortedMap UInt32 β) := do
  let members ← v.members?
  members.foldlM (fun map m => do return map.insert (← index? m.1) (← decode m.2)) SortedMap.empty

/-- Values of some metrics, by an object. -/
def encodePerMetric (encode : β → Json α) (f : PerMetric (Option β)) : Json α :=
  .object (f.toList.flatMap fun e => member? e.1.name encode e.2)

@[inherit_doc encodePerMetric] def decodePerMetric? (decode : Json α → Option β) (v : Json α) :
    Option (PerMetric (Option β)) := do
  let members ← v.members?
  members.foldlM (fun f m => do return f.set (← Metric.ofName? m.1.text) (some (← decode m.2)))
    (.const none)

end WeatherStation.Document
