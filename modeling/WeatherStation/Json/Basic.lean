/-!
# JSON values

Values with their members in written order, repeated names included. Whole numbers are kept apart
from real ones, since a document tells `60` from `60.0`.
-/

namespace WeatherStation

/-- The name of a member of an object. -/
structure MemberName where
  text : String
  /-- Whether the name is written without escapes, as an index has to be. -/
  verbatim : Bool
  deriving DecidableEq

/-- A JSON value whose real numbers are of type `α`. -/
inductive Json (α : Type) where
  | null
  | bool (b : Bool)
  | int (n : Int)
  | real (x : α)
  | str (s : String)
  | arr (items : List (Json α))
  | obj (members : List (MemberName × Json α))
  /-- A text, or an object with a name, that holds half of a surrogate pair: it can be skipped, but
      it has no value. -/
  | garbled

namespace Json

variable {α : Type}

/-- The object with some members, whose names are written without escapes. -/
def object (members : List (String × Json α)) : Json α :=
  .obj (members.map fun m => (⟨m.1, true⟩, m.2))

/-- The members of an object. -/
def members? : Json α → Option (List (MemberName × Json α))
  | .obj ms => some ms
  | _ => none

/-- The value of the last member with a name. -/
def member? (name : String) (v : Json α) : Option (Json α) := do
  let m ← (← v.members?).reverse.find? fun m => m.1.text == name
  return m.2

/-- The items of an array. -/
def items? : Json α → Option (List (Json α))
  | .arr items => some items
  | _ => none

/-- The text of a string. -/
def str? : Json α → Option String
  | .str s => some s
  | _ => none

/-- The value of a whole number. -/
def int? : Json α → Option Int
  | .int n => some n
  | _ => none

/-- The value of a whole number between 0 and `limit`. -/
def nat? (limit : Nat) : Json α → Option Nat
  | .int n => if 0 ≤ n ∧ n ≤ limit then some n.toNat else none
  | _ => none

/-- The value of a truth value. -/
def bool? : Json α → Option Bool
  | .bool b => some b
  | _ => none

/-- A text, or null where there is none. -/
def ofStr? : Option String → Json α
  | some s => .str s
  | none => .null

end Json

end WeatherStation
