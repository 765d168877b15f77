import WeatherStation.Json.Basic
import WeatherStation.Json.Token

/-!
# Reading JSON

A text is read token by token. The reader's state says what may come next and which arrays and
objects are still open; a text is accepted if a single value is complete at its end.

* `Reader.step`: one token.
* `Json.ofText?`: the value of a text, with binary64 numbers.
-/

namespace WeatherStation.Json

/-- An array or object that is still open, with its parts in reverse order. -/
inductive Frame (α : Type) where
  | arr (items : List (Json α))
  /-- An object in which the value of `key` is awaited. -/
  | obj (members : List (Option MemberName × Json α)) (key : Option MemberName)

/-- What the reader awaits. `frames` are the open arrays and objects, the innermost first. -/
inductive Reader (α : Type) where
  /-- A value. -/
  | value (frames : List (Frame α))
  /-- The first item of an array, or its end. -/
  | firstItem (frames : List (Frame α))
  /-- The first name of an object, or its end. -/
  | firstName (frames : List (Frame α))
  /-- A name. -/
  | name (members : List (Option MemberName × Json α)) (frames : List (Frame α))
  /-- The colon after a name. -/
  | colon (members : List (Option MemberName × Json α)) (key : Option MemberName)
      (frames : List (Frame α))
  /-- A comma, or the end of an array. -/
  | nextItem (items : List (Json α)) (frames : List (Frame α))
  /-- A comma, or the end of an object. -/
  | nextName (members : List (Option MemberName × Json α)) (frames : List (Frame α))
  /-- The end of the text. -/
  | done (v : Json α)

/-- The object of members in reverse order. It has no value if one of its names has none. -/
def ofMembers {α : Type} (reversed : List (Option MemberName × Json α)) : Json α :=
  match reversed.reverse.mapM fun m => m.1.map (·, m.2) with
  | some members => .obj members
  | none => .garbled

/-- The value of a number: a whole number where it is written as one. -/
def ofNumeral (n : Text.Numeral) : Json Float :=
  match n.toInt? with
  | some i => .int i
  | none => .real n.toFloat

namespace Reader

variable {α : Type}

/-- Puts a complete value into the innermost open array or object. -/
def put (v : Json α) : List (Frame α) → Reader α
  | [] => .done v
  | .arr items :: frames => .nextItem (v :: items) frames
  | .obj members key :: frames => .nextName ((key, v) :: members) frames

/-- Takes the first token of a value. -/
def begin? (real : Text.Numeral → Json α) (frames : List (Frame α)) : Token → Option (Reader α)
  | .openArray => some (.firstItem frames)
  | .openObject => some (.firstName frames)
  | .null => some (put .null frames)
  | .bool b => some (put (.bool b) frames)
  | .number n => some (put (real n) frames)
  | .str (some s) _ => some (put (.str s) frames)
  | .str none _ => some (put .garbled frames)
  | _ => none

/-- Takes the next token. `real` gives the values of numbers. -/
def step (real : Text.Numeral → Json α) : Reader α → Token → Option (Reader α)
  | .value frames, t => begin? real frames t
  | .firstItem frames, .closeArray => some (put (.arr []) frames)
  | .firstItem frames, t => begin? real (.arr [] :: frames) t
  | .firstName frames, .closeObject => some (put (.obj []) frames)
  | .firstName frames, .str key verbatim => some (.colon [] (key.map (⟨·, verbatim⟩)) frames)
  | .name members frames, .str key verbatim =>
    some (.colon members (key.map (⟨·, verbatim⟩)) frames)
  | .colon members key frames, .colon => some (.value (.obj members key :: frames))
  | .nextItem items frames, .comma => some (.value (.arr items :: frames))
  | .nextItem items frames, .closeArray => some (put (.arr items.reverse) frames)
  | .nextName members frames, .comma => some (.name members frames)
  | .nextName members frames, .closeObject => some (put (ofMembers members) frames)
  | _, _ => none

end Reader

/-- The value that a text denotes, if it is a JSON text. -/
def ofText? (text : String) : Option (Json Float) := do
  let tokens ← Token.ofText? text.toList
  match ← tokens.foldlM (Reader.step ofNumeral) (.value []) with
  | .done v => some v
  | _ => none

end WeatherStation.Json
