import WeatherStation.Json.Basic
import WeatherStation.Text.Real

/-!
# Writing JSON

* `Json.compact`: a text without blanks.
* `Json.pretty`: one item or member a line, indented by two blanks for each level.

Quotes, backslashes and control characters are escaped. A real number that is not finite is null.
-/

namespace WeatherStation.Json

open Text

/-- The lower-case hexadecimal digit of a number below 16. -/
def hexChar (n : Nat) : Char := Nat.digitChar n

/-- A character as it stands between quotes. -/
def escaped (c : Char) : List Char :=
  if c = '"' then ['\\', '"']
  else if c = '\\' then ['\\', '\\']
  else if c = '\n' then ['\\', 'n']
  else if c = '\r' then ['\\', 'r']
  else if c = '\t' then ['\\', 't']
  else if c = '\x08' then ['\\', 'b']
  else if c = '\x0c' then ['\\', 'f']
  else if c.toNat < 0x20 then
    ['\\', 'u', '0', '0', hexChar (c.toNat / 16), hexChar (c.toNat % 16)]
  else [c]

/-- A text in quotes. -/
def quoted (s : String) : String :=
  String.ofList ('"' :: s.toList.flatMap escaped ++ ['"'])

/-- The text of a value without parts. -/
def atom : Json Float → String
  | .bool true => "true"
  | .bool false => "false"
  | .int n => intText n
  | .real x => if x.isFinite then realText x else "null"
  | .str s => quoted s
  | _ => "null"

mutual

/-- The text of a value without blanks. -/
def compact : Json Float → String
  | .arr items => "[" ++ compactItems items ++ "]"
  | .obj members => "\x7b" ++ compactMembers members ++ "\x7d"
  | v => atom v

/-- Items with commas between them. -/
def compactItems : List (Json Float) → String
  | [] => ""
  | [v] => compact v
  | v :: rest => compact v ++ "," ++ compactItems rest

/-- Members with commas between them. -/
def compactMembers : List (MemberName × Json Float) → String
  | [] => ""
  | [(k, v)] => quoted k.text ++ ":" ++ compact v
  | (k, v) :: rest => quoted k.text ++ ":" ++ compact v ++ "," ++ compactMembers rest

end

/-- The start of a line. -/
def indentation (level : Nat) : String := "\n" ++ String.ofList (List.replicate (2 * level) ' ')

mutual

/-- The text of a value with one part a line. `level` is the number of open arrays and objects. -/
def prettyAt (level : Nat) : Json Float → String
  | .arr [] => "[]"
  | .arr items => "[" ++ prettyItems (level + 1) items ++ indentation level ++ "]"
  | .obj [] => "\x7b\x7d"
  | .obj members => "\x7b" ++ prettyMembers (level + 1) members ++ indentation level ++ "\x7d"
  | v => atom v

/-- Items on lines of their own. -/
def prettyItems (level : Nat) : List (Json Float) → String
  | [] => ""
  | [v] => indentation level ++ prettyAt level v
  | v :: rest => indentation level ++ prettyAt level v ++ "," ++ prettyItems level rest

/-- Members on lines of their own. -/
def prettyMembers (level : Nat) : List (MemberName × Json Float) → String
  | [] => ""
  | [(k, v)] => indentation level ++ quoted k.text ++ ": " ++ prettyAt level v
  | (k, v) :: rest =>
    indentation level ++ quoted k.text ++ ": " ++ prettyAt level v ++ ","
      ++ prettyMembers level rest

end

/-- The text of a value with one part a line. -/
def pretty (v : Json Float) : String := prettyAt 0 v

end WeatherStation.Json
