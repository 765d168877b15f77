import WeatherStation.Text.Decimal

/-!
# Percent encoding

Octets written as a percent sign and two hexadecimal digits, in paths and in form data. A percent
sign without two such digits stands for itself.

* `percentDecode?`: the text of an encoded text, if its octets are UTF-8.
* `formFields`: the names and values of form data.
-/

namespace WeatherStation.Http

open Text

/-- The octets of encoded octets. -/
def decodeOctets : List UInt8 → List UInt8
  | 37 :: a :: b :: rest =>
    match hexDigit? (Char.ofNat a.toNat), hexDigit? (Char.ofNat b.toNat) with
    | some high, some low => UInt8.ofNat (16 * high + low) :: decodeOctets rest
    | _, _ => 37 :: decodeOctets (a :: b :: rest)
  | o :: rest => o :: decodeOctets rest
  | [] => []

/-- The text of an encoded text. -/
def percentDecode? (s : String) : Option String :=
  String.fromUTF8? (ByteArray.mk (decodeOctets s.toUTF8.toList).toArray)

/-- The text of a name or value in form data, where `+` is a blank. Octets that are not UTF-8 make a
    text that no number and no date has. -/
def formDecode (s : List Char) : String :=
  let spaced := String.ofList (s.map fun c => if c = '+' then ' ' else c)
  (percentDecode? spaced).getD "\ufffd"

/-- The names and values of form data: parts between `&`, split at the first `=`. -/
def formFields (s : String) : List (String × String) :=
  let parts := s.toList.splitOn '&'
  (parts.filter (!·.isEmpty)).map fun part =>
    let name := part.takeWhile (· != '=')
    (formDecode name, formDecode (part.drop (name.length + 1)))

/-- The value of a name in form data; refused if the name is there more than once. -/
def onlyField? (fields : List (String × String)) (name : String) : Option (Option String) :=
  match fields.filter fun f => f.1 == name with
  | [] => some none
  | [f] => some (some f.2)
  | _ => none

end WeatherStation.Http
