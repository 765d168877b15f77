import WeatherStation.Http.Target

/-!
# Media types

* `isJsonType`: the content types that announce JSON: `application/json` and every application type
  with the suffix `+json`, in either case and with parameters.
-/

namespace WeatherStation.Http

/-- What comes next in the parameters of a media type. -/
inductive ParameterScan where
  /-- A parameter, after any number of blanks. -/
  | start
  /-- The rest of a name. -/
  | name
  /-- A value. -/
  | value
  /-- The rest of a value without quotes. -/
  | token
  /-- The first character of a value in quotes. -/
  | quoted
  /-- The rest of a value in quotes. -/
  | quotedRest
  /-- A semicolon, after any number of blanks. -/
  | next

/-- Takes the next character of the parameters. -/
def ParameterScan.step : ParameterScan → Char → Option ParameterScan
  | .start, c => if c = ' ' then some .start else if isTokenChar c then some .name else none
  | .name, c => if c = '=' then some .value else if isTokenChar c then some .name else none
  | .value, c => if c = '"' then some .quoted else if isTokenChar c then some .token else none
  | .token, c => if c = ';' then some .start else if isTokenChar c then some .token else none
  | .quoted, c => if within [(0x20, 0x7E)] c then some .quotedRest else none
  | .quotedRest, c =>
    if c = '"' then some .next else if within [(0x20, 0x7E)] c then some .quotedRest else none
  | .next, c => if c = ';' then some .start else if c = ' ' then some .next else none

/-- Whether the parameters can end here. -/
def ParameterScan.complete : ParameterScan → Bool
  | .start => true
  | .value => true
  | .token => true
  | .next => true
  | _ => false

/-- Whether a text consists of parameters. -/
def areParameters (s : List Char) : Bool :=
  ((s.foldlM ParameterScan.step .start).map ParameterScan.complete).getD false

/-- Whether a subtype is JSON by its name or by its suffix, which begins at its last plus sign. -/
def isJsonSubtype (subtype : List Char) : Bool :=
  let suffix := (subtype.reverse.takeWhile (· != '+')).reverse
  if suffix.length + 1 < subtype.length then
    let base := subtype.take (subtype.length - suffix.length - 1)
    base == "json".toList || suffix == "json".toList
  else subtype == "json".toList

/-- Whether a content type announces JSON. -/
def isJsonType (contentType : String) : Bool :=
  let s := contentType.toList
  let main := s.takeWhile (· != '/')
  let behind := s.drop (main.length + 1)
  let subtype := behind.takeWhile (· != ';')
  main.map Char.toLower == "application".toList && main.length < s.length
    && subtype.all isTokenChar && isJsonSubtype (subtype.map Char.toLower)
    && areParameters (behind.drop (subtype.length + 1))

end WeatherStation.Http
