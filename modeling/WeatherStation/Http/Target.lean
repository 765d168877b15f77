import WeatherStation.Text.Decimal

/-!
# Request targets

The target of an HTTP request: a path with an optional query, a full URL, or an authority alone.

* `Target.ofText?`: the path and the query of a target, if it is well formed.
-/

namespace WeatherStation.Http

/-- The path and the query of a request. -/
structure Target where
  path : String
  query : Option String
  deriving DecidableEq

/-- Whether a character lies in one of some ranges of code points. -/
def within (ranges : List (Nat × Nat)) (c : Char) : Bool :=
  ranges.any fun r => r.1 ≤ c.toNat && c.toNat ≤ r.2

/-- Letters, digits and the signs that a method or a media type is made of. -/
def isTokenChar (c : Char) : Bool := c.isAlphanum || "!#$%&'*+-.^_`|~".toList.contains c

/-- The characters of a path: those that need no encoding, quotes and braces, and all beyond
    ASCII. -/
def isPathChar (c : Char) : Bool :=
  within [(0x21, 0x22), (0x24, 0x3B), (0x3D, 0x3D), (0x40, 0x5F), (0x61, 0x7E)] c || 0x80 ≤ c.toNat

/-- The characters of a query, among them all beyond ASCII. -/
def isQueryChar (c : Char) : Bool :=
  within [(0x21, 0x21), (0x24, 0x3B), (0x3D, 0x3D), (0x3F, 0x7E)] c || 0x80 ≤ c.toNat

/-- The characters of an authority. -/
def isAuthorityChar (c : Char) : Bool := c.isAlphanum || "!#$&'()*+,-./:;=?@[]_~%".toList.contains c

/-- The characters of a scheme. -/
def isSchemeChar (c : Char) : Bool := c.isAlphanum || "+-.~".toList.contains c

/-- Path and query, up to a fragment. -/
def pathAndQuery? (s : List Char) : Option Target := do
  let path := s.takeWhile fun c => c != '?' && c != '#'
  guard (path.all isPathChar)
  match s.drop path.length with
  | '?' :: rest =>
    let query := rest.takeWhile (· != '#')
    guard (query.all isQueryChar)
    return ⟨String.ofList path, some (String.ofList query)⟩
  | _ => return ⟨String.ofList path, none⟩

/-- What was met in an authority so far. -/
structure AuthorityScan where
  colons : Nat := 0
  opened : Bool := false
  closed : Bool := false
  percent : Bool := false
  /-- Whether the last character was `@`. -/
  afterAt : Bool := false

/-- Takes the next character of an authority. Colons and percent signs count anew behind the user
    and behind an address in brackets. -/
def AuthorityScan.step (s : AuthorityScan) (c : Char) : Option AuthorityScan :=
  let s := { s with afterAt := false }
  if !isAuthorityChar c then none
  else if c = ':' then if 8 ≤ s.colons then none else some { s with colons := s.colons + 1 }
  else if c = '[' then if s.percent || s.opened then none else some { s with opened := true }
  else if c = ']' then
    if !s.opened || s.closed then none
    else some { s with closed := true, colons := 0, percent := false }
  else if c = '@' then some { s with colons := 0, percent := false, afterAt := true }
  else if c = '%' then some { s with percent := true }
  else some s

/-- Whether a text is the authority of a URL. -/
def isAuthority (s : List Char) : Bool :=
  match s.foldlM AuthorityScan.step {} with
  | some s => s.opened == s.closed && s.colons ≤ 1 && !s.percent && !s.afterAt
  | none => false

/-- The length of the scheme of a URL, if it has one. -/
def schemeLength? (s : List Char) : Option Nat :=
  let scheme := s.takeWhile isSchemeChar
  match s.drop scheme.length with
  | ':' :: '/' :: '/' :: _ => some scheme.length
  | _ => none

/-- The characters before the first slash, question mark or number sign. -/
def authorityPart (s : List Char) : List Char :=
  s.takeWhile fun c => c != '/' && c != '?' && c != '#'

/-- The target of a URL with a scheme of some length. Its empty path is `/`. -/
def absolute? (s : List Char) (scheme : Nat) : Option Target := do
  guard (scheme ≤ 64)
  let rest := s.drop (scheme + 3)
  let authority := authorityPart rest
  guard (!authority.isEmpty && isAuthority authority)
  let target ← pathAndQuery? (rest.drop authority.length)
  return if target.path = "" then { target with path := "/" } else target

/-- The path and the query of a target. An authority alone has neither. -/
def Target.ofText? (text : String) : Option Target :=
  let s := text.toList
  if text.utf8ByteSize = 0 ∨ 65534 < text.utf8ByteSize then none
  else if s = ['*'] then some ⟨"*", none⟩
  else if s.head? = some '/' then pathAndQuery? s
  else match schemeLength? s with
    | some scheme => absolute? s scheme
    | none =>
      if authorityPart s = s ∧ isAuthority s then some ⟨"", none⟩ else none

/-- The parts of a path between its slashes. -/
def Target.segments (t : Target) : List String := (t.path.toList.splitOn '/').map String.ofList

end WeatherStation.Http
