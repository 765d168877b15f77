import WeatherStation.Text.Scan

/-!
# Socket addresses

An IP address with a port, as a server listens to it. Octets of version 4 have no leading zeros.
Version 6 stands in brackets; one stretch of zero groups can be left out, and the last two groups
can be written as an address of version 4.

* `SocketAddress.ofText?`, `SocketAddress.text`: reading and writing. Written addresses leave out
  the longest stretch of at least two zero groups.
-/

namespace WeatherStation

open Text

/-- An IP address with a port. -/
inductive SocketAddress where
  /-- Four octets. -/
  | v4 (octets : List Nat) (port : Nat)
  /-- Eight groups of 16 bits, and the scope that they are meant in. -/
  | v6 (groups : List Nat) (scope port : Nat)
  deriving DecidableEq

namespace SocketAddress

/-! ## Reading -/

/-- A decimal number below a bound. -/
def decimal (bound : Nat) : Scan Nat := do
  let n := Scan.value (← Scan.run fun c => (digit? c).isSome)
  guard (n < bound)
  return n

/-- An octet: at most three digits without leading zeros. -/
def octet : Scan Nat := do
  let digits ← Scan.run fun c => (digit? c).isSome
  guard (digits.length ≤ 3 ∧ (digits.length = 1 ∨ digits.head? ≠ some '0'))
  guard (Scan.value digits < 256)
  return Scan.value digits

/-- Four octets with points between them. -/
def octets : Scan (List Nat) := do
  let point : Scan Unit := Scan.literal ['.']
  let a ← octet
  point
  let b ← octet
  point
  let c ← octet
  point
  return [a, b, c, ← octet]

/-- A group: at most four hexadecimal digits. -/
def group : Scan Nat := do
  let digits ← Scan.run fun c => (hexDigit? c).isSome
  guard (digits.length ≤ 4)
  return digits.foldl (fun n c => 16 * n + (hexDigit? c).getD 0) 0

/-- At most `left` groups with colons between them, and whether four octets end them. -/
def groups : Nat → (first : Bool) → Scan (List Nat × Bool)
  | 0, _ => return ([], false)
  | left + 1, first => do
    let colon : Scan Unit := if first then return else Scan.literal [':']
    let embedded : Scan (List Nat × Bool) := do
      guard (1 ≤ left)
      colon
      match ← octets with
      | [a, b, c, d] => return ([256 * a + b, 256 * c + d], true)
      | _ => failure
    let plain : Scan (List Nat × Bool) := do
      colon
      let g ← group
      let (rest, ended) ← groups left false
      return (g :: rest, ended)
    embedded <|> plain <|> return ([], false)

/-- The eight groups of an address of version 6. Two colons stand for the groups that are left
    out. -/
def address6 : Scan (List Nat) := do
  let (head, ended) ← groups 8 true
  if head.length = 8 then return head
  guard !ended
  Scan.literal [':', ':']
  let (tail, _) ← groups (7 - head.length) true
  return head ++ List.replicate (8 - head.length - tail.length) 0 ++ tail

/-- The scope of an address of version 6. -/
def scope : Scan Nat := (do Scan.literal ['%']; decimal UInt32.size) <|> return 0

/-- A port after its colon, at the end of the text. -/
def port : Scan Nat := do
  Scan.literal [':']
  let p ← decimal UInt16.size
  Scan.finish
  return p

/-- An address with its port. -/
def scan : Scan SocketAddress :=
  let four : Scan SocketAddress := do
    let octets ← octets
    return .v4 octets (← port)
  let six : Scan SocketAddress := do
    Scan.literal ['[']
    let groups ← address6
    let scope ← scope
    Scan.literal [']']
    return .v6 groups scope (← port)
  four <|> six

/-- Reads an address with its port. -/
def ofText? (s : String) : Option SocketAddress := scan.run' s.toList

/-! ## Writing -/

/-- Start and length of the longest stretch of zeros in a list, the first one of equal length. The
    current stretch and the best so far are `current` and `best`. -/
def longestZeros : List Nat → (index : Nat) → (current best : Nat × Nat) → Nat × Nat
  | [], _, _, best => best
  | g :: rest, i, current, best =>
    if g = 0 then
      let current := if current.2 = 0 then (i, 1) else (current.1, current.2 + 1)
      longestZeros rest (i + 1) current (if best.2 < current.2 then current else best)
    else longestZeros rest (i + 1) (0, 0) best

/-- Groups in lower-case hexadecimal with colons between them. -/
def groupsText (groups : List Nat) : String :=
  ":".intercalate (groups.map fun g => String.ofList (Nat.toDigits 16 g))

/-- Octets with points between them. -/
def octetsText (octets : List Nat) : String := ".".intercalate (octets.map natText)

/-- The text of an address of version 6. An address of version 4 within it keeps its form. -/
def text6 (groups : List Nat) : String :=
  match groups with
  | [0, 0, 0, 0, 0, 0xffff, g, h] => "::ffff:" ++ octetsText [g / 256, g % 256, h / 256, h % 256]
  | groups =>
    let (start, length) := longestZeros groups 0 (0, 0) (0, 0)
    if 1 < length then
      groupsText (groups.take start) ++ "::" ++ groupsText (groups.drop (start + length))
    else groupsText groups

/-- The text of an address with its port. -/
def text : SocketAddress → String
  | v4 octets port => octetsText octets ++ ":" ++ natText port
  | v6 groups scope port =>
    let zone := if scope = 0 then "" else "%" ++ natText scope
    "[" ++ text6 groups ++ zone ++ "]:" ++ natText port

end SocketAddress

end WeatherStation
