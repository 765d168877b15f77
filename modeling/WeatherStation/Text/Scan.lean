import WeatherStation.Text.Blank
import WeatherStation.Text.Decimal

/-!
# Scanning

Small steps that take characters off the front of a text or refuse it. A refused step leaves the
text as it was, so that another one can be tried.
-/

namespace WeatherStation.Text

/-- A step of reading: it takes characters off the front of the text, or refuses it. -/
abbrev Scan := StateT (List Char) Option

namespace Scan

/-- Skips white space. -/
def blanks : Scan Unit := modify skipBlanks

/-- Takes one character that satisfies `p`. -/
def char (p : Char → Bool) : Scan Char := do
  match ← get with
  | c :: rest => guard (p c); set rest; return c
  | [] => failure

/-- Takes the next character if it satisfies `p`. -/
def char? (p : Char → Bool) : Scan Bool := do
  match ← get with
  | c :: rest => if p c then set rest; return true else return false
  | [] => return false

/-- Takes the text `s`. -/
def literal (s : List Char) : Scan Unit := s.forM fun c => discard (char (· == c))

/-- Takes at least one and at most `width` characters that satisfy `p`. -/
def atMost (width : Nat) (p : Char → Bool) : Scan (List Char) := do
  let run := ((← get).take width).takeWhile p
  guard (!run.isEmpty)
  modify (·.drop run.length)
  return run

/-- Takes all leading characters that satisfy `p`, of which there is at least one. -/
def run (p : Char → Bool) : Scan (List Char) := do atMost (← get).length p

/-- Takes at least one and at most `width` digits. -/
def digits (width : Nat) : Scan (List Char) := atMost width fun c => (digit? c).isSome

/-- The number that decimal digits name. -/
def value (digits : List Char) : Nat :=
  digits.foldl (fun n c => 10 * n + (digit? c).getD 0) 0

/-- Nothing is left. -/
def finish : Scan Unit := do guard (← get).isEmpty

end Scan

end WeatherStation.Text
