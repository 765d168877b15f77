import WeatherStation.Text.Scan
import WeatherStation.Time.Format

/-!
# Reading times

The grammars of written times. Numbers may follow white space, a signed year may have any number
of digits, and an unsigned one at most four.

* `Instant.ofText?`: a relaxed RFC 3339 timestamp with its offset, converted to UTC.
* `Date.ofStamp?`: a date as it stands in a path.
* `Date.ofText?`: a date as it stands in a query, with white space before each `-` and at the end.
* `Instant.ofHourStamp?`: an hour as it stands in a path.
-/

namespace WeatherStation.Time

open Text Text.Scan

/-- A number of at most `width` digits after white space, within bounds. -/
def number (width least greatest : Nat) : Scan Nat := do
  blanks
  let n := value (← digits width)
  guard (least ≤ n ∧ n ≤ greatest)
  return n

/-- A year after white space: at most four digits, or a sign and any number of digits. -/
def year : Scan Int := do
  blanks
  let s ← get
  if ← char? (· == '-') then return -(value (← digits s.length) : Int)
  else if ← char? (· == '+') then return (value (← digits s.length) : Int)
  else return (value (← digits 4) : Int)

/-- Year, month and day with `-` between them, and white space before it if `loose`. -/
def date (loose : Bool) : Scan Date := do
  let separator : Scan Unit := do
    if loose then blanks
    literal ['-']
  let y ← year
  separator
  let m ← number 2 1 12
  separator
  let d ← number 2 1 31
  Date.ofCivil? y m d

/-- An optional fraction of a second, in nanoseconds: digits after the ninth are dropped. -/
def fraction : Scan Nat := do
  if ← char? (· == '.') then
    let run ← digits 9
    modify (·.dropWhile fun c => (digit? c).isSome)
    return value run * Nat.pow 10 (9 - run.length)
  else return 0

/-- The distance from UTC in seconds: `Z` or `UTC` in either case, or a sign, two digits for the
    hours, colons and white space, and two digits for the minutes. -/
def zone : Scan Int := do
  blanks
  let utc : Scan Unit :=
    ['u', 't', 'c'].forM fun c => discard (char (·.toLower == c))
  let numeric : Scan Int := do
    let negative ← (do discard (char (· == '+')); return false) <|>
      (do discard (char fun c => c == '-' || c == '\u2212'); return true)
    let two : Scan Nat := do
      let run ← digits 2
      guard (run.length = 2)
      return value run
    let hours ← two
    modify (·.dropWhile fun c => c == ':' || isBlank c)
    let minutes ← two
    guard (minutes < 60)
    let seconds := hours * 3600 + minutes * 60
    guard (seconds < 86400)
    return if negative then -(seconds : Int) else seconds
  (do utc; return 0) <|> (do discard (char (·.toLower == 'z')); return 0) <|> numeric

/-- A timestamp: a date, a separator, a time of day and the distance from UTC. -/
def timestamp : Scan Instant := do
  let day ← date true
  discard (char fun c => c == 'T' || c == 't' || c == ' ')
  let colon : Scan Unit := do blanks; literal [':']
  let hour ← number 2 0 23
  colon
  let minute ← number 2 0 59
  colon
  let second ← number 2 0 60
  let nanos ← fraction
  let offset ← zone
  blanks
  finish
  let whole := day.day * 86400 + hour * 3600 + minute * 60 + min second 59 - offset
  Instant.ofParts? whole (if second = 60 then nanos + 1000000000 else nanos)

end WeatherStation.Time

namespace WeatherStation

open Text Time

/-- Reads a timestamp and converts it to UTC. -/
def Instant.ofText? (s : String) : Option Instant := timestamp.run' s.toList

/-- Reads a date of the form `2025-09-11`. -/
def Date.ofStamp? (s : String) : Option Date :=
  (do let d ← Time.date false; Scan.finish; return d : Scan Date).run' s.toList

/-- Reads a date of the form `2025-09-11`, with white space before each `-` and at the end. -/
def Date.ofText? (s : String) : Option Date :=
  (do let d ← Time.date true; Scan.blanks; Scan.finish; return d : Scan Date).run' s.toList

/-- Reads an hour of the form `2025-09-11T15`; its minutes are `00`. -/
def Instant.ofHourStamp? (s : String) : Option Instant :=
  (do
    let d ← Time.date false
    Scan.literal ['T']
    let hour ← number 2 0 23
    Scan.finish
    Instant.ofParts? (d.day * 86400 + hour * 3600) 0 : Scan Instant).run' s.toList

end WeatherStation
