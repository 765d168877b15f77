import WeatherStation.Text.Decimal

/-!
# Log filters

Which events are logged. A filter is a list of directives between commas: a level for all events, or
`target`, `target=level`, `target[{field}]` or `target[{field}]=level`, where the target may be
missing before a field. Of the directives that are about an event, the most specific one decides.

* `LogFilter.ofText`: the directives of a text. What is no directive about events is left out.
* `LogFilter.enables`: whether an event is logged.
-/

namespace WeatherStation.CommandLine

/-- How much is logged, or the least level at which an event still is. -/
inductive LogLevel where
  | off
  | error
  | warn
  | info
  | debug
  | trace
  deriving DecidableEq

namespace LogLevel

/-- The levels in order, from the one that logs nothing to the one that logs everything. -/
def all : List LogLevel := [off, error, warn, info, debug, trace]

/-- The name of a level. -/
def name : LogLevel → String
  | off => "off"
  | error => "error"
  | warn => "warn"
  | info => "info"
  | debug => "debug"
  | trace => "trace"

/-- The place of a level in the order. -/
def rank (l : LogLevel) : Nat := all.idxOf l

/-- The level with a name, in either case, or with a number. -/
def ofText? (s : List Char) : Option LogLevel :=
  match Text.readNat (UInt64.size - 1) s with
  | .ok n => all[n]?
  | .error _ => all.find? fun l => l.name.toList == s.map Char.toLower

end LogLevel

/-- An event: the part of the program that it comes from, its level and the names of its fields. -/
structure LogEvent where
  target : String
  level : LogLevel
  fields : List String
  deriving DecidableEq

/-- The least level for events from some targets, or with some field. -/
structure LogDirective where
  /-- How the target has to begin. -/
  target : Option String
  /-- The name of a field that the event has to have. -/
  field : Option String
  level : LogLevel
  deriving DecidableEq

namespace LogDirective

/-- The level behind a target or a field, which is everything unless it is written. -/
def levelOf? : List Char → Option LogLevel
  | [] => some .trace
  | ['='] => some .trace
  | '=' :: level => LogLevel.ofText? level
  | _ => none

/-- Reads the field behind a bracket, and the level. A bracket that names a span, or a field with a
    value, is not about events. -/
def ofField? (target : Option String) (s : List Char) : Option LogDirective :=
  match s with
  | '{' :: s =>
    let field := s.takeWhile (· != '}')
    match s.drop field.length with
    | '}' :: ']' :: level =>
      if field.isEmpty ∨ field.contains '=' then none
      else (levelOf? level).map fun l => ⟨target, some (String.ofList field), l⟩
    | _ => none
  | _ => none

/-- Reads a directive. -/
def ofText? (s : List Char) : Option LogDirective :=
  let begins (c : Char) : Bool := c.isAlphanum || "-:_".toList.contains c
  match s with
  | [] => none
  | '[' :: rest => ofField? none rest
  | c :: _ =>
    let word := s.takeWhile fun c => c != '=' && c != '['
    let target := String.ofList word
    if !begins c then none
    else match s.drop word.length with
      | [] => match LogLevel.ofText? word with
        | some level => some ⟨none, none, level⟩
        | none => some ⟨some target, none, .trace⟩
      | '[' :: rest => ofField? (some target) rest
      | level => (levelOf? level).map fun l => ⟨some target, none, l⟩

/-- Whether a directive is about an event. -/
def covers (d : LogDirective) (e : LogEvent) : Bool :=
  d.target.all (fun t => t.toList.isPrefixOf e.target.toList) && d.field.all e.fields.contains

/-- Whether a directive is at least as specific as another one: first the longer target counts, then
    a field, then the order of the fields. -/
def outranks (d e : LogDirective) : Bool :=
  let length (d : LogDirective) : Nat := d.target.elim 0 fun t => t.utf8ByteSize + 1
  length e < length d || (length e == length d &&
    match d.field, e.field with
    | _, none => true
    | none, some _ => false
    | some f, some g => g ≤ f)

end LogDirective

/-- A list of directives. -/
structure LogFilter where
  directives : List LogDirective
  deriving DecidableEq

namespace LogFilter

/-- The filter that a text describes. -/
def ofText (s : String) : LogFilter := ⟨(s.toList.splitOn ',').filterMap LogDirective.ofText?⟩

/-- The directive that decides about an event: the most specific one; of equal ones, the last. -/
def decisive? (f : LogFilter) (e : LogEvent) : Option LogDirective :=
  (f.directives.filter fun d => d.covers e).foldl
    (fun best d => if best.all d.outranks then some d else best) none

/-- Whether an event is logged. -/
def enables (f : LogFilter) (e : LogEvent) : Bool :=
  (f.decisive? e).any fun d => e.level.rank ≤ d.level.rank

end LogFilter

end WeatherStation.CommandLine
