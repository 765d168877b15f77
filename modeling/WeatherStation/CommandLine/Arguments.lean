import WeatherStation.CommandLine.LogFilter
import WeatherStation.Time.Grammar

/-!
# Command-line arguments

The program has the commands `keys` and `resample`; without one it introduces itself. Options are
written `--name value`, `--name=value`, `-n value`, `-nvalue` or `-n=value`, and none twice.

* `splitOptions`: the options at the front of some arguments.
* `Invocation.ofArguments`: what a list of arguments asks for.
-/

namespace WeatherStation.CommandLine

open Text

/-- A help page. -/
inductive HelpPage where
  | program
  | keys
  | resample
  | help
  deriving DecidableEq

/-- What the arguments ask for. -/
inductive Command where
  /-- Name and version of the program. -/
  | introduction
  | version
  | help (page : HelpPage)
  /-- The keys of the views that a reading of an instant belongs to. -/
  | keys (device : String) (time : Instant)
  /-- The rain report of a file in buckets of some seconds. -/
  | resample (file : String) (target : UInt32)
  deriving DecidableEq

/-- A command, and what is logged while it runs. -/
structure Invocation where
  log : LogFilter
  command : Command
  deriving DecidableEq

/-- Why the arguments do not ask for a command. -/
inductive UsageError where
  | unexpected (argument : String)
  | missingValue (option : String)
  | repeatedOption (option : String)
  | missingOption (option : String)
  | invalidValue (option value : String)
  deriving DecidableEq

/-- The wording of a usage error. -/
def UsageError.message : UsageError → String
  | .unexpected a => "unexpected argument '" ++ a ++ "'"
  | .missingValue o => "a value is required for '--" ++ o ++ "'"
  | .repeatedOption o => "'--" ++ o ++ "' cannot be used multiple times"
  | .missingOption o => "'--" ++ o ++ "' was not provided"
  | .invalidValue o v => "invalid value '" ++ v ++ "' for '--" ++ o ++ "'"

/-! ## Options -/

/-- An option with its one-letter form. An option without `takesValue` is a flag. -/
structure OptionSpec where
  name : String
  letter : Option Char
  takesValue : Bool

/-- An argument by its form. -/
inductive Argument where
  /-- `--name` or `--name=value`. -/
  | long (name : String) (value : Option String)
  /-- `-n`, `-nvalue` or `-n=value`. -/
  | short (letter : Char) (value : Option String)
  /-- `--`, behind which there are no options. -/
  | stop
  | word (s : String)

/-- The form of an argument. -/
def Argument.of (s : String) : Argument :=
  match s.toList with
  | ['-', '-'] => .stop
  | '-' :: '-' :: rest =>
    let name := rest.takeWhile (· != '=')
    match rest.drop name.length with
    | _ :: value => .long (String.ofList name) (some (String.ofList value))
    | [] => .long (String.ofList name) none
  | ['-', c] => .short c none
  | '-' :: c :: '=' :: value => .short c (some (String.ofList value))
  | '-' :: c :: value => .short c (some (String.ofList value))
  | _ => .word s

/-- Whether an argument cannot be the value of the option before it. -/
def Argument.isOption : Argument → Bool
  | .word _ => false
  | _ => true

/-- The option that an argument names, and the value written with it. What follows the letter of a
    flag is no value. -/
def Argument.option? (specs : List OptionSpec) : Argument → Option (OptionSpec × Option String)
  | .long name value => (specs.find? fun o => o.name == name).map (·, value)
  | .short c value =>
    (specs.find? fun o => o.letter == some c).map fun o => (o, if o.takesValue then value else none)
  | _ => none

/-- The options at the front of some arguments, in order, and the arguments from the first one that
    is no option. Reading ends at the first flag. -/
def splitOptions (specs : List OptionSpec) (found : List (String × String)) :
    List String → Except UsageError (List (String × String) × List String)
  | [] => .ok (found, [])
  | a :: rest =>
    match (Argument.of a).option? specs with
    | none =>
      match Argument.of a with
      | .word _ => .ok (found, a :: rest)
      | .stop => if rest.isEmpty then .ok (found, []) else .error (.unexpected a)
      | _ => .error (.unexpected a)
    | some (o, written) =>
      if !o.takesValue then
        if written.isSome then .error (.unexpected a) else .ok (found ++ [(o.name, "")], [])
      else if (found.lookup o.name).isSome then .error (.repeatedOption o.name)
      else match written, rest with
        | some v, rest => splitOptions specs (found ++ [(o.name, v)]) rest
        | none, v :: rest =>
          if (Argument.of v).isOption then .error (.missingValue o.name)
          else splitOptions specs (found ++ [(o.name, v)]) rest
        | none, [] => .error (.missingValue o.name)

/-! ## Commands -/

/-- The flag that asks for help. -/
def helpFlag : OptionSpec := ⟨"help", some 'h', false⟩

/-- The value of an option that has to be given. -/
def needed (options : List (String × String)) (name : String) : Except UsageError String :=
  match options.lookup name with
  | some v => .ok v
  | none => .error (.missingOption name)

/-- A valid value of an option. -/
def valid {β : Type} (name value : String) (read : Option β) : Except UsageError β :=
  match read with
  | some b => .ok b
  | none => .error (.invalidValue name value)

/-- The options of a command, which takes no other arguments; nothing if help is asked for. Values
    are checked by `check` before the rest is looked at. -/
def commandOptions (specs : List OptionSpec) (arguments : List String)
    (check : String × String → Except UsageError Unit) :
    Except UsageError (Option (List (String × String))) := do
  let (options, rest) ← splitOptions (helpFlag :: specs) [] arguments
  options.forM check
  if let a :: _ := rest then throw (.unexpected a)
  return if (options.lookup "help").isSome then none else some options

/-- Reads the instant of an option. -/
def instantOf (name value : String) : Except UsageError Instant :=
  valid name value (Instant.ofText? value)

/-- Reads a bucket width: a signed numeral whose value is a 32-bit number. -/
def widthOf (name value : String) : Except UsageError UInt32 :=
  valid name value <|
    match readInt (UInt64.size / 2 - 1) value.toList with
    | .ok n => if 0 ≤ n ∧ n < UInt32.size then some (UInt32.ofNat n.toNat) else none
    | .error _ => none

/-- The command `keys`. -/
def keysCommand (arguments : List String) : Except UsageError Command := do
  let check (o : String × String) : Except UsageError Unit :=
    if o.1 = "at" then (instantOf o.1 o.2).map fun _ => () else .ok ()
  match ← commandOptions [⟨"device", some 'd', true⟩, ⟨"at", some 'a', true⟩] arguments check with
  | none => return .help .keys
  | some options =>
    return .keys (← needed options "device") (← instantOf "at" (← needed options "at"))

/-- The command `resample`. Its buckets take five minutes unless the arguments say otherwise. -/
def resampleCommand (arguments : List String) : Except UsageError Command := do
  let check (o : String × String) : Except UsageError Unit :=
    if o.1 = "target" then (widthOf o.1 o.2).map fun _ => ()
    else if o.1 = "file" ∧ o.2 = "" then .error (.invalidValue o.1 o.2)
    else .ok ()
  match ← commandOptions [⟨"file", some 'f', true⟩, ⟨"target", some 't', true⟩] arguments check with
  | none => return .help .resample
  | some options =>
    let file ← needed options "file"
    return .resample file (← widthOf "target" ((options.lookup "target").getD "300"))

/-- The command `help`. -/
def helpCommand : List String → Except UsageError Command
  | [] => .ok (.help .program)
  | ["keys"] => .ok (.help .keys)
  | ["resample"] => .ok (.help .resample)
  | ["help"] => .ok (.help .help)
  | a :: _ => .error (.unexpected a)

/-- The command that a list of arguments asks for. `log` is the text of the log filter unless the
    arguments give one. -/
def Invocation.ofArguments (log : String) (arguments : List String) :
    Except UsageError Invocation := do
  let specs := [helpFlag, ⟨"version", some 'V', false⟩, ⟨"log", none, true⟩]
  let (options, rest) ← splitOptions specs [] arguments
  let command ←
    if (options.lookup "help").isSome then pure (.help .program)
    else if (options.lookup "version").isSome then pure .version
    else match rest with
      | [] => pure .introduction
      | "keys" :: rest => keysCommand rest
      | "resample" :: rest => resampleCommand rest
      | "help" :: rest => helpCommand rest
      | a :: _ => throw (.unexpected a)
  return ⟨.ofText ((options.lookup "log").getD log), command⟩

end WeatherStation.CommandLine
