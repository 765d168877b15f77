import WeatherStation.CommandLine.Arguments
import WeatherStation.Document.Rain
import WeatherStation.Json.Reader
import WeatherStation.Json.Writer
import WeatherStation.Rain.Resample
import WeatherStation.View.Id

/-!
# Command-line reports

What the commands print, and how the program ends: with status 0, with 1 if a file or its rain
report is of no use, with 2 if the arguments are, and with 101 if a number leaves its range.
-/

namespace WeatherStation.CommandLine

open Document

/-- How a run of the program ends, and what it prints. -/
structure Outcome where
  status : Nat
  output : String
  errors : String
  deriving DecidableEq

/-- Why a rain report is of no use. -/
inductive ReportError where
  | unreadableFile
  | malformed
  | invalid (checks : List RainCheck)
  | resample (error : ResampleError)

/-- The wording of a problem with a rain report. -/
def ReportError.message : ReportError → String
  | .unreadableFile => "Failed to read the file"
  | .malformed => "Failed to parse the file"
  | .invalid checks =>
    let line (c : RainCheck) : String := c.field ++ ": " ++ c.message
    "Invalid rain histogram: " ++ "\n".intercalate (checks.map line)
  | .resample e => e.message

/-- The version of the program. -/
def versionText : String := "0.1.0"

/-- The text of a help page. `logVariable` is the value of the environment variable that stands for
    the log filter. -/
def HelpPage.text (logVariable : String) : HelpPage → String
  | .program =>
    "Weather CLI - offline tooling for view keys and rain histogram resampling\n\n" ++
    "Usage: weather [OPTIONS] [COMMAND]\n\n" ++
    "Commands:\n" ++
    "  keys      Print the storage keys a reading at a given time lands in\n" ++
    "  resample  Resample a rain histogram JSON file to a bucket width\n" ++
    "  help      Print this message or the help of the given subcommand(s)\n\n" ++
    "Options:\n" ++
    "      --log <LOG>  Log filter, e.g. `debug` or `shared=trace` [env: RUST_LOG=" ++
      logVariable ++ "] [default: warn]\n" ++
    "  -h, --help       Print help\n" ++
    "  -V, --version    Print version\n"
  | .keys =>
    "Print the storage keys a reading at a given time lands in\n\n" ++
    "Usage: weather keys --device <DEVICE> --at <AT>\n\n" ++
    "Options:\n" ++
    "  -d, --device <DEVICE>  Device id\n" ++
    "  -a, --at <AT>          RFC 3339 timestamp, any offset\n" ++
    "  -h, --help             Print help\n"
  | .resample =>
    "Resample a rain histogram JSON file to a bucket width\n\n" ++
    "Usage: weather resample [OPTIONS] --file <FILE>\n\n" ++
    "Options:\n" ++
    "  -f, --file <FILE>      Path to a rain histogram JSON document\n" ++
    "  -t, --target <TARGET>  Target bucket width in seconds [default: 300]\n" ++
    "  -h, --help             Print help\n"
  | .help =>
    "Print this message or the help of the given subcommand(s)\n\n" ++
    "Usage: weather help [COMMAND]...\n\n" ++
    "Arguments:\n" ++
    "  [COMMAND]...  Print help for the subcommand(s)\n"

/-- The ids of the views that a reading of an instant belongs to. -/
def keysReport (device : String) (t : Instant) : Json Float :=
  .arr <| (ViewId.all device t).map fun v => .object
    [("view", .str v.1), ("key", .str v.2.key), ("date_id", .str v.2.dateId)]

/-- The rain of a report in buckets, with its total and the hours that it fell in. -/
def bucketsReport (target : UInt32) (buckets : Buckets Float) : Json Float :=
  .object
    [("target_seconds", encodeUInt32 target),
     ("total", encodeReal (Quantity.sum buckets.values)),
     ("buckets", .arr (buckets.entries.map fun b => .arr [encodeInstant b.1, encodeReal b.2])),
     ("affected_hours", encodeList encodeInstant (affectedHours buckets).keys)]

/-- The event that a rain report was read. -/
def reportRead : LogEvent := ⟨"weather", .debug, ["message", "interval", "slots", "target"]⟩

/-- The rain report that a file holds, in buckets of `target` seconds. Where `log` lets the number
    of its slots be logged, this number has to be in its range. -/
def resampleReport (log : LogFilter) (contents : Option String) (target : UInt32) :
    Except (Failure ReportError) (Json Float) := do
  let some text := contents | throw (.refused .unreadableFile)
  let some counts := (Json.ofText? text).bind RainCounts.decode? | throw (.refused .malformed)
  if log.enables reportRead then
    let _ ← counts.slotCount.mapError Failure.overflow
  if counts.brokenRules ≠ [] then throw (.refused (.invalid counts.brokenRules))
  let buckets ← (resample counts counts.unitValue target).mapError (Failure.map .resample)
  return bucketsReport target buckets

/-- The end of a run that prints a report, or a problem with it. -/
def Outcome.ofReport : Except (Failure ReportError) (Json Float) → Outcome
  | .ok v => ⟨0, v.pretty ++ "\n", ""⟩
  | .error (.refused e) => ⟨1, "", "Error: " ++ e.message ++ "\n"⟩
  | .error (.overflow _) => ⟨101, "", "Error: a number left its range\n"⟩

/-- The file that a command reads. -/
def Command.file? : Command → Option String
  | .resample file _ => some file
  | _ => none

/-- Runs a command. `contents` is the text of the file that it reads. -/
def Invocation.run (i : Invocation) (logVariable : String) (contents : Option String) : Outcome :=
  match i.command with
  | .introduction =>
    ⟨0, "Weather CLI v" ++ versionText ++ "\nUse --help for usage information\n", ""⟩
  | .version => ⟨0, "weather " ++ versionText ++ "\n", ""⟩
  | .help page => ⟨0, page.text logVariable, ""⟩
  | .keys device t => .ofReport (.ok (keysReport device t))
  | .resample _ target => .ofReport (resampleReport i.log contents target)

/-- The end of a run whose arguments are of no use. -/
def Outcome.ofUsageError (e : UsageError) : Outcome := ⟨2, "", "error: " ++ e.message ++ "\n"⟩

end WeatherStation.CommandLine
