import WeatherStation.Settings.Ingest
import WeatherStation.Settings.SocketAddress
import WeatherStation.Settings.Sweep
import WeatherStation.Text.Blank

/-!
# Settings of a worker

The settings of a worker process, read from its environment. Numbers and names may stand between
blanks.

* `WorkerSettings.ofEnvironment`: the settings, or the first problem with them.
-/

namespace WeatherStation

open Text

/-- Settings of the services that work on a store. -/
structure ServiceSettings where
  ingest : IngestSettings
  sweep : SweepSettings
  deriving DecidableEq

/-- The form of log lines. -/
inductive LogFormat where
  /-- Lines for people. -/
  | pretty
  /-- One JSON object a line. -/
  | json
  deriving DecidableEq

/-- The name of a log format. -/
def LogFormat.name : LogFormat → String
  | pretty => "Pretty"
  | json => "Json"

/-- Settings of a worker process. -/
structure WorkerSettings extends ServiceSettings where
  host : String
  port : Nat
  logFormat : LogFormat
  deriving DecidableEq

/-- Why a variable of the environment has no value of its type. -/
inductive VariableError where
  | numeral (error : NumeralError)
  | notBoolean
  | unknownLogFormat (name : String)
  deriving DecidableEq

/-- The wording of a problem with a variable. -/
def VariableError.message : VariableError → String
  | .numeral e => e.message
  | .notBoolean => "provided string was not `true` or `false`"
  | .unknownLogFormat name => "Unknown log format: " ++ name

/-- Why a worker does not start. -/
inductive WorkerSettingsError where
  | variable (name : String) (error : VariableError)
  | ingest (error : IngestSettingsError)
  | sweep (error : SweepSettingsError)
  | address (host : String) (port : Nat)
  deriving DecidableEq

/-- The wording of a problem with the settings of a worker. -/
def WorkerSettingsError.message : WorkerSettingsError → String
  | .variable name e => "Invalid value for " ++ name ++ ": " ++ e.message
  | .ingest e => "Invalid aggregation configuration: " ++ e.message
  | .sweep e => "Invalid finalization configuration: " ++ e.message
  | .address host port => "Invalid socket address " ++ host ++ ":" ++ natText port

namespace WorkerSettings

/-- The settings of a worker without any variables. -/
def standard : WorkerSettings where
  ingest := .standard
  sweep := .standard
  host := "0.0.0.0"
  port := 8080
  logFormat := .pretty

/-- Reads a number up to `limit`. -/
def number (limit : Nat) (s : List Char) : Except VariableError Nat :=
  (readNat limit s).mapError .numeral

/-- Reads a number of seconds. -/
def duration (s : List Char) : Except VariableError Duration :=
  (number (UInt64.size - 1) s).map fun n => .ofSeconds (UInt64.ofNat n)

/-- Reads a truth value. -/
def boolean (s : List Char) : Except VariableError Bool :=
  if s = "true".toList then .ok true
  else if s = "false".toList then .ok false
  else .error .notBoolean

/-- Reads the name of a log format in either case. -/
def logFormatOf (s : List Char) : Except VariableError LogFormat :=
  let name := String.ofList (s.map Char.toLower)
  if name = "pretty" ∨ name = "text" then .ok .pretty
  else if name = "json" then .ok .json
  else .error (.unknownLogFormat name)

/-- The value of a variable, or a default where it is not set. -/
def lookUp {β : Type} (environment : String → Option String) (name : String) (default : β)
    (read : List Char → Except VariableError β) : Except WorkerSettingsError β :=
  match environment name with
  | some s => (read (trim s.toList)).mapError (.variable name)
  | none => .ok default

/-- Checks the settings of the hot path, then those of the sweep. -/
def validate (s : WorkerSettings) : Except WorkerSettingsError Unit := do
  s.ingest.validate.mapError .ingest
  s.sweep.validate.mapError .sweep

/-- The settings that the variables of an environment make. -/
def ofEnvironment (environment : String → Option String) :
    Except WorkerSettingsError WorkerSettings := do
  let get {β : Type} (name : String) (default : β) (read : List Char → Except VariableError β) :=
    lookUp environment name default read
  let sweep := SweepSettings.standard
  let port ← get "WEATHER_PORT" standard.port (number (UInt16.size - 1))
  let logFormat ← get "WEATHER_LOG_FORMAT" standard.logFormat logFormatOf
  let enabled ← get "WEATHER_FINALIZER_ENABLED" sweep.enabled boolean
  let period ← get "WEATHER_FINALIZER_INTERVAL_SECS" sweep.period duration
  let lookback ← get "WEATHER_LOOKBACK_HOURS" sweep.lookbackHours fun s =>
    (number (UInt32.size - 1) s).map UInt32.ofNat
  let budget ← get "WEATHER_TIME_BUDGET_SECS" sweep.timeBudget duration
  let pageSize ← get "WEATHER_PAGE_SIZE" sweep.pageSize fun s =>
    (number (UInt64.size - 1) s).map UInt64.ofNat
  let settings : WorkerSettings :=
    { standard with
      host := (environment "WEATHER_HOST").getD standard.host
      port := port
      logFormat := logFormat
      sweep := { sweep with
        enabled := enabled, period := period, lookbackHours := lookback, timeBudget := budget,
        pageSize := pageSize } }
  settings.validate
  return settings

/-- The address to listen to. -/
def address (s : WorkerSettings) : Except WorkerSettingsError SocketAddress :=
  match SocketAddress.ofText? (s.host ++ ":" ++ natText s.port) with
  | some a => .ok a
  | none => .error (.address s.host s.port)

end WorkerSettings

end WeatherStation
