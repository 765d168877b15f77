import WeatherStation.CommandLine.Report

/-!
# The program

Reads the arguments and the file that they name, and prints what the command reports.
-/

/-- The text of a file, if it can be read. -/
def WeatherStation.CommandLine.readFile? (path : String) : IO (Option String) := do
  try return some (← IO.FS.readFile path)
  catch _ => return none

open WeatherStation.CommandLine

/-- Runs the command that the arguments ask for. -/
def main (arguments : List String) : IO UInt32 := do
  let logVariable ← IO.getEnv "RUST_LOG"
  let outcome ← match Invocation.ofArguments (logVariable.getD "warn") arguments with
    | .error e => pure (Outcome.ofUsageError e)
    | .ok invocation =>
      let contents ← match invocation.command.file? with
        | some path => readFile? path
        | none => pure none
      pure (invocation.run (logVariable.getD "") contents)
  IO.print outcome.output
  IO.eprint outcome.errors
  return UInt32.ofNat outcome.status
