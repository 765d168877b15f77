import WeatherStation.Settings.Sweep
import WeatherStation.Store.Turns

/-!
# The weekly rollup

Sealed days are written into the weeks of their devices. The weeks are independent of each other
and are written side by side; a week that somebody else wrote in between is read and written again
after a pause.

* `Rollup.syncWeek`: one week.
* `Rollup.syncDays`: all weeks of some days.
-/

namespace WeatherStation

/-- Why a rollup fails. -/
inductive RollupError where
  /-- Every attempt to write a week met a conflict. -/
  | retriesExhausted (device : String) (week : IsoWeek) (attempts : Nat)
  | store (error : StoreError)
  | day (error : ApplyDayError)
  deriving DecidableEq

/-- The wording of a rollup's failure. -/
def RollupError.message : RollupError → String
  | .retriesExhausted device week attempts =>
    "Failed to update week " ++ week.stamp ++ " for " ++ device ++ " after "
      ++ Text.natText attempts ++ " attempts"
  | .store e => e.message
  | .day e => e.message

namespace Rollup

variable {α : Type} [Quantity α]

/-- The days of one device in one week, in the order given. -/
abbrev Groups (α : Type) := SortedMap (String × IsoWeek) (List (DailyView α))

/-- Groups days by device and week. -/
def group (days : List (DailyView α)) : Groups α :=
  days.foldl (fun groups d =>
    let owner := (d.device, IsoWeek.of d.start.date)
    groups.insert owner ((groups.find? owner).getD [] ++ [d])) SortedMap.empty

/-- Writes days into a week, in order. -/
def applyDays (days : List (DailyView α)) (w : WeeklyView α) :
    Except ApplyDayError (WeeklyView α) :=
  days.foldlM (fun w d => (WeeklyView.applyDay d).result w) w

/-- Reads a week, writes days into it and writes it back; the refusal of the write is handed on. -/
def attemptWeek (device : String) (week : IsoWeek) (days : List (DailyView α)) :
    Client α RollupError (Except StoreError Version) := do
  let key := (ViewId.weekly device week).key
  let stored ← (Client.getAs .weekly (View.ofKind? .weekly) key).adapt RollupError.store
  let written ← Client.compute
    ((applyDays days (stored.getD (.empty device week))).mapError RollupError.day)
  Client.tryWrite (.weekly written) (.expecting written.version)

/-- Writes days into their stored week and gives its key. After a conflict and a pause the week is
    read and written again, at most `retries` times. -/
def syncWeek (settings : SweepSettings) (device : String) (week : IsoWeek)
    (days : List (DailyView α)) : (retries : Nat) → Client α RollupError String
  | 0 => do
    match ← attemptWeek device week days with
    | .ok _ => return (ViewId.weekly device week).key
    | .error e =>
      throw (if e.isConflict then .retriesExhausted device week settings.attempts else .store e)
  | retries + 1 => do
    match ← attemptWeek device week days with
    | .ok _ => return (ViewId.weekly device week).key
    | .error e =>
      if e.isConflict then do
        Client.pause settings.pause
        syncWeek settings device week days retries
      else throw (.store e)

/-- A way to run programs side by side: the results in the order in which the programs finish. -/
abbrev Schedule (α β : Type) := List (Program α β) → Program α (List β)

/-- Weeks take turns. Every turn is an attempt to write, so there is one for each attempt. -/
def turns {β : Type} (settings : SweepSettings) : Schedule α β := fun programs =>
  Program.together (settings.attempts * programs.length) programs

/-- The programs that write the weeks of some days. -/
def tasks (settings : SweepSettings) (days : List (DailyView α)) :
    List (Program α (Except RollupError String)) :=
  (group days).entries.map fun g =>
    (syncWeek settings g.1.1 g.1.2 g.2 (settings.attempts - 1)).run

/-- Writes sealed days into their weeks and gives the keys of these weeks in order. All weeks are
    tried; the failure that came first is the result. -/
def syncDays (settings : SweepSettings) (schedule : Schedule α (Except RollupError String))
    (days : List (DailyView α)) : Client α RollupError (List String) := do
  let results ← ExceptT.lift (schedule (tasks settings days))
  let keys ← Client.compute (results.mapM fun r => r)
  return keys.mergeSort fun a b => decide (a ≤ b)

end Rollup

end WeatherStation
