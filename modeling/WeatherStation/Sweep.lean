import WeatherStation.Rollup

/-!
# The sweep

A sweep seals the days that start before a cutoff. It goes through them portion by portion: each
portion is sealed in memory, rolled up into its weeks, and only then written back, so that a sweep
that fails can be repeated.

* `Sweep.cutoff`: the start of the oldest day that stays open.
* `Sweep.page`: one portion.
* `Sweep.execute`: a whole sweep.
* `Sweep.every`: sweeps in fixed periods.
-/

namespace WeatherStation

/-- What a sweep did. -/
structure SweepResult where
  /-- False if the sweep had to stop. -/
  success : Bool
  /-- Days that were sealed. -/
  processed : Nat
  /-- Days that could not be sealed. -/
  failed : Nat
  /-- Days that somebody else wrote in between. -/
  skipped : Nat
  /-- Whether the time ran out. -/
  budgetExhausted : Bool
  /-- Why the sweep had to stop. -/
  error : Option String
  deriving DecidableEq

namespace SweepResult

/-- Nothing was done yet. -/
def start : SweepResult := ⟨true, 0, 0, 0, false, none⟩

/-- The sweep had to stop. -/
def critical (r : SweepResult) (message : String) : SweepResult :=
  { r with success := false, error := some message }

end SweepResult

namespace Sweep

variable {α : Type} [Quantity α]

/-- The start of the oldest day that stays open: some hours before the midnight before `now`. Where
    midnight cannot be computed, `now` stands for it. -/
def cutoff (now : Instant) (lookbackHours : UInt32) : Except Overflow Instant :=
  ((now.truncate? 86400).getD now).shiftSeconds (-((lookbackHours.toNat : Int) * 3600))

/-- Seals the days of a portion in memory. A day that cannot be sealed counts as failed. -/
def closeDays (days : List (DailyView α)) (result : SweepResult) :
    List (DailyView α) × SweepResult :=
  let closed := days.filterMap fun d => (DailyView.close.result d).toOption
  (closed, { result with failed := result.failed + (days.length - closed.length) })

/-- Counts what became of the write of a sealed day. -/
def countWrite (result : SweepResult) : Except StoreError Version → SweepResult
  | .ok _ => { result with processed := result.processed + 1 }
  | .error (.conflict _) => { result with skipped := result.skipped + 1 }
  | .error _ => { result with failed := result.failed + 1 }

/-- Writes sealed days back, each under the condition that nobody wrote it in between. -/
def persist : List (DailyView α) → SweepResult → Client α Overflow SweepResult
  | [], result => return result
  | d :: rest, result => do
    let written ← Client.tryWrite (.daily d) (.expecting d.version)
    persist rest (countWrite result written)

/-- How a sweep goes on after a portion. -/
inductive Step where
  | stop (result : SweepResult)
  | next (cursor : Cursor) (result : SweepResult)

/-- One portion of a sweep that began at `started`. -/
def page (settings : SweepSettings) (schedule : Rollup.Schedule α (Except RollupError String))
    (started cutoff : Instant) (cursor : Option Cursor) (result : SweepResult) :
    Client α Overflow Step := do
  let elapsed := (← Client.now).since started
  if elapsed > settings.timeBudget.nanoseconds then
    return .stop { result with budgetExhausted := true }
  let fetched ← ExceptT.lift (Program.request (.page cutoff settings.pageSize.toNat cursor))
  match fetched with
  | .error e => return .stop (result.critical ("Failed to fetch unfinalized days: " ++ e.message))
  | .ok page =>
    if page.days.isEmpty then return .stop result
    let (closed, result) := closeDays page.days result
    let rolled ← ExceptT.lift <|
      if closed.isEmpty then pure (.ok []) else (Rollup.syncDays settings schedule closed).run
    match rolled with
    | .error e => return .stop (result.critical ("Weekly rollup failed: " ++ e.message))
    | .ok _ =>
      let result ← persist closed result
      return match page.next with
        | some cursor => .next cursor result
        | none => .stop result

/-- Portion after portion, at most `limit` of them. -/
def pages (settings : SweepSettings) (schedule : Rollup.Schedule α (Except RollupError String))
    (started cutoff : Instant) :
    (limit : Nat) → Option Cursor → SweepResult → Client α Overflow SweepResult
  | 0, _, result => return result
  | limit + 1, cursor, result => do
    match ← page settings schedule started cutoff cursor result with
    | .stop result => return result
    | .next cursor result =>
      pages settings schedule started cutoff limit (some cursor) result

/-- Seals the days before the cutoff that the clock and the lookback determine, in at most `limit`
    portions. -/
def execute (settings : SweepSettings) (schedule : Rollup.Schedule α (Except RollupError String))
    (limit : Nat) (lookbackHours : UInt32) : Client α Overflow SweepResult := do
  let started ← Client.now
  let cutoff ← Client.compute (cutoff started lookbackHours)
  pages settings schedule started cutoff limit none .start

/-- Sweeps in fixed periods of milliseconds, at most `sweeps` of them. The first one waits for
    `wait` milliseconds and is then `late` milliseconds behind its period. A sweep that takes
    longer than the time to the next one delays that one, and those that were missed are left out.
    A number that leaves its range ends the sweeps. -/
def every (settings : SweepSettings) (schedule : Rollup.Schedule α (Except RollupError String))
    (limit period : Nat) : (sweeps wait late : Nat) → Program α Unit
  | 0, _, _ => return ()
  | sweeps + 1, wait, late => do
    Program.request (.pause wait)
    let (result, took) ← (execute settings schedule limit settings.lookbackHours).run.timed
    if result.isOk then
      let gap := period - late % period
      every settings schedule limit period sweeps (gap - took) (took - gap)

end Sweep

end WeatherStation
