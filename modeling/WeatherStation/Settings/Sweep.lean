import WeatherStation.Text.Decimal

/-!
# Settings of the sweep

Which days are sealed, in what portions, for how long, and how contested weeks are retried.
-/

namespace WeatherStation

/-- A length of time: whole seconds and nanoseconds below `10^9`. -/
structure Duration where
  seconds : UInt64
  nanos : UInt32
  nanos_lt : nanos.toNat < 1000000000 := by decide
  deriving DecidableEq

namespace Duration

/-- A whole number of seconds. -/
def ofSeconds (seconds : UInt64) : Duration where
  seconds := seconds
  nanos := 0

/-- Seconds and nanoseconds, of which whole seconds are carried over if 64 bits hold them. -/
def ofParts? (seconds : UInt64) (nanos : UInt32) : Option Duration :=
  let carried := seconds.toNat + nanos.toNat / 1000000000
  if carried < UInt64.size then
    some ⟨UInt64.ofNat carried, nanos % 1000000000, by
      rw [UInt32.toNat_mod]; exact Nat.mod_lt _ (by decide)⟩
  else none

/-- The length in nanoseconds. -/
def nanoseconds (d : Duration) : Nat := d.seconds.toNat * 1000000000 + d.nanos.toNat

end Duration

/-- Settings of the sweep and the weekly rollup. -/
structure SweepSettings where
  /-- Whether the sweep runs on a schedule. -/
  enabled : Bool
  /-- Hours before midnight that stay open. -/
  lookbackHours : UInt32
  /-- How long one sweep may take. -/
  timeBudget : Duration
  /-- Days in one portion. -/
  pageSize : UInt64
  /-- How often a contested week is written before the sweep fails. -/
  weeklyAttempts : UInt32
  /-- The shortest pause after a conflict, in milliseconds. -/
  backoffMin : UInt64
  /-- The longest pause after a conflict, in milliseconds. -/
  backoffMax : UInt64
  /-- The time between scheduled sweeps. -/
  period : Duration
  deriving DecidableEq

/-- Why settings of the sweep are refused. -/
inductive SweepSettingsError where
  | zeroPageSize
  | noAttempts
  | backoff (min max : UInt64)
  | zeroPeriod
  deriving DecidableEq

/-- The wording of a refusal of settings. -/
def SweepSettingsError.message : SweepSettingsError → String
  | .zeroPageSize => "Page size must be greater than zero"
  | .noAttempts => "Weekly rollup needs at least one attempt"
  | .backoff min max =>
    "Backoff minimum " ++ Text.natText min.toNat ++ "ms exceeds maximum "
      ++ Text.natText max.toNat ++ "ms"
  | .zeroPeriod => "Schedule interval must be greater than zero"

namespace SweepSettings

/-- One day stays open, a sweep takes nine minutes and portions of a hundred days, a week is tried
    five times with pauses of 10 to 100 milliseconds, and there is one sweep a day. -/
def standard : SweepSettings where
  enabled := true
  lookbackHours := 24
  timeBudget := .ofSeconds 540
  pageSize := 100
  weeklyAttempts := 5
  backoffMin := 10
  backoffMax := 100
  period := .ofSeconds 86400

/-- How often a contested week is written, which is at least once. -/
def attempts (s : SweepSettings) : Nat := max 1 s.weeklyAttempts.toNat

/-- The pause after a conflict in milliseconds, as short as its bounds allow. -/
def pause (s : SweepSettings) : Nat := min s.backoffMin.toNat s.backoffMax.toNat

/-- Checks that no size, count or period is zero and that the bounds of the pause are in order. -/
def validate (s : SweepSettings) : Except SweepSettingsError Unit :=
  if s.pageSize = 0 then .error .zeroPageSize
  else if s.weeklyAttempts = 0 then .error .noAttempts
  else if s.backoffMin > s.backoffMax then .error (.backoff s.backoffMin s.backoffMax)
  else if s.period.nanoseconds = 0 then .error .zeroPeriod
  else .ok ()

end SweepSettings

end WeatherStation
