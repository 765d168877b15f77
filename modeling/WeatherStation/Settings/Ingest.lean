import WeatherStation.Rain.Window
import WeatherStation.Text.Decimal

/-!
# Settings of the hot path

Bucket widths and merge modes of the views that readings are folded into.
-/

namespace WeatherStation

/-- Settings of the hot path. -/
structure IngestSettings where
  /-- Bucket width of the rain in the latest view. -/
  latestBucket : UInt32
  /-- Number of buckets in the latest view. -/
  latestSlots : UInt32
  /-- Bucket width of the rain in hourly views. -/
  hourlyBucket : UInt32
  /-- Bucket width of the rain in daily views. -/
  dailyBucket : UInt32
  latestMerge : MergeMode
  /-- Merge mode of hourly and daily views. -/
  windowMerge : MergeMode
  /-- How often a contested window is written before the conflict is reported. -/
  windowAttempts : UInt32
  deriving DecidableEq

/-- Why settings of the hot path are refused. -/
inductive IngestSettingsError where
  | zeroBucket
  | noAttempts
  | noLatestSlots
  | hourlyBucket (seconds : UInt32)
  | dailyBucket (seconds : UInt32)
  deriving DecidableEq

/-- The wording of a refusal of settings. -/
def IngestSettingsError.message : IngestSettingsError → String
  | .zeroBucket => "Bucket widths must be greater than zero"
  | .noAttempts => "Window writes need at least one attempt"
  | .noLatestSlots => "Latest window must have at least one slot"
  | .hourlyBucket s =>
    "Hourly bucket width " ++ Text.natText s.toNat ++ "s does not divide an hour"
  | .dailyBucket s =>
    "Daily bucket width " ++ Text.natText s.toNat ++ "s does not divide a day"

namespace IngestSettings

/-- Five-minute buckets for the latest hour and for hourly views, hourly buckets for days; the
    greatest amount counts in the latest view, the sum in the others. -/
def standard : IngestSettings where
  latestBucket := 300
  latestSlots := 12
  hourlyBucket := 300
  dailyBucket := 3600
  latestMerge := .max
  windowMerge := .sum
  windowAttempts := 3

/-- Number of slots in an hourly view; none for buckets without width. -/
def hourlySlots (s : IngestSettings) : Nat := 3600 / s.hourlyBucket.toNat

/-- Number of slots in a daily view; none for buckets without width. -/
def dailySlots (s : IngestSettings) : Nat := 86400 / s.dailyBucket.toNat

/-- The widths that every rain report is resampled to. -/
def bucketWidths (s : IngestSettings) : List UInt32 :=
  [s.latestBucket, s.hourlyBucket, s.dailyBucket]

/-- Checks that no width or count is zero and that buckets tile the hour and the day. -/
def validate (s : IngestSettings) : Except IngestSettingsError Unit :=
  if s.latestBucket = 0 ∨ s.hourlyBucket = 0 ∨ s.dailyBucket = 0 then .error .zeroBucket
  else if s.windowAttempts = 0 then .error .noAttempts
  else if s.latestSlots = 0 then .error .noLatestSlots
  else if 3600 % s.hourlyBucket.toNat ≠ 0 then .error (.hourlyBucket s.hourlyBucket)
  else if 86400 % s.dailyBucket.toNat ≠ 0 then .error (.dailyBucket s.dailyBucket)
  else .ok ()

end IngestSettings

end WeatherStation
