import WeatherStation.Document.Rain
import WeatherStation.Settings.Ingest
import WeatherStation.Settings.Sweep

/-!
# Documents of settings
-/

namespace WeatherStation

open Document

variable {α : Type}

namespace IngestSettings

/-- The fields of the settings of the hot path. -/
def fields : List Field :=
  [⟨"latest_bucket_seconds", false⟩, ⟨"latest_slot_count", false⟩,
   ⟨"hourly_bucket_seconds", false⟩, ⟨"daily_bucket_seconds", false⟩,
   ⟨"latest_merge_mode", false⟩, ⟨"window_merge_mode", false⟩, ⟨"window_max_attempts", false⟩]

/-- The document of the settings of the hot path. -/
def encode (s : IngestSettings) : Json α :=
  .object
    [("latest_bucket_seconds", encodeUInt32 s.latestBucket),
     ("latest_slot_count", encodeUInt32 s.latestSlots),
     ("hourly_bucket_seconds", encodeUInt32 s.hourlyBucket),
     ("daily_bucket_seconds", encodeUInt32 s.dailyBucket),
     ("latest_merge_mode", s.latestMerge.encode),
     ("window_merge_mode", s.windowMerge.encode),
     ("window_max_attempts", encodeUInt32 s.windowAttempts)]

@[inherit_doc encode] def decode? (v : Json α) : Option IngestSettings := do
  match ← Record.read? fields v with
  | [latestBucket, latestSlots, hourly, daily, latestMerge, windowMerge, attempts] =>
    return {
      latestBucket := ← required decodeUInt32? latestBucket
      latestSlots := ← required decodeUInt32? latestSlots
      hourlyBucket := ← required decodeUInt32? hourly
      dailyBucket := ← required decodeUInt32? daily
      latestMerge := ← required MergeMode.decode? latestMerge
      windowMerge := ← required MergeMode.decode? windowMerge
      windowAttempts := ← required decodeUInt32? attempts }
  | _ => none

end IngestSettings

namespace Duration

/-- The document of a length of time. -/
def encode (d : Duration) : Json α :=
  .object [("secs", encodeUInt64 d.seconds), ("nanos", encodeUInt32 d.nanos)]

/-- The length of time of a document, which has no members but its own. -/
def decode? (v : Json α) : Option Duration := do
  if let .obj members := v then
    guard (members.all fun m => m.1.text == "secs" || m.1.text == "nanos")
  match ← Record.read? [⟨"secs", false⟩, ⟨"nanos", false⟩] v with
  | [seconds, nanos] =>
    ofParts? (← required decodeUInt64? seconds) (← required decodeUInt32? nanos)
  | _ => none

end Duration

namespace SweepSettings

/-- The fields of the settings of the sweep. -/
def fields : List Field :=
  [⟨"enabled", false⟩, ⟨"lookback_hours", false⟩, ⟨"time_budget", false⟩, ⟨"page_size", false⟩,
   ⟨"weekly_max_attempts", false⟩, ⟨"backoff_min_ms", false⟩, ⟨"backoff_max_ms", false⟩,
   ⟨"schedule_interval", false⟩]

/-- The document of the settings of the sweep. -/
def encode (s : SweepSettings) : Json α :=
  .object
    [("enabled", .bool s.enabled),
     ("lookback_hours", encodeUInt32 s.lookbackHours),
     ("time_budget", s.timeBudget.encode),
     ("page_size", encodeUInt64 s.pageSize),
     ("weekly_max_attempts", encodeUInt32 s.weeklyAttempts),
     ("backoff_min_ms", encodeUInt64 s.backoffMin),
     ("backoff_max_ms", encodeUInt64 s.backoffMax),
     ("schedule_interval", s.period.encode)]

@[inherit_doc encode] def decode? (v : Json α) : Option SweepSettings := do
  match ← Record.read? fields v with
  | [enabled, lookback, budget, pageSize, attempts, backoffMin, backoffMax, period] =>
    return {
      enabled := ← required Json.bool? enabled
      lookbackHours := ← required decodeUInt32? lookback
      timeBudget := ← required Duration.decode? budget
      pageSize := ← required decodeUInt64? pageSize
      weeklyAttempts := ← required decodeUInt32? attempts
      backoffMin := ← required decodeUInt64? backoffMin
      backoffMax := ← required decodeUInt64? backoffMax
      period := ← required Duration.decode? period }
  | _ => none

end SweepSettings

end WeatherStation
