import WeatherStation.Store.Program

/-!
# Taking readings in

A reading replaces the latest view of its device and is folded into every hour and every day that
its instant or its rain touches. Windows are written under the condition that nobody wrote them
since they were read, and remember the names of the deliveries, so that a reading can be sent again.

* `Ingest.foldIntoWindow`: one window, retried after a conflict.
* `Ingest.updateWindows`: all windows of one width.
* `Ingest.apply`: the latest view, then the hours, then the days.
-/

namespace WeatherStation

/-- Why a reading is not taken in. -/
inductive IngestError where
  | invalidReading (checks : List ReadingCheck)
  | resample (error : ResampleError)
  | tally (error : TallyError)
  | store (error : StoreError)
  deriving DecidableEq

/-- The wording of a refusal of a reading. -/
def IngestError.message : IngestError → String
  | .invalidReading checks =>
    "Validation failed: " ++ "\n".intercalate (checks.map ReadingCheck.line)
  | .resample e => e.message
  | .tally e => e.message
  | .store e => e.message

/-- What a reading did to one window. -/
inductive WindowUpdate where
  | updated
  /-- The window had seen the delivery before. -/
  | duplicate
  /-- The window takes no more readings. -/
  | isSealed
  deriving DecidableEq

/-- The keys of the windows that a reading touched, by what it did to them. -/
structure WindowOutcome where
  updated : List String
  duplicates : List String
  closed : List String
  deriving DecidableEq

namespace WindowOutcome

/-- Nothing was touched. -/
def empty : WindowOutcome := ⟨[], [], []⟩

/-- Notes what happened to one more window. -/
def note (o : WindowOutcome) (key : String) : WindowUpdate → WindowOutcome
  | .updated => { o with updated := o.updated ++ [key] }
  | .duplicate => { o with duplicates := o.duplicates ++ [key] }
  | .isSealed => { o with closed := o.closed ++ [key] }

end WindowOutcome

/-- What a reading did. -/
structure IngestOutcome where
  device : String
  sourceId : String
  latestVersion : Version
  hourly : WindowOutcome
  daily : WindowOutcome
  deriving DecidableEq

namespace Ingest

variable {α : Type} [Quantity α]

/-- The refusal of a store, as the refusal of a reading. -/
def storeFailure (e : StoreError) : Failure IngestError := .refused (.store e)

/-- Replaces the latest view of the device. -/
def saveLatest (settings : IngestSettings) (r : Reading α) :
    Client α (Failure IngestError) Version := do
  let view ← Client.compute ((LatestView.ofReading settings r).mapError (Failure.map .resample))
  (Client.write (.latest view) .always).adapt storeFailure

/-- Reads the window that starts at `start`, folds a reading in and writes it back; the refusal of
    the write is handed on. -/
def attemptWindow (settings : IngestSettings) (g : Granularity) (r : Reading α)
    (buckets : Option (Buckets α)) (start : Instant) :
    Client α (Failure IngestError) (Except StoreError WindowUpdate) := do
  let stored ← (Client.getAs g.kind (View.window? g) (g.id r.device start).key).adapt storeFailure
  let window := stored.getD (.empty r.device start)
  if window.isSealed then return .ok .isSealed
  if window.applied.contains r.sourceId then return .ok .duplicate
  let folded ← Client.compute ((window.fold settings r buckets).mapError (Failure.map .tally))
  let written ← Client.tryWrite (.ofWindow folded) (.expecting folded.version)
  return written.map fun _ => .updated

/-- Folds a reading into the window that starts at `start`. After a conflict the window is read and
    written again, at most `retries` times. -/
def foldIntoWindow (settings : IngestSettings) (g : Granularity) (r : Reading α)
    (buckets : Option (Buckets α)) (start : Instant) :
    Nat → Client α (Failure IngestError) WindowUpdate
  | 0 => do
    match ← attemptWindow settings g r buckets start with
    | .ok update => return update
    | .error e => throw (storeFailure e)
  | retries + 1 => do
    match ← attemptWindow settings g r buckets start with
    | .ok update => return update
    | .error e =>
      if e.isConflict then foldIntoWindow settings g r buckets start retries
      else throw (storeFailure e)

/-- The starts of the windows that a reading touches: the window of its instant and those of the
    hours in which its rain fell. -/
def windowStarts (g : Granularity) (r : Reading α) (buckets : Option (Buckets α)) :
    Except ResampleError (SortedSet Instant) := do
  let first ← g.start r.time
  let hours := ((buckets.map affectedHours).getD SortedMap.empty).keys
  return SortedSet.ofList (first :: (← hours.mapM g.start))

/-- Folds a reading into windows of one width, one after the other. -/
def foldIntoWindows (settings : IngestSettings) (g : Granularity) (r : Reading α)
    (buckets : Option (Buckets α)) :
    List Instant → WindowOutcome → Client α (Failure IngestError) WindowOutcome
  | [], outcome => return outcome
  | start :: rest, outcome => do
    let update ← foldIntoWindow settings g r buckets start (settings.windowAttempts.toNat - 1)
    foldIntoWindows settings g r buckets rest (outcome.note (g.id r.device start).key update)

/-- Folds a reading into every window of one width that it touches. -/
def updateWindows (settings : IngestSettings) (g : Granularity) (r : Reading α) :
    Client α (Failure IngestError) WindowOutcome := do
  let buckets ← Client.compute <|
    (r.rain.mapM fun c => resample c c.unitValue (g.bucket settings)).mapError
      (Failure.map .resample)
  let starts ← Client.compute <|
    (windowStarts g r buckets).mapError fun e => .refused (.resample e)
  foldIntoWindows settings g r buckets starts.keys .empty

/-- Checks a reading before anything is written: its own rules, and that its rain can be resampled
    to every width. -/
def check (settings : IngestSettings) (r : Reading α) : Except IngestError Unit := do
  if r.brokenRules ≠ [] then throw (.invalidReading r.brokenRules)
  if let some c := r.rain then
    (settings.bucketWidths.forM (ensureSupported c.interval)).mapError .resample

/-- Takes a reading in. -/
def apply (settings : IngestSettings) (r : Reading α) :
    Client α (Failure IngestError) IngestOutcome := do
  Client.compute ((check settings r).mapError .refused)
  let version ← saveLatest settings r
  let hourly ← updateWindows settings .hourly r
  let daily ← updateWindows settings .daily r
  return ⟨r.device, r.sourceId, version, hourly, daily⟩

end Ingest

end WeatherStation
