import WeatherStation.Document.Outcome
import WeatherStation.Document.Reading
import WeatherStation.Document.View
import WeatherStation.Http.MediaType
import WeatherStation.Http.Route
import WeatherStation.Json.Reader
import WeatherStation.Settings.Worker

/-!
# The HTTP service

Readings are posted, views are looked up, and sweeps can be run.

* `Request.isWellFormed`: what a request has to look like to be a request at all.
* `lookUp`: a stored view.
* `dailyRange`: the stored days between two dates.
* `respond`: the program that answers a request.
-/

namespace WeatherStation.Http

open Document Text

/-- A request. -/
structure Request where
  method : String
  target : String
  contentType : Option String
  body : String
  deriving DecidableEq

/-- A response: its status and its JSON body, if it has one. -/
structure Response where
  status : Nat
  body : Option (Json Float)

/-- Whether a method, a target and a content type can stand in a request. -/
def Request.isWellFormed (r : Request) : Bool :=
  r.method ≠ "" && r.method.toList.all isTokenChar && (Target.ofText? r.target).isSome
    && (r.contentType.getD "").toList.all fun c => c = '\t' || (0x20 ≤ c.toNat && c.toNat ≠ 0x7F)

/-! ## Responses -/

/-- A response without a body. -/
def Response.bare (status : Nat) : Response := ⟨status, none⟩

/-- Success. -/
def Response.ok (v : Json Float) : Response := ⟨200, some v⟩

/-- The longest range of days that one request gets. -/
def maxRangeDays : Int := 366

/-- Why a request is refused. -/
inductive Refusal where
  | malformedBody
  /-- A parameter that cannot be read. -/
  | malformedParameter (name : String)
  | rangeReversed
  | rangeTooLong (days : Int)
  | notAWeek (year : Int32) (week : UInt32)
  | reading (error : IngestError)
  | store (error : StoreError)
  | notFound (key : String)
  deriving DecidableEq

namespace Refusal

/-- Status and kind of the refusal of a store. -/
def storeStatus : StoreError → Nat × String
  | .conflict _ => (409, "conflict")
  | _ => (500, "storage_error")

/-- The status of a refusal, and its kind in words for machines. -/
def status : Refusal → Nat × String
  | malformedBody => (400, "invalid_json")
  | malformedParameter _ => (400, "invalid_parameter")
  | rangeReversed => (400, "invalid_parameter")
  | rangeTooLong _ => (400, "invalid_parameter")
  | notAWeek _ _ => (400, "invalid_parameter")
  | reading (.invalidReading _) => (400, "validation_error")
  | reading (.resample _) => (422, "unsupported_resample")
  | reading (.tally _) => (422, "aggregate_error")
  | reading (.store e) => storeStatus e
  | store e => storeStatus e
  | notFound _ => (404, "not_found")

/-- The wording of a refusal. -/
def message : Refusal → String
  | malformedBody => "The body is not a reading"
  | malformedParameter name => "Invalid " ++ name
  | rangeReversed => "'from' must not be after 'to'"
  | rangeTooLong days =>
    "Range of " ++ intText days ++ " days exceeds the limit of " ++ intText maxRangeDays
  | notAWeek year week => IsoWeek.stamp ⟨year, week⟩ ++ " is not an ISO week"
  | reading e => e.message
  | store e => e.message
  | notFound key => "No aggregate stored under " ++ key

/-- The response to a refused request. -/
def response (r : Refusal) : Response :=
  ⟨r.status.1, some (.object [("error", .str r.status.2), ("message", .str r.message)])⟩

end Refusal

/-- A handler: a program that ends with a response, or with a refusal. -/
abbrev Handler := ExceptT (Failure Refusal) (Program Float)

/-- Refuses the request. -/
def refuse {β : Type} (r : Refusal) : Handler β := throw (.refused r)

/-! ## Views -/

/-- Looks a view of some kind up. -/
def lookUp (kind : ViewKind) (key : String) : Handler Response := do
  match ← (Client.getAs kind (fun v => if v.kind = kind then some v else none) key).adapt
      fun e => Failure.refused (Refusal.store e) with
  | some v => return .ok v.content
  | none => refuse (.notFound key)

/-- The days of a range, in order. The last day of the calendar is never reached. -/
def daysBetween (first last : Date) : List Date :=
  (List.range (last.day - first.day + 1).toNat).filterMap fun n : Nat =>
    if first.day + n < lastDay then Date.ofDay? (first.day + n) else none

/-- The first and the last day that a query asks for. -/
def rangeOf? (query : String) : Option (Date × Date) := do
  let fields := formFields query
  let first ← (← onlyField? fields "from").bind Date.ofText?
  let last ← (← onlyField? fields "to").bind Date.ofText?
  return (first, last)

/-- The stored days between two dates, with their number. -/
def dailyRange (device : String) (first last : Date) : Handler Response := do
  if last.day < first.day then refuse .rangeReversed
  let span := last.day - first.day + 1
  if maxRangeDays < span then refuse (.rangeTooLong span)
  let keys := (daysBetween first last).map fun d => (ViewId.daily device d).key
  let views ← (Client.readMany keys).adapt fun e => Failure.refused (Refusal.store e)
  let days := views.filterMap View.daily?
  return .ok (.object [("days", encodeList DailyView.encode days), ("count", .int days.length)])

/-- Year and week of a path. -/
def weekOf? (year week : String) : Option (Int32 × UInt32) := do
  let year ← (readInt (UInt32.size / 2 - 1) (← percentDecode? year).toList).toOption
  let week ← (readNat (UInt32.size - 1) (← percentDecode? week).toList).toOption
  return (Int32.ofInt year, UInt32.ofNat week)

/-! ## Readings, sweeps and health -/

/-- The longest body that is read, in bytes. -/
def maxBodyBytes : Nat := 2 * 1024 * 1024

/-- The reading that a request posts. -/
def Request.reading? (r : Request) : Option (Reading Float) := do
  guard (isJsonType (← r.contentType) && r.body.utf8ByteSize ≤ maxBodyBytes)
  Reading.decode? (← Json.ofText? r.body)

/-- Takes a posted reading in. -/
def ingest (settings : IngestSettings) (r : Request) : Handler Response := do
  match r.reading? with
  | none => refuse .malformedBody
  | some reading =>
    let outcome ← (Ingest.apply settings reading).adapt (Failure.map Refusal.reading)
    return .ok outcome.encode

/-- The lookback that a query asks for. -/
def lookbackOf? (standard : UInt32) (query : String) : Option UInt32 := do
  match ← onlyField? (formFields query) "lookback_hours" with
  | none => return standard
  | some s => return UInt32.ofNat (← (readNat (UInt32.size - 1) s.toList).toOption)

/-- Runs a sweep. -/
def finalize (settings : SweepSettings)
    (schedule : Rollup.Schedule Float (Except RollupError String)) (limit : Nat)
    (lookbackHours : UInt32) : Handler Response := do
  let result ← (Sweep.execute settings schedule limit lookbackHours).adapt Failure.overflow
  return ⟨if result.success then 200 else 500, some result.encode⟩

/-- What the worker says of itself. -/
def health (settings : ServiceSettings) : Response :=
  .ok <| .object
    [("status", .str "healthy"), ("service", .str "weather-worker"), ("version", .str "0.1.0"),
     ("finalizer_enabled", .bool settings.sweep.enabled),
     ("bucket_seconds", encodeList encodeUInt32 settings.ingest.bucketWidths)]

/-! ## Requests -/

/-- Answers a request for a resource. -/
def handle (settings : ServiceSettings)
    (schedule : Rollup.Schedule Float (Except RollupError String)) (limit : Nat) (r : Request)
    (query : String) : Route → Handler Response
  | .health => return health settings
  | .readings => ingest settings.ingest r
  | .latest device =>
    match percentDecode? device with
    | some device => lookUp .latest (ViewId.latest device).key
    | none => return .bare 400
  | .hourly device hour =>
    match percentDecode? device, percentDecode? hour with
    | some device, some hour =>
      match Instant.ofHourStamp? hour with
      | some t => lookUp .hourly (ViewId.hourly device t).key
      | none => refuse (.malformedParameter "hour")
    | _, _ => return .bare 400
  | .daily device date =>
    match percentDecode? device, percentDecode? date with
    | some device, some date =>
      match Date.ofStamp? date with
      | some d => lookUp .daily (ViewId.daily device d).key
      | none => refuse (.malformedParameter "date")
    | _, _ => return .bare 400
  | .dailyRange device =>
    match percentDecode? device, rangeOf? query with
    | some device, some (first, last) => dailyRange device first last
    | none, _ => refuse (.malformedParameter "device")
    | _, none => refuse (.malformedParameter "range")
  | .weekly device year week =>
    match percentDecode? device, weekOf? year week with
    | some device, some (year, week) =>
      match IsoWeek.ofParts year week with
      | .ok (some w) => lookUp .weekly (ViewId.weekly device w).key
      | .ok none => refuse (.notAWeek year week)
      | .error o => throw (.overflow o)
    | _, _ => refuse (.malformedParameter "week")
  | .finalization =>
    match lookbackOf? settings.sweep.lookbackHours query with
    | some lookback => finalize settings.sweep schedule limit lookback
    | none => refuse (.malformedParameter "lookback_hours")

/-- The response of a handler; a number that left its range has none. -/
def Handler.response (h : Handler Response) : Client Float Overflow Response :=
  ExceptT.mk do
    match ← h.run with
    | .ok r => return .ok r
    | .error (.refused r) => return .ok r.response
    | .error (.overflow o) => return .error o

/-- The program that answers a request. `limit` bounds the portions of a sweep. -/
def respond (settings : ServiceSettings)
    (schedule : Rollup.Schedule Float (Except RollupError String)) (limit : Nat) (r : Request) :
    Client Float Overflow Response :=
  match Target.ofText? r.target with
  | none => return .bare 400
  | some target =>
    match Route.ofSegments? target.segments with
    | none => return .bare 404
    | some route =>
      if !route.allows r.method then return .bare 405
      else do
        let response ←
          (handle settings schedule limit r (target.query.getD "") route).response
        return if r.method = "HEAD" then .bare response.status else response

end WeatherStation.Http
