import WeatherStation.Http.Percent
import WeatherStation.Http.Target

/-!
# Routes

The resources that a worker serves. A parameter at the end of a path is never empty.

* `Route.ofSegments?`: the resource that a path names, with its parameters as they are written.
-/

namespace WeatherStation.Http

/-- A resource, with its undecoded parameters. -/
inductive Route where
  | health
  | readings
  | latest (device : String)
  | hourly (device hour : String)
  | daily (device date : String)
  | dailyRange (device : String)
  | weekly (device year week : String)
  | finalization
  deriving DecidableEq

namespace Route

/-- The resource of a device. -/
def ofDevice? (device : String) : List String → Option Route
  | ["latest"] => some (latest device)
  | ["hourly", hour] => if hour = "" then none else some (hourly device hour)
  | ["daily"] => some (dailyRange device)
  | ["daily", date] => if date = "" then none else some (daily device date)
  | ["weekly", year, week] => if week = "" then none else some (weekly device year week)
  | _ => none

/-- The resource that the parts of a path name. -/
def ofSegments? : List String → Option Route
  | ["", "health"] => some health
  | ["", "api", "v1", "readings"] => some readings
  | ["", "api", "v1", "finalization", "run"] => some finalization
  | "" :: "api" :: "v1" :: "devices" :: device :: rest => ofDevice? device rest
  | _ => none

/-- Whether a resource takes a method: readings and finalization are posted, everything else is
    got. -/
def allows : Route → String → Bool
  | readings, method => method == "POST"
  | finalization, method => method == "POST"
  | _, method => method == "GET" || method == "HEAD"

end Route

end WeatherStation.Http
