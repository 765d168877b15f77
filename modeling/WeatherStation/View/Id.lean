import WeatherStation.Time.Format

/-!
# View ids

Every view is stored under a key made of its device, its kind and its stretch of time in UTC. A
shorter date id stands beside it.
-/

namespace WeatherStation

/-- The storage key and the date id of a view. -/
structure ViewId where
  key : String
  dateId : String
  deriving DecidableEq

namespace ViewId

/-- The latest view of a device. -/
def latest (device : String) : ViewId := ⟨device ++ "|latest", "latest"⟩

/-- The view of the hour around an instant. -/
def hourly (device : String) (t : Instant) : ViewId :=
  ⟨device ++ "|hourly|" ++ t.hourStamp, "H" ++ t.hourStamp⟩

/-- The view of a day. -/
def daily (device : String) (d : Date) : ViewId :=
  ⟨device ++ "|daily|" ++ d.stamp, "D" ++ d.stamp⟩

/-- The view of a week. -/
def weekly (device : String) (w : IsoWeek) : ViewId :=
  ⟨device ++ "|weekly|" ++ w.stamp, "W" ++ w.stamp⟩

/-- The view of the month around a day. -/
def monthly (device : String) (d : Date) : ViewId :=
  ⟨device ++ "|monthly|" ++ d.monthStamp, "M" ++ d.monthStamp⟩

/-- The ids of the views that a reading of an instant belongs to, with the names of their kinds. -/
def all (device : String) (t : Instant) : List (String × ViewId) :=
  [("latest", latest device),
   ("hourly", hourly device t),
   ("daily", daily device t.date),
   ("weekly", weekly device (IsoWeek.of t.date)),
   ("monthly", monthly device t.date)]

end ViewId

end WeatherStation
