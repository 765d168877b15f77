import WeatherStation.Proofs.Http.Paths
import WeatherStation.Proofs.Store.Alone
import WeatherStation.Proofs.Sweep.WeekDays

/-!
# What is looked up is what was written

A look-up makes the key of a view anew, out of the texts in a path. Whatever readings and sweeps
have stored, the device of a view and the stretch of time in its date id lead back to its key. And
the days between two dates are looked up by the keys of all of these dates, so none is missed.

Results:
* `Http.Route.Names`: a path names a view.
* `Http.Visit.answer`: what a worker answers, with the store to itself.
* `Http.mem_daysBetween`, `Http.pairwise_daysBetween`: the dates of a range.
* `Http.mem_storedDays`, `Http.pairwise_storedDays`: the stored days of a range.
* `Http.lookups_agree`: look-ups in every store that readings and sweeps leave behind.
-/

namespace WeatherStation

variable {ι : Type}

namespace Http

/-! ## The dates of a range -/

variable {first last d : Date}

theorem ofDay?_eq_some {day : ℤ} : Date.ofDay? day = some d ↔ d.day = day := by
  constructor
  · intro h
    unfold Date.ofDay? at h
    split_ifs at h
    cases h
    rfl
  · rintro rfl
    exact dif_pos ⟨d.first_le, d.le_last⟩

theorem dayAfter_eq_some {n : ℕ} :
    (if first.day + n < lastDay then Date.ofDay? (first.day + n) else none) = some d ↔
      first.day + n < lastDay ∧ d.day = first.day + n := by
  split_ifs with h
  · simp [h, ofDay?_eq_some]
  · simp [h]

/-- The dates of a range are all that lie in it, but for the last day of the calendar. -/
theorem mem_daysBetween :
    d ∈ daysBetween first last ↔ first.day ≤ d.day ∧ d.day ≤ last.day ∧ d.day < lastDay := by
  simp only [daysBetween, List.mem_filterMap, List.mem_range, dayAfter_eq_some]
  constructor
  · rintro ⟨n, hn, hlt, hd⟩
    omega
  · rintro ⟨hfirst, hlast, hlt⟩
    exact ⟨(d.day - first.day).toNat, by omega, by omega, by omega⟩

/-- They come in order. -/
theorem pairwise_daysBetween (first last : Date) :
    (daysBetween first last).Pairwise fun d d' => d.day < d'.day := by
  refine List.pairwise_lt_range.filterMap _ fun n m hlt d hd d' hd' => ?_
  obtain ⟨-, hd⟩ := dayAfter_eq_some.1 hd
  obtain ⟨-, hd'⟩ := dayAfter_eq_some.1 hd'
  omega

/-- The days of a device that a store holds between two dates. -/
def storedDays (s : Store Float) (device : String) (first last : Date) : List (DailyView Float) :=
  (daysBetween first last).filterMap fun date =>
    (s.get? (ViewId.daily device date).key).bind View.daily?

/-! ## Handlers -/

section

variable {s : Store Float} {now : Except Overflow Instant} {c : Handler Response}

/-- What a handler responds. -/
theorem alone_response (c : Handler Response) :
    (c.response.alone now s).1 = match (Client.alone now c s).1 with
      | .ok r => .ok r
      | .error (.refused e) => .ok e.response
      | .error (.overflow o) => .error o := by
  simp only [Client.alone, Handler.response, ExceptT.run_mk, Program.run_bind]
  cases (Program.run (Store.reply now) c.run s).1 with
  | ok r => rfl
  | error e => cases e <;> rfl

/-- A view of the right kind is found. -/
theorem alone_lookUp {kind : ViewKind} {key : String} {v : View Float} (hv : s.get? key = some v)
    (hkind : v.kind = kind) : (Client.alone now (lookUp kind key) s).1 = .ok (.ok v.content) := by
  have hlook : Client.look s kind (fun v => if v.kind = kind then some v else none) key =
      .ok (some v) := by
    rw [Client.look, hv]
    simp only [if_pos hkind]
  rw [lookUp, Client.alone_bind, Client.alone_adapt, Client.alone_getAs, hlook]
  rfl

/-- All keys of a range are looked up in order. -/
theorem filterMap_readMany (device : String) :
    (s.readMany ((daysBetween first last).map fun d => (ViewId.daily device d).key)).filterMap
      View.daily? = storedDays s device first last := by
  rw [Store.readMany, List.filterMap_filterMap, List.filterMap_map]
  rfl

theorem alone_dailyRange_reversed {device : String} (h : last.day < first.day) :
    (Client.alone now (dailyRange device first last) s).1 = .error (.refused .rangeReversed) := by
  rw [dailyRange, if_pos h]
  rfl

theorem alone_dailyRange_tooLong {device : String} (h : ¬ last.day < first.day)
    (hlong : maxRangeDays < last.day - first.day + 1) :
    (Client.alone now (dailyRange device first last) s).1 =
      .error (.refused (.rangeTooLong (last.day - first.day + 1))) := by
  rw [dailyRange, if_neg h]
  dsimp only
  rw [if_pos hlong]
  rfl

/-- The stored days of a range that is not refused, and their number. -/
theorem alone_dailyRange {device : String} (h : ¬ last.day < first.day)
    (hlong : ¬ maxRangeDays < last.day - first.day + 1) :
    (Client.alone now (dailyRange device first last) s).1 =
      .ok (.ok (.object
        [("days", Document.encodeList DailyView.encode (storedDays s device first last)),
          ("count", .int (storedDays s device first last).length)])) := by
  rw [← filterMap_readMany, dailyRange, if_neg h]
  dsimp only
  rw [if_neg hlong]
  rfl

end

/-! ## Visits -/

/-- A request to a worker that has the store to itself. -/
structure Visit where
  settings : ServiceSettings
  schedule : Rollup.Schedule Float (Except RollupError String)
  limit : ℕ
  request : Request
  query : String
  now : Except Overflow Instant

/-- What the worker answers if the request is for a resource. -/
def Visit.answer (c : Visit) (s : Store Float) (route : Route) : Except Overflow Response :=
  ((handle c.settings c.schedule c.limit c.request c.query route).response.alone c.now s).1

/-- A path names a view by its device and by the stretch of time that its date id shows. -/
inductive Route.Names : Route → View Float → Prop
  | hourly {device hour stamp : String} {w : HourlyView Float}
    (hdevice : percentDecode? device = some w.device) (hhour : percentDecode? hour = some stamp)
    (hid : w.id.dateId = "H" ++ stamp) : Names (.hourly device hour) (.hourly w)
  | daily {device date stamp : String} {d : DailyView Float}
    (hdevice : percentDecode? device = some d.device) (hdate : percentDecode? date = some stamp)
    (hid : d.id.dateId = "D" ++ stamp) : Names (.daily device date) (.daily d)
  | weekly {device year week writtenYear writtenWeek : String} {w : WeeklyView Float}
    (hdevice : percentDecode? device = some w.device)
    (hyear : percentDecode? year = some writtenYear)
    (hweek : percentDecode? week = some writtenWeek)
    (hid : w.id.dateId = "W" ++ (writtenYear ++ "-W" ++ writtenWeek)) :
    Names (.weekly device year week) (.weekly w)

/-- Hours, days and weeks can be named. -/
theorem Route.exists_names {v : View Float} (hv : v.Named) (hkind : v.kind ≠ .latest) :
    ∃ route : Route, route.Names v := by
  cases v with
  | latest v => exact absurd rfl hkind
  | hourly w => exact ⟨_, .hourly (percentDecode?_percentEncode _) (percentDecode?_percentEncode _)
      (congrArg ViewId.dateId hv)⟩
  | daily d => exact ⟨_, .daily (percentDecode?_percentEncode _) (percentDecode?_percentEncode _)
      (congrArg ViewId.dateId hv)⟩
  | weekly w => exact ⟨_, .weekly (percentDecode?_percentEncode _)
      (percentDecode?_percentEncode _) (percentDecode?_percentEncode _)
      (congrArg ViewId.dateId hv)⟩

/-- A path that names a view leads to its key. -/
theorem Route.Names.handle_eq {route : Route} {v : View Float} (hn : route.Names v) (hv : v.Named)
    (hweek : ∀ w, v = .weekly w → IsoWeek.ofParts w.week.year w.week.week = .ok (some w.week))
    (c : Visit) :
    handle c.settings c.schedule c.limit c.request c.query route = lookUp v.kind v.key := by
  cases hn with
  | @hourly device hour stamp w hdevice hhour hid =>
    have hv : w.id = ViewId.hourly w.device w.start := hv
    have hstamp : w.start.hourStamp = stamp := by
      rw [hv] at hid
      exact (String.append_right_inj "H").1 hid
    -- The instant that is read need not be the start of the hour, but it lies in the hour.
    obtain ⟨t, ht, hsame⟩ := w.start.ofHourStamp?_hourStamp
    rw [hstamp] at ht
    have hid : ViewId.hourly w.device t = w.id := by
      rw [hv, ViewId.hourly, hsame]
      rfl
    simp only [handle, hdevice, hhour, ht, hid]
    rfl
  | @daily device date stamp d hdevice hdate hid =>
    have hv : d.id = ViewId.daily d.device d.start.date := hv
    have hstamp : d.start.date.stamp = stamp := by
      rw [hv] at hid
      exact (String.append_right_inj "D").1 hid
    have hread := d.start.date.ofStamp?_stamp
    rw [hstamp] at hread
    simp only [handle, hdevice, hdate, hread, ← hv]
    rfl
  | @weekly device year week writtenYear writtenWeek w hdevice hyear hnumber hid =>
    have hv : w.id = ViewId.weekly w.device w.week := hv
    have hstamp : w.week.stamp = writtenYear ++ "-W" ++ writtenWeek := by
      rw [hv] at hid
      exact (String.append_right_inj "W").1 hid
    obtain ⟨rfl, rfl⟩ := IsoWeek.stamp_eq_append hstamp
    simp only [handle, hdevice, weekOf?_eq_some hyear hnumber, hweek w rfl, ← hv]
    rfl

section

variable {c : Visit} {s : Store Float}

/-- What is stored under its key is what is answered. -/
theorem Visit.answer_eq_content {route : Route} {v : View Float}
    (hroute : handle c.settings c.schedule c.limit c.request c.query route = lookUp v.kind v.key)
    (hv : s.get? v.key = some v) : c.answer s route = .ok (.ok v.content) := by
  rw [answer, hroute, alone_response, alone_lookUp hv rfl]

/-- Days are stored under their device and a date, which is not the last one of the calendar. -/
def DaysNamed (s : Store Float) : Prop :=
  ∀ device date d, s.get? (ViewId.daily device date).key = some (.daily d) →
    d.device = device ∧ d.id = ViewId.daily device date ∧ date.day < lastDay

/-- The stored days of a range. -/
theorem mem_storedDays (hs : DaysNamed s) {device : String} {first last : Date}
    {d : DailyView Float} :
    d ∈ storedDays s device first last ↔
      d.device = device ∧ ∃ date : Date, (first.day ≤ date.day ∧ date.day ≤ last.day) ∧
        s.get? (ViewId.daily device date).key = some (.daily d) := by
  simp only [storedDays, List.mem_filterMap, View.bind_daily?_eq_some, mem_daysBetween]
  constructor
  · rintro ⟨date, ⟨hfirst, hlast, -⟩, hd⟩
    exact ⟨(hs device date d hd).1, date, ⟨hfirst, hlast⟩, hd⟩
  · rintro ⟨-, date, ⟨hfirst, hlast⟩, hd⟩
    exact ⟨date, ⟨hfirst, hlast, (hs device date d hd).2.2⟩, hd⟩

/-- They come in the order of the dates in their keys. -/
theorem pairwise_storedDays (hs : DaysNamed s) (device : String) (first last : Date) :
    (storedDays s device first last).Pairwise fun d d' => ∃ date date' : Date,
      d.id = ViewId.daily device date ∧ d'.id = ViewId.daily device date' ∧
        date.day < date'.day := by
  refine (pairwise_daysBetween first last).filterMap _ fun date date' hlt d hd d' hd' => ?_
  have hid := (hs device date d (View.bind_daily?_eq_some.1 hd)).2.1
  have hid' := (hs device date' d' (View.bind_daily?_eq_some.1 hd')).2.1
  exact ⟨date, date', hid, hid', hlt⟩

/-- What a request for a range of days is answered: it is refused, or gets the stored days. -/
theorem Visit.answer_dailyRange {rawDevice device : String} {first last : Date}
    (hdevice : percentDecode? rawDevice = some device)
    (hrange : rangeOf? c.query = some (first, last)) :
    ∃ r, c.answer s (.dailyRange rawDevice) = .ok r ∧
      (r.status = 400 ↔ last.day < first.day ∨ 366 < last.day - first.day + 1) ∧
      (r.status ≠ 400 → r = .ok (.object
        [("days", Document.encodeList DailyView.encode (storedDays s device first last)),
          ("count", .int (storedDays s device first last).length)])) := by
  have hanswer : c.answer s (.dailyRange rawDevice) =
      ((dailyRange device first last).response.alone c.now s).1 := by
    simp only [answer, handle, hdevice, hrange]
  rw [hanswer, alone_response]
  by_cases hreversed : last.day < first.day
  · rw [alone_dailyRange_reversed hreversed]
    exact ⟨_, rfl, ⟨fun _ => .inl hreversed, fun _ => rfl⟩, fun h => absurd rfl h⟩
  by_cases hlong : maxRangeDays < last.day - first.day + 1
  · rw [alone_dailyRange_tooLong hreversed hlong]
    exact ⟨_, rfl, ⟨fun _ => .inr hlong, fun _ => rfl⟩, fun h => absurd rfl h⟩
  · rw [alone_dailyRange hreversed hlong]
    have hok : ¬ (200 = 400) := by decide
    exact ⟨_, rfl, ⟨fun h => absurd h hok, fun h => absurd h (not_or.2 ⟨hreversed, hlong⟩)⟩,
      fun _ => rfl⟩

end

/-! ## Every run -/

variable [DecidableEq ι]

/-- Readings and sweeps store days under such keys. -/
theorem daysNamed_of_jobs (jobs : ι → Job Float) (moves : List (Move ι)) :
    DaysNamed ((Traffic.start fun i => (jobs i).program).run moves).history.store := by
  intro device date d hd
  obtain ⟨hid, hkey⟩ := (Sweep.rooted_of_jobs jobs moves).orderly.get?_named hd
  have hid : d.id = ViewId.daily d.device d.start.date := hid
  have hkey : d.id.key = (ViewId.daily device date).key := hkey
  rw [hid] at hkey
  obtain ⟨rfl, rfl⟩ := ViewId.daily_key_inj hkey
  have hstart := (Sweep.inherits_of_jobs (WindowView.inherited_startsAt _) moves).get?
    (WindowView.inherited_startsAt _) (g := .daily) hd
  exact ⟨rfl, hid, hstart.date_bounds.2⟩

/-- What readings and sweeps have stored can be looked up. Hours, days and weeks are found where
    their date ids say. A range of days is refused only if it is reversed or too long; otherwise it
    gets all stored days of the device whose keys show a date between its ends, in order. -/
theorem lookups_agree (jobs : ι → Job Float) (moves : List (Move ι)) (c : Visit) :
    let s := ((Traffic.start fun i => (jobs i).program).run moves).history.store
    (∀ key v, s.get? key = some v →
      (∀ route : Route, route.Names v → c.answer s route = .ok (.ok v.content)) ∧
        (v.kind ≠ .latest → ∃ route : Route, route.Names v)) ∧
    (∀ rawDevice device first last, percentDecode? rawDevice = some device →
      rangeOf? c.query = some (first, last) →
        ∃ r, c.answer s (.dailyRange rawDevice) = .ok r ∧
          (r.status = 400 ↔ last.day < first.day ∨ 366 < last.day - first.day + 1) ∧
          (r.status ≠ 400 → ∃ days, r = .ok (.object
              [("days", Document.encodeList DailyView.encode days), ("count", .int days.length)]) ∧
            (∀ d, d ∈ days ↔ d.device = device ∧ ∃ date : Date,
              (first.day ≤ date.day ∧ date.day ≤ last.day) ∧
                s.get? (ViewId.daily device date).key = some (.daily d)) ∧
            days.Pairwise fun d d' => ∃ date date' : Date, d.id = ViewId.daily device date ∧
              d'.id = ViewId.daily device date' ∧ date.day < date'.day)) := by
  intro s
  refine ⟨fun key v hv => ?_, fun rawDevice device first last hdevice hrange => ?_⟩
  · obtain ⟨hnamed, rfl⟩ := (Sweep.rooted_of_jobs jobs moves).orderly.get?_named hv
    refine ⟨fun route hroute => ?_, Route.exists_names hnamed⟩
    refine Visit.answer_eq_content (hroute.handle_eq hnamed (fun w hw => ?_) c) hv
    exact Sweep.ofParts_of_stored jobs moves (hw ▸ hv)
  · obtain ⟨r, hr, hstatus, hdays⟩ := Visit.answer_dailyRange (s := s) hdevice hrange
    have hs : DaysNamed s := daysNamed_of_jobs jobs moves
    exact ⟨r, hr, hstatus, fun h => ⟨_, hdays h, fun d => mem_storedDays hs,
      pairwise_storedDays hs device first last⟩⟩

/-- A reading of 11 September 2025, 15:30, without measurements. -/
def bareReading : Reading Float where
  device := "dev"
  source := some "first"
  time := (Instant.ofSeconds? 1757604600).get (by decide)
  values := ⟨none, none, none⟩
  rain := none

/-- The ends of a range around the day of the reading. -/
def september : Date × Date :=
  ((Date.ofCivil? 2025 9 1).get (by decide), (Date.ofCivil? 2025 9 30).get (by decide))

/-- A request for these days. -/
def septemberVisit : Visit where
  settings := ⟨.standard, .standard⟩
  schedule := Rollup.turns .standard
  limit := 1
  request := ⟨"GET", "/", none, ""⟩
  query := rangeQuery september.1 september.2
  now := .ok ((Instant.ofSeconds? 1757750400).get (by decide))

theorem exists_window {α β : Type} {g : Granularity} {v : Option (View α)}
    {f : WindowView g α → β} {x : β} (h : (v.bind (View.window? g)).map f = some x) :
    ∃ w, v = some (.ofWindow w) ∧ f w = x := by
  obtain ⟨w, hw, hx⟩ := Option.map_eq_some_iff.1 h
  obtain ⟨u, rfl, hu⟩ := Option.bind_eq_some_iff.1 hw
  exact ⟨w, congrArg some (View.eq_ofWindow_of_window? hu), hx⟩

/-- A reading and a sweep: the hour, the day and the week, and the days of the month. -/
theorem lookups_of_reading :
    let jobs : Fin 2 → Job Float := ![.reading .standard bareReading, .takingTurns .standard 1]
    let s := ((Traffic.start fun i => (jobs i).program).run
      (Sweep.twoDaysLater [0, 0, 0, 0, 0, 1, 1, 1, 1, 1, 1])).history.store
    ∃ hour day week days,
      septemberVisit.answer s (.hourly "dev" "2025-09-11T15") =
        .ok (.ok (View.hourly hour).content) ∧
      septemberVisit.answer s (.daily "dev" "2025-09-11") = .ok (.ok (View.daily day).content) ∧
      septemberVisit.answer s (.weekly "dev" "2025" "37") =
        .ok (.ok (View.weekly week).content) ∧
      septemberVisit.answer s (.dailyRange "dev") = .ok (.ok (.object
        [("days", Document.encodeList DailyView.encode days), ("count", .int days.length)])) ∧
      day ∈ days := by
  intro jobs s
  have hagree := lookups_agree jobs (Sweep.twoDaysLater [0, 0, 0, 0, 0, 1, 1, 1, 1, 1, 1])
    septemberVisit
  have hdevice : percentDecode? "dev" = some "dev" := by decide +kernel
  have hhour : ((s.get? "dev|hourly|2025-09-11T15").bind (View.window? .hourly)).map
      (fun w => (w.device, w.id.dateId)) = some ("dev", "H" ++ "2025-09-11T15") := by
    decide +kernel
  have hday : ((s.get? "dev|daily|2025-09-11").bind (View.window? .daily)).map
      (fun d => (d.device, d.id.dateId)) = some ("dev", "D" ++ "2025-09-11") := by decide +kernel
  have hweek : ((s.get? "dev|weekly|2025-W37").bind (View.ofKind? .weekly)).map
      (fun w => (w.device, w.id.dateId)) = some ("dev", "W" ++ ("2025" ++ "-W" ++ "37")) := by
    decide +kernel
  obtain ⟨hour, hhour, hfacts⟩ := exists_window hhour
  obtain ⟨hhourDevice, hhourId⟩ := Prod.mk.inj hfacts
  obtain ⟨day, hday, hfacts⟩ := exists_window hday
  obtain ⟨hdayDevice, hdayId⟩ := Prod.mk.inj hfacts
  obtain ⟨week, hv, hfacts⟩ := Option.map_eq_some_iff.1 hweek
  obtain ⟨v, hweek, hkind⟩ := Option.bind_eq_some_iff.1 hv
  rw [View.eq_weekly_of_ofKind? hkind] at hweek
  obtain ⟨hweekDevice, hweekId⟩ := Prod.mk.inj hfacts
  obtain ⟨r, hr, hstatus, hdays⟩ := hagree.2 "dev" "dev" _ _ hdevice
    (rangeOf?_rangeQuery september.1 september.2)
  obtain ⟨days, rfl, hmem, -⟩ := hdays (fun h => absurd (hstatus.1 h) (by decide +kernel))
  refine ⟨hour, day, week, days, (hagree.1 _ _ hhour).1 _ (.hourly ?_ ?_ hhourId),
    (hagree.1 _ _ hday).1 _ (.daily ?_ ?_ hdayId),
    (hagree.1 _ _ hweek).1 _ (.weekly ?_ ?_ ?_ hweekId), hr, (hmem day).2 ⟨hdayDevice, ?_⟩⟩
  · rw [hhourDevice, hdevice]
  · decide +kernel
  · rw [hdayDevice, hdevice]
  · decide +kernel
  · rw [hweekDevice, hdevice]
  · decide +kernel
  · decide +kernel
  · have hkey : (ViewId.daily "dev" ((Date.ofCivil? 2025 9 11).get (by decide))).key =
        "dev|daily|2025-09-11" := by decide +kernel
    exact ⟨_, by decide +kernel, hkey ▸ hday⟩

end Http

end WeatherStation
