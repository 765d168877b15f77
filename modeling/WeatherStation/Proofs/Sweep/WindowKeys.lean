import WeatherStation.Proofs.Ingest.Contention
import WeatherStation.Proofs.Ingest.Starts
import WeatherStation.Proofs.Sweep.Inherited
import WeatherStation.Proofs.Time.LeapSeconds

/-!
# Keys and stretches of time

A window is known by its key, which is made from the date and the hour of an instant, and by its
stretch of time, which begins at its start. Readings and sweeps keep the two together: a window
contains the instants whose key it has. The exception is a window that a reading from a leap second
at the end of the hour or the day began. It starts there, and contains nothing that came before.

Results:
* `WindowView.StartsAt`: what is known of the start of a window.
* `Sweep.keys_match_windows`: the windows of every run.
* `Sweep.leap_day_misses_noon`: a day that begins with a leap second.
-/

namespace WeatherStation

variable {ι α : Type} [Quantity α] {g : Granularity}

/-- The window starts with the hour or the day of an instant. An instant within a leap second is one
    of those given. -/
def WindowView.StartsAt (leaps : String → Instant → Prop) (g : Granularity) (w : WindowView g α) :
    Prop :=
  ∃ t, g.start t = .ok w.start ∧ (t.isLeap = true → leaps w.device t)

/-- The instant of a reading of some kind. -/
def InstantOf (among : IngestSettings → Reading α → Prop) (device : String) (t : Instant) : Prop :=
  ∃ settings r, among settings r ∧ r.device = device ∧ r.time = t

/-- The start of a window stays what it was when a reading began it. -/
theorem WindowView.inherited_startsAt (among : IngestSettings → Reading α → Prop) :
    WindowView.Inherited among (WindowView.StartsAt (InstantOf among)) where
  setVersion _ hw := hw
  empty {settings r g buckets starts start} hr ht hs := by
    obtain ⟨t, htime, hstart⟩ := ht.exists_start hs
    refine ⟨t, hstart, fun hl => ?_⟩
    rcases htime with rfl | htime
    · exact ⟨settings, r, hr, rfl, rfl⟩
    · rw [htime] at hl
      cases hl
  fold {settings r g buckets w w'} _ _ hw hfold := by
    have hframe := fold_frame hfold
    have hdevice : w'.device = w.device := hframe.device
    have hstart : w'.start = w.start := hframe.start
    rw [StartsAt, hdevice, hstart]
    exact hw
  close {d c} hd hdc := by
    have hsame := (DailyView.close_frame hdc).2
    rw [StartsAt, hsame.device, hsame.start]
    exact hd

namespace Sweep

variable [DecidableEq ι]

/-- A stored window that does not start in a leap second starts with an hour or a day, and contains
    exactly the instants that have its key. One that does is the window of a reading from the leap
    second at the end of the hour or the day, and instants before the leap second have its key, too,
    but are not contained. -/
theorem keys_match_windows (jobs : ι → Job α) (moves : List (Move ι)) {key : String}
    {w : WindowView g α} :
    let t := (Traffic.start fun i => (jobs i).program).run moves
    t.history.store.get? key = some (.ofWindow w) →
      (w.start.isLeap = false → g.Begins w.start ∧
        ∀ u, w.contains u = .ok (decide ((g.id w.device u).key = key))) ∧
      (w.start.isLeap = true →
        (∃ i settings r, jobs i = .reading settings r ∧ r.device = w.device ∧
          r.time.Surplus g.seconds ∧ r.time.seconds = w.start.seconds) ∧
        ∃ u, (g.id w.device u).key = key ∧ w.contains u = .ok false) := by
  intro t hw
  have hQ := WindowView.inherited_startsAt fun settings r => ∃ i, jobs i = .reading settings r
  have hi := inherits_of_jobs hQ moves
  obtain ⟨time, hstart, hleap⟩ := hi.get? hQ hw
  obtain ⟨hnamed, hkey⟩ := hi.orderly.get?_named hw
  rw [View.key_ofWindow, View.named_ofWindow.1 hnamed] at hkey
  have hkey_iff (u : Instant) : (g.id w.device u).key = key ↔
      u.seconds / g.seconds = w.start.seconds / g.seconds := by
    rw [← hkey, g.id_key_eq_iff]
    simp
  refine ⟨fun hl => ?_, fun hl => ?_⟩
  · have hbegins := Granularity.begins_of_start hstart hl
    refine ⟨hbegins, fun u => ?_⟩
    rw [WindowView.contains_eq hbegins (Granularity.start_bounds hstart),
      decide_eq_decide.2 (hkey_iff u)]
  · obtain ⟨hsurplus, hseconds⟩ := Granularity.surplus_of_isLeap_start hstart hl
    obtain ⟨settings, r, ⟨i, hi⟩, hdevice, rfl⟩ := hleap hsurplus.1
    obtain ⟨u, hu, hout⟩ := WindowView.not_contains_eq hl
    exact ⟨⟨i, settings, r, hi, hdevice, hsurplus, hseconds.symm⟩, u,
      (hkey_iff u).2 (by rw [hu]), hout⟩

/-- A day of a reading from the afternoon. -/
theorem keys_match_september :
    let jobs : Fin 1 → Job ℚ := ![.reading .standard (reading "first" 10)]
    let t := (Traffic.start fun i => (jobs i).program).run (twoDaysLater [0, 0, 0, 0, 0])
    ∃ d : DailyView ℚ, t.history.store.get? "dev|daily|2025-09-11" = some (.daily d) ∧
      Granularity.daily.Begins d.start ∧ ∀ u, d.contains u =
        .ok (decide ((Granularity.daily.id d.device u).key = "dev|daily|2025-09-11")) := by
  intro jobs t
  have hday : ((t.history.store.get? "dev|daily|2025-09-11").bind View.daily?).map
      (fun d => d.start.isLeap) = some false := by decide +kernel
  obtain ⟨d, hd, hleap⟩ := Option.map_eq_some_iff.1 hday
  obtain ⟨v, hv, hvd⟩ := Option.bind_eq_some_iff.1 hd
  rw [View.eq_ofWindow_of_window? hvd] at hv
  exact ⟨d, hv, (keys_match_windows jobs _ hv).1 hleap⟩

/-- A reading from the leap second at the end of 2016, without rain. -/
def endOf2016 : Reading ℚ := { Ingest.leapReading with rain := none }

/-- The reading begins the last day of 2016 with the leap second, so that noon is not in the day. -/
theorem leap_day_misses_noon :
    let jobs : Fin 1 → Job ℚ := ![.reading .standard endOf2016]
    let t := (Traffic.start fun i => (jobs i).program).run (twoDaysLater [0, 0, 0, 0, 0])
    ∃ d : DailyView ℚ, t.history.store.get? "dev|daily|2016-12-31" = some (.daily d) ∧
      ¬ Granularity.daily.Begins d.start ∧
      ∃ noon, Instant.ofSeconds? 1483185600 = some noon ∧
        (Granularity.daily.id d.device noon).key = "dev|daily|2016-12-31" ∧
        d.contains noon = .ok false := by
  intro jobs t
  have hday : ((t.history.store.get? "dev|daily|2016-12-31").bind View.daily?).map
      (fun d => (decide (Granularity.daily.Begins d.start), d.device,
        d.contains ((Instant.ofSeconds? 1483185600).get (by decide)))) =
      some (false, "dev", .ok false) := by decide +kernel
  obtain ⟨d, hd, hfacts⟩ := Option.map_eq_some_iff.1 hday
  obtain ⟨v, hv, hvd⟩ := Option.bind_eq_some_iff.1 hd
  rw [View.eq_ofWindow_of_window? hvd] at hv
  simp only [Prod.mk.injEq, decide_eq_false_iff_not] at hfacts
  obtain ⟨hbegins, hdevice, hnoon⟩ := hfacts
  refine ⟨d, hv, hbegins, _, Option.some_get _ |>.symm, ?_, hnoon⟩
  rw [hdevice]
  decide +kernel

end Sweep

end WeatherStation
