import WeatherStation.Proofs.Sweep.WindowKeys
import WeatherStation.Proofs.Time.Reading

/-!
# Weeks come from days

A week is written when days are sealed, and from no others than those of its device and its dates.
So behind every stored week stands a day that a reading has begun, and the week is one of those that
can be named by their year and their number.

Results:
* `History.WroteDay`: a day of a week was written.
* `History.Rooted`: behind every week stands a day.
* `Job.safe_rooted`: readings and sweeps keep it so.
* `Sweep.rooted_of_jobs`: every run.
* `WindowView.StartsAt.date_bounds`: the dates of days that readings begin.
* `Sweep.ofParts_of_stored`: stored weeks can be named.
-/

namespace WeatherStation

variable {ι α : Type}

namespace History

/-- A day of the device in the week was written. -/
def WroteDay (o : String × IsoWeek) (h : History ι α) : Prop :=
  ∃ e ∈ h.log, ∃ d : DailyView α, e.2 = .daily d ∧ d.owner = o

/-- Behind every week that was written stands a day that was written. -/
structure Rooted (h : History ι α) : Prop where
  orderly : h.Orderly
  weeks : ∀ e ∈ h.log, ∀ w, e.2 = .weekly w → h.WroteDay (w.device, w.week)

variable {h h' : History ι α} {i : ι} {o : String × IsoWeek} {v : View α}

theorem WroteDay.mono (hd : h.WroteDay o) (hg : h.log <+: h'.log) : h'.WroteDay o := by
  obtain ⟨e, he, hday⟩ := hd
  exact ⟨e, hg.subset he, hday⟩

/-- A stored day was written. -/
theorem Recorded.wroteDay {d : DailyView α} (hd : h.Recorded (.daily d)) : h.WroteDay d.owner := by
  obtain ⟨n, ⟨j, v⟩, he, hv⟩ := hd
  refine ⟨_, List.mem_of_getElem? he, ?_⟩
  cases v with
  | daily d' =>
    cases hv
    exact ⟨d', rfl, rfl⟩
  | _ => cases hv

theorem Rooted.wroteDay {key : String} {w : WeeklyView α} (hi : h.Rooted)
    (hw : h.store.get? key = some (.weekly w)) : h.WroteDay (w.device, w.week) := by
  obtain ⟨-, n, ⟨j, v⟩, he, hv⟩ := hi.orderly.sound.get?_recorded hw
  cases v with
  | weekly w' =>
    cases hv
    exact hi.weeks _ (List.mem_of_getElem? he) w' rfl
  | _ => cases hv

theorem rooted_empty : (empty : History ι α).Rooted := ⟨orderly_empty, fun e he => by cases he⟩

theorem Rooted.put (hi : h.Rooted) (ho : (h.put i v).Orderly)
    (hv : ∀ w, v = .weekly w → h.WroteDay (w.device, w.week)) : (h.put i v).Rooted := by
  refine ⟨ho, fun e he w hw => ?_⟩
  have hday : h.WroteDay (w.device, w.week) := by
    rcases List.mem_append.1 he with he | he
    · exact hi.weeks e he w hw
    · rw [List.mem_singleton.1 he] at hw
      exact hv w hw
  exact hday.mono (List.prefix_append _ _)

end History

variable [Quantity α] {h : History ι α}

namespace Sweep

/-- Behind every week stands a day, and nothing is taken from the record. -/
def rootedTerms (i : ι) : Terms ι α := .growing i History.Rooted

/-- A closed day stands where a written one stood. -/
def RootedDay (c : DailyView α) (h : History ι α) : Prop :=
  (View.daily c).Named ∧ h.WroteDay c.owner

theorem maySweep_rooted (i : ι) (cutoff : Instant) :
    MaySweep (rootedTerms (α := α) i) (fun _ => rootedTerms i) RootedDay RootedDay cutoff where
  fits _ := .refl _
  apart _ := ⟨fun _ _ hg => hg, fun _ _ hg => hg⟩
  sound hi := hi.orderly.sound
  grows hr := hr
  known_rely _ hr hd := ⟨hd.1, hd.2.mono hr⟩
  ready_rely _ hr hd := ⟨hd.1, hd.2.mono hr⟩
  write {h days w w' o} hi hne hdays huniq hw happly := by
    obtain ⟨-, ho, -, -⟩ := hi.orderly.put_week (i := i) hw
      (fun d hd => ⟨(hdays d hd).1, (hdays d hd).2.1⟩) huniq happly
    obtain ⟨d, hd⟩ := List.exists_mem_of_ne_nil days hne
    have hsame := WeeklyView.applyDays_sameWeek happly
    obtain ⟨hdevice, hweek, -⟩ := hi.orderly.week?_named hw
    have howner : (w'.device, w'.week) = d.owner := by
      rw [hsame.device, hsame.week, hdevice, hweek, (hdays d hd).1]
    refine ⟨hi.put ho fun v hv => ?_, List.prefix_append _ _,
      fun c hc => ⟨(hdays c hc).2.1, (hdays c hc).2.2.mono (List.prefix_append _ _)⟩⟩
    cases hv
    rw [howner]
    exact (hdays d hd).2.2
  read hi hc := by
    have hnamed := hc.named hi.orderly
    obtain ⟨d, hd, hdc⟩ := hc
    have hframe := (DailyView.close_frame hdc).2
    refine ⟨hnamed, ?_⟩
    rw [DailyView.owner, hframe.device, hframe.start]
    exact (hi.orderly.sound.get?_recorded hd.stored).2.wroteDay
  write_day hi hc _ :=
    ⟨hi.put (hi.orderly.put hc.1) fun w hw => (by cases hw), List.prefix_append _ _,
      fun _ hc' => ⟨hc'.1, hc'.2.mono (List.prefix_append _ _)⟩⟩

theorem apply_safe_rooted (i : ι) (settings : IngestSettings) (r : Reading α) (h : History ι α) :
    Client.Safe (rootedTerms i) (fun _ _ => True) (Ingest.apply settings r) h := by
  refine Program.Safe.mono (Ingest.apply_safe (fun hp => hp) (fun hi hv => ?_)
    fun g buckets starts ht start hs => ⟨fun hi => hi.orderly.sound, fun hp => hp,
      fun hi hf => ?_⟩) fun _ _ _ _ => trivial
  · exact ⟨hi.put (hi.orderly.put_latest hv).1 fun w hw => (by cases hw), List.prefix_append _ _⟩
  · refine ⟨hi.put (hi.orderly.put_window hf).1 fun w hw => ?_, List.prefix_append _ _⟩
    cases g <;> cases hw

end Sweep

theorem Job.safe_rooted (i : ι) (job : Job α) (h : History ι α) :
    job.program.Safe (Sweep.rootedTerms i) (fun _ _ => True) h := by
  cases job with
  | reading settings r =>
    exact (Sweep.apply_safe_rooted i settings r h).bind fun _ _ _ _ _ _ _ => trivial
  | sweep settings schedule weaves limit lookbackHours =>
    have hsafe : Client.Safe (Sweep.rootedTerms i) (fun _ _ => True)
        (Sweep.execute settings schedule limit lookbackHours) h :=
      Sweep.execute_safe (Sweep.maySweep_rooted i) weaves limit lookbackHours
    exact Program.Safe.bind hsafe fun _ _ _ _ _ _ _ => trivial

omit [Quantity α] in
/-- Days that readings begin are neither among the first of the calendar nor its last. -/
theorem WindowView.StartsAt.date_bounds {leaps : String → Instant → Prop} {d : DailyView α}
    (hd : WindowView.StartsAt leaps .daily d) :
    firstDay + 6 ≤ d.start.date.day ∧ d.start.date.day < lastDay := by
  obtain ⟨t, hstart, -⟩ := hd
  have hbounds := Granularity.start_bounds hstart
  have hday : d.start.date.day = d.start.seconds / 86400 := rfl
  unfold firstDay lastDay
  omega

namespace Sweep

/-- Behind every week that readings and sweeps write stands a day, whatever the order is in which
    they make their calls. -/
theorem rooted_of_jobs [DecidableEq ι] (jobs : ι → Job α) (moves : List (Move ι)) :
    ((Traffic.start fun i => (jobs i).program).run moves).history.Rooted :=
  (Traffic.run_safe (T := rootedTerms) (fun _ _ _ => True)
    (t := .start fun i => (jobs i).program) (fun _ => rfl) (fun _ => rfl)
    (fun _ _ _ _ _ hg => hg) History.rooted_empty (fun i => (jobs i).safe_rooted i _) moves).1

/-- Stored weeks can be named by their year and their number. -/
theorem ofParts_of_stored [DecidableEq ι] (jobs : ι → Job α) (moves : List (Move ι))
    {key : String} {w : WeeklyView α}
    (hw : ((Traffic.start fun i => (jobs i).program).run moves).history.store.get? key =
      some (.weekly w)) : IsoWeek.ofParts w.week.year w.week.week = .ok (some w.week) := by
  obtain ⟨⟨i, v⟩, he, d, rfl, howner⟩ := (rooted_of_jobs jobs moves).wroteDay hw
  have hd : WindowView.StartsAt _ .daily d :=
    (inherits_of_jobs (WindowView.inherited_startsAt _) moves).windows _ he
  have hweek : IsoWeek.of d.start.date = w.week := congrArg Prod.snd howner
  rw [← hweek, IsoWeek.ofParts_of hd.date_bounds.1]

end Sweep

end WeatherStation
