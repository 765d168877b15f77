import WeatherStation.Proofs.Sweep.SealedDays

/-!
# What all stored views keep

A reading replaces a latest view and folds itself into windows, and a sweep closes days and writes
them into weeks. Nothing else is ever written. So a property that these four kinds of writes keep
holds of every stored view, whatever readings and sweeps do and in whichever order.

Results:
* `View.Kept`: such a property.
* `History.Holds`: all views that were written have it.
* `Job.safe_holding`: readings and sweeps keep it.
* `Sweep.holds_of_jobs`: every run.
-/

namespace WeatherStation

variable {ι α : Type} {g : Granularity} {P : View α → Prop}

/-- All views that were written have a property. -/
structure History.Holds (P : View α → Prop) (h : History ι α) : Prop where
  orderly : h.Orderly
  views : ∀ e ∈ h.log, P e.2

theorem History.holds_empty : Holds P (empty : History ι α) :=
  ⟨orderly_empty, fun e he => by cases he⟩

theorem History.Holds.put {h : History ι α} (hi : h.Holds P) {i : ι} {v : View α}
    (ho : (h.put i v).Orderly) (hv : P v) : (h.put i v).Holds P := by
  refine ⟨ho, fun e he => ?_⟩
  rcases List.mem_append.1 he with he | he
  · exact hi.views e he
  · rw [List.mem_singleton.1 he]
    exact hv

variable [Quantity α]

/-- What is written has the property if what was read before has it, and if the readings are of some
    kind. The property is not about versions. -/
structure View.Kept (among : IngestSettings → Reading α → Prop) (P : View α → Prop) : Prop where
  withVersion : ∀ {v} (t : Option Version), P v → P (v.withVersion t)
  latest : ∀ {settings r v}, among settings r → LatestView.ofReading settings r = .ok v →
    P (.latest v)
  empty : ∀ {settings r g buckets starts start}, among settings r →
    Ingest.Touched settings g r buckets starts → start ∈ starts →
      P (.ofWindow (g := g) (.empty r.device start))
  fold : ∀ {settings r g buckets starts} {w w' : WindowView g α}, among settings r →
    Ingest.Touched settings g r buckets starts → w.isSealed = false → P (.ofWindow w) →
      w.fold settings r buckets = .ok w' → P (.ofWindow w')
  close : ∀ {d c : DailyView α}, P (.daily d) → DailyView.close.result d = .ok c → P (.daily c)
  emptyWeek : ∀ device week, P (.weekly (.empty device week))
  applyDays : ∀ {days : List (DailyView α)} {w w'}, (∀ d ∈ days, P (.daily d)) → P (.weekly w) →
    Rollup.applyDays days w = .ok w' → P (.weekly w')

variable {among among' : IngestSettings → Reading α → Prop} {h : History ι α}

/-- Fewer readings. -/
theorem View.Kept.mono (hP : View.Kept among P)
    (hamong : ∀ settings r, among' settings r → among settings r) : View.Kept among' P where
  withVersion := hP.withVersion
  latest hr := hP.latest (hamong _ _ hr)
  empty hr := hP.empty (hamong _ _ hr)
  fold hr := hP.fold (hamong _ _ hr)
  close := hP.close
  emptyWeek := hP.emptyWeek
  applyDays := hP.applyDays

/-- Stored views have the property. -/
theorem History.Holds.get? (hi : h.Holds P) (hP : View.Kept among P) {key : String} {v : View α}
    (hv : h.store.get? key = some v) : P v := by
  obtain ⟨-, n, e, he, rfl⟩ := hi.orderly.sound.get?_recorded hv
  exact hP.withVersion _ (hi.views e (List.mem_of_getElem? he))

/-- What a reading of the kind writes instead of a window has the property. -/
theorem History.Holds.folded (hi : h.Holds P) (hP : View.Kept among P)
    {settings : IngestSettings} {r : Reading α} (hr : among settings r)
    {buckets : Option (Buckets α)} {starts : List Instant}
    (ht : Ingest.Touched settings g r buckets starts) {start : Instant} (hs : start ∈ starts)
    {folded : WindowView g α} (hf : h.store.FoldsTo settings r buckets start folded) :
    P (.ofWindow folded) := by
  obtain ⟨w, hw, hopen, -, hfold⟩ := hf
  refine hP.fold hr ht hopen ?_ hfold
  cases hv : h.store.get? (g.id r.device start).key with
  | none =>
    rw [Store.window?_of_none hv, Option.some_inj] at hw
    rw [← hw]
    exact hP.empty hr ht hs
  | some v =>
    rw [Store.window?_of_some hv] at hw
    rw [View.eq_ofWindow_of_window? hw] at hv
    exact hi.get? hP hv

/-- The week that days are written into has the property, whether it was stored or not. -/
theorem History.Holds.week? (hi : h.Holds P) (hP : View.Kept among P) {device : String}
    {week : IsoWeek} {w : WeeklyView α} (hw : h.store.week? device week = some w) :
    P (.weekly w) := by
  cases hv : h.store.get? (ViewId.weekly device week).key with
  | none =>
    rw [Store.week?_of_none hv, Option.some_inj] at hw
    rw [← hw]
    exact hP.emptyWeek device week
  | some v =>
    rw [Store.week?_of_some hv] at hw
    rw [View.eq_weekly_of_ofKind? hw] at hv
    exact hi.get? hP hv

namespace Sweep

/-- Views keep a property, and nothing is taken from the record. -/
def holdingTerms (P : View α → Prop) (i : ι) : Terms ι α := .growing i (History.Holds P)

/-- A reading that passes its checks is of the kind. -/
theorem apply_safe_holding (hP : View.Kept among P) (i : ι) {settings : IngestSettings}
    {r : Reading α} (hr : Ingest.check settings r = .ok () → among settings r) (h : History ι α) :
    Client.Safe (holdingTerms P i) (fun _ _ => True) (Ingest.apply settings r) h := by
  cases hc : Ingest.check settings r with
  | error e =>
    rw [Ingest.apply, hc]
    exact Client.safe_compute_bind (fun _ hok => by cases hok) fun _ _ _ _ _ => trivial
  | ok u =>
    have hr := hr hc
    refine Program.Safe.mono (Ingest.apply_safe (fun hp => hp) (fun hi hv => ?_)
      fun g buckets starts ht start hs => ⟨fun hi => hi.orderly.sound, fun hp => hp,
        fun hi hf => ?_⟩) fun _ _ _ _ => trivial
    · exact ⟨hi.put (hi.orderly.put_latest hv).1 (hP.latest hr hv), List.prefix_append _ _⟩
    · exact ⟨hi.put (hi.orderly.put_window hf).1 (hi.folded hP hr ht hs hf),
        List.prefix_append _ _⟩

theorem maySweep_holding (hP : View.Kept among P) (i : ι) (cutoff : Instant) :
    MaySweep (holdingTerms P i) (fun _ => holdingTerms P i)
      (fun c _ => (View.daily c).Named ∧ P (.daily c))
      (fun c _ => (View.daily c).Named ∧ P (.daily c)) cutoff where
  fits _ := .refl _
  apart _ := ⟨fun _ _ hg => hg, fun _ _ hg => hg⟩
  sound hi := hi.orderly.sound
  grows hr := hr
  known_rely _ _ hd := hd
  ready_rely _ _ hd := hd
  write hi _ hdays huniq hw happly := by
    obtain ⟨-, ho, -, -⟩ := hi.orderly.put_week (i := i) hw
      (fun d hd => ⟨(hdays d hd).1, (hdays d hd).2.1⟩) huniq happly
    have hweek := hP.applyDays (fun d hd => (hdays d hd).2.2) (hi.week? hP hw) happly
    exact ⟨hi.put ho hweek, List.prefix_append _ _, fun d hd => (hdays d hd).2⟩
  read hi hc := by
    have hnamed := hc.named hi.orderly
    obtain ⟨d, hd, hdc⟩ := hc
    exact ⟨hnamed, hP.close (hi.get? hP hd.stored) hdc⟩
  write_day hi hc _ :=
    ⟨hi.put (hi.orderly.put hc.1) hc.2, List.prefix_append _ _, fun _ hc' => hc'⟩

end Sweep

theorem Job.safe_holding (hP : View.Kept among P) (i : ι) {job : Job α}
    (hjob : ∀ settings r, job = .reading settings r → Ingest.check settings r = .ok () →
      among settings r) (h : History ι α) :
    job.program.Safe (Sweep.holdingTerms P i) (fun _ _ => True) h := by
  cases job with
  | reading settings r =>
    exact (Sweep.apply_safe_holding hP i (hjob settings r rfl) h).bind
      fun _ _ _ _ _ _ _ => trivial
  | sweep settings schedule weaves limit lookbackHours =>
    have hsafe : Client.Safe (Sweep.holdingTerms P i) (fun _ _ => True)
        (Sweep.execute settings schedule limit lookbackHours) h :=
      Sweep.execute_safe (Sweep.maySweep_holding hP i) weaves limit lookbackHours
    exact Program.Safe.bind hsafe fun _ _ _ _ _ _ _ => trivial

/-- All views that readings and sweeps write have the property, whatever the order is in which they
    make their calls. -/
theorem Sweep.holds_of_jobs [DecidableEq ι] {jobs : ι → Job α}
    (hP : View.Kept (fun settings r => Ingest.check settings r = .ok () ∧
      ∃ i, jobs i = .reading settings r) P) (moves : List (Move ι)) :
    ((Traffic.start fun i => (jobs i).program).run moves).history.Holds P :=
  (Traffic.run_safe (T := holdingTerms P) (fun _ _ _ => True)
    (t := .start fun i => (jobs i).program) (fun _ => rfl) (fun _ => rfl)
    (fun _ _ _ _ _ hg => hg) History.holds_empty
    (fun i => Job.safe_holding hP i (fun settings r hr hc => ⟨hc, i, hr⟩) _) moves).1

end WeatherStation
