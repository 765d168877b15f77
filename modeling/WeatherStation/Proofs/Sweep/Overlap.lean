import WeatherStation.Proofs.Sweep.Places
import WeatherStation.Proofs.Sweep.Portions

/-!
# Overlapping sweeps

Sweeps that overlap may read a day in different states, and the one that read the older state may
write the week last. Still the week of a sealed day holds the summaries of a state in which the day
was written.

Results:
* `Sweep.sharedTerms`: the terms of readings and sweeps that overlap.
* `Sweep.apply_safe_shared`: readings keep them.
* `Sweep.execute_safe_shared`: sweeps keep them.
-/

namespace WeatherStation

variable {ι α : Type} [Quantity α]

namespace Sweep

open History

/-- Nothing is taken from the record, and no week forgets a day. -/
def sharedTerms (i : ι) : Terms ι α where
  client := i
  inv := RolledUp WrittenWeek
  rely h h' := h.log <+: h'.log ∧ ∀ d, h.WrittenWeek d → h'.WrittenWeek d
  grant h h' := h.log <+: h'.log ∧ ∀ d, h.WrittenWeek d → h'.WrittenWeek d
  rely_refl _ := ⟨List.prefix_refl _, fun _ hd => hd⟩
  rely_trans h₁ h₂ := ⟨h₁.1.trans h₂.1, fun d hd => h₂.2 d (h₁.2 d hd)⟩
  grant_refl _ := ⟨List.prefix_refl _, fun _ hd => hd⟩

theorem apply_safe_shared (i : ι) (settings : IngestSettings) (r : Reading α)
    (h : History ι α) :
    Client.Safe (sharedTerms i) (fun _ _ => True) (Ingest.apply settings r) h := by
  refine Program.Safe.mono (Ingest.apply_safe_of_settled RolledUp.orderly And.left
    (fun {h v} hi ho hs => ?_) settings r h) fun _ _ _ _ => trivial
  have hkept (d : DailyView α) (hd : h.WrittenWeek d) : (h.put i v).WrittenWeek d :=
    hd.of_inWeek (List.prefix_append _ _) fun c hc => hc.of_sameSettled hs
  exact ⟨RolledUp.of_sameSettled hi ho hs hkept, List.prefix_append _ _, hkept⟩

/-- A day that a sweep has sealed, before its week was written. -/
def ClosedDay (c : DailyView α) (h : History ι α) : Prop :=
  (View.daily c).Named ∧ h.ClosedFrom c

/-- A day that a sweep has sealed, after its week was written. -/
def WrittenDay (c : DailyView α) (h : History ι α) : Prop :=
  (View.daily c).Named ∧ h.WrittenWeek c

/-- The write of a week into which sealed days were written. -/
theorem writtenWeek_put_week {h : History ι α} {i : ι} {o : String × IsoWeek}
    {days : List (DailyView α)} {w w' : WeeklyView α} (ho : h.Orderly)
    (hw : h.store.week? o.1 o.2 = some w) (hdays : ∀ d ∈ days, d.owner = o ∧ ClosedDay d h)
    (huniq : ∀ d ∈ days, ∀ d' ∈ days, d.id.key = d'.id.key → d = d')
    (happly : Rollup.applyDays days w = .ok w') :
    (h.put i (.weekly w')).Orderly ∧ (∀ d ∈ days, (h.put i (.weekly w')).WrittenWeek d) ∧
      ∀ d, h.WrittenWeek d → (h.put i (.weekly w')).WrittenWeek d := by
  obtain ⟨-, ho', hnew, hkept⟩ := ho.put_week (i := i) hw
    (fun d hd => ⟨(hdays d hd).1, (hdays d hd).2.1⟩) huniq happly
  have hclosed {c : DailyView α} (hc : h.ClosedFrom c) : (h.put i (.weekly w')).ClosedFrom c :=
    hc.mono (List.prefix_append _ _)
  refine ⟨ho', fun d hd => ⟨d, hclosed (hdays d hd).2.2, rfl, rfl, hnew d hd⟩, ?_⟩
  rintro d ⟨c, hc, hdevice, hdate, hin⟩
  -- The place of the day holds one of the days that were written, or what it held.
  by_cases hsame : ∃ d' ∈ days, d'.device = c.device ∧ d'.start.date = c.start.date
  · obtain ⟨d', hd', hdevice', hdate'⟩ := hsame
    exact ⟨d', hclosed (hdays d' hd').2.2, hdevice'.trans hdevice, hdate'.trans hdate,
      hnew d' hd'⟩
  · refine ⟨c, hclosed hc, hdevice, hdate, hkept c hin fun d' hd' hdevice' hdate' => ?_⟩
    exact hsame ⟨d', hd', hdevice', hdate'⟩

theorem maySweep_shared (i : ι) (cutoff : Instant) :
    MaySweep (α := α) (sharedTerms i) (fun _ => sharedTerms i) ClosedDay WrittenDay cutoff where
  fits _ := .refl _
  apart _ := ⟨fun _ _ hg => hg, fun _ _ hg => hg⟩
  sound hi := hi.orderly.sound
  grows hr := hr.1
  known_rely _ hr hd := ⟨hd.1, hd.2.mono hr.1⟩
  ready_rely _ hr hd := ⟨hd.1, hr.2 _ hd.2⟩
  write {h days w w' o} hi _ hdays huniq hw happly := by
    obtain ⟨ho, hnew, hkept⟩ := writtenWeek_put_week (i := i) hi.orderly hw hdays huniq happly
    exact ⟨hi.put ho (fun d hd => by cases hd) fun d _ _ hd => hkept d hd,
      ⟨List.prefix_append _ _, hkept⟩, fun d hd => ⟨(hdays d hd).2.1, hnew d hd⟩⟩
  read hi hc := ⟨hc.named hi.orderly, hc.closedFrom hi.orderly.sound⟩
  write_day {h c} hi hc _ := by
    have hkept (d : DailyView α) (hd : h.WrittenWeek d) : (h.put i (.daily c)).WrittenWeek d :=
      hd.of_inWeek (List.prefix_append _ _) fun _ hin => (inWeek_put_day hc.1).2 hin
    refine ⟨hi.put (hi.orderly.put hc.1) (fun d hd => ?_) fun d _ _ hd => hkept d hd,
      ⟨List.prefix_append _ _, hkept⟩, fun c' hc' => ⟨hc'.1, hkept c' hc'.2⟩⟩
    cases hd
    exact hkept c hc.2

/-- Sweeps may overlap with readings and with each other. -/
theorem execute_safe_shared (i : ι) (settings : SweepSettings)
    {schedule : Rollup.Schedule α (Except RollupError String)}
    (hweave : ∀ ps, Program.Weave ps (schedule ps)) (limit : ℕ) (lookbackHours : UInt32)
    (h : History ι α) :
    Client.Safe (sharedTerms i) (fun _ _ => True)
      (execute settings schedule limit lookbackHours) h :=
  execute_safe (maySweep_shared i) hweave limit lookbackHours

end Sweep

end WeatherStation
