import WeatherStation.Proofs.Sweep.Kept
import WeatherStation.Proofs.View.Extremes

/-!
# Averages and extremes of stored views

Over the rationals, whatever readings and sweeps have stored has its averages between the extremes
that stand beside them, and no rain is negative. Readings whose tips have a negative value are not
taken in.

Results:
* `Ingest.nonneg_of_check`: tips of a reading that passes its checks have no negative value.
* `View.kept_encloses`: all writes keep the averages between the extremes.
* `Sweep.averages_between_extremes`: every run.
-/

namespace WeatherStation

/-- The tips of a reading that passes its checks have no negative value. -/
theorem Ingest.nonneg_of_check {settings : IngestSettings} {r : Reading ℚ}
    (h : check settings r = .ok ()) (c : RainCounts ℚ) (hc : r.rain = some c) :
    0 ≤ c.unitValue := by
  rw [check] at h
  split_ifs at h with hbroken
  · cases h
  by_contra hneg
  refine hbroken fun hnil => ?_
  have hbelow : Quantity.below c.unitValue 0 = true := decide_eq_true (not_le.1 hneg)
  have hrule : RainCheck.negativeUnitValue ∈ c.brokenRules := by
    rw [RainCounts.brokenRules, if_pos hbelow]
    exact List.mem_append_right _ List.mem_cons_self
  have hmem : ReadingCheck.rain .negativeUnitValue ∈ r.brokenRules := by
    rw [Reading.brokenRules, hc]
    exact List.mem_append_right _ (List.mem_map_of_mem hrule)
  rw [hnil] at hmem
  cases hmem

/-- Averages lie between extremes, and no rain is negative. -/
def View.Encloses : View ℚ → Prop
  | .latest v => v.NonNeg
  | .hourly w => WindowView.Encloses w
  | .daily d => WindowView.Encloses d
  | .weekly w => w.Encloses

theorem View.encloses_ofWindow {g : Granularity} {w : WindowView g ℚ} :
    (ofWindow w).Encloses ↔ w.Encloses := by
  cases g <;> exact Iff.rfl

/-- All writes keep the averages between the extremes. -/
theorem View.kept_encloses :
    View.Kept (fun _ r => ∀ c, r.rain = some c → 0 ≤ c.unitValue) View.Encloses where
  withVersion {v} t hv := by
    cases v with
    | latest v => exact hv
    | hourly w => exact WindowView.encloses_setVersion hv t
    | daily d => exact WindowView.encloses_setVersion hv t
    | weekly w => exact ⟨hv.metrics, hv.rain⟩
  latest hr hv := LatestView.nonNeg_ofReading hr hv
  empty _ _ _ := encloses_ofWindow.2 (WindowView.encloses_empty _ _)
  fold hr ht _ hw hfold := encloses_ofWindow.2
    (WindowView.encloses_fold hr ht.1 (encloses_ofWindow.1 hw) hfold)
  close hd hdc := DailyView.encloses_close hd hdc
  emptyWeek device week := WeeklyView.encloses_empty device week
  applyDays hdays hw happly := WeeklyView.encloses_applyDays hw hdays happly

/-- Whatever readings and sweeps have stored, in any order of their calls, has its averages between
    the extremes, and no rain is negative. -/
theorem Sweep.averages_between_extremes {ι : Type} [DecidableEq ι] (jobs : ι → Job ℚ)
    (moves : List (Move ι)) :
    let s := ((Traffic.start fun i => (jobs i).program).run moves).history.store
    (∀ key v, s.get? key = some (.latest v) → v.NonNeg) ∧
    (∀ key w, s.get? key = some (.hourly w) → WindowView.Encloses w) ∧
    (∀ key d, s.get? key = some (.daily d) →
      WindowView.Encloses d ∧ d.rainSummary.Ordered) ∧
    ∀ key w, s.get? key = some (.weekly w) → w.Encloses := by
  intro s
  have hP : View.Kept (fun settings r => Ingest.check settings r = .ok () ∧
      ∃ i, jobs i = .reading settings r) View.Encloses :=
    View.kept_encloses.mono fun _ _ hr => Ingest.nonneg_of_check hr.1
  have hall {key : String} {v : View ℚ} (hv : s.get? key = some v) : v.Encloses :=
    (holds_of_jobs hP moves).get? hP hv
  exact ⟨fun _ _ hv => hall hv, fun _ _ hw => hall hw,
    fun _ d hd => ⟨hall hd, d.rainSummary_ordered⟩, fun _ _ hw => hall hw⟩

end WeatherStation
