import WeatherStation.Proofs.Document.Tally
import WeatherStation.Proofs.Exact
import WeatherStation.Proofs.Time.Stamps
import WeatherStation.Proofs.View.Closing

/-!
# Folding days into a week

A week refuses a day of another device, a day of another week and a day that is not sealed, and is
the same afterwards. All other days are taken. What days leave in a week is the last one of each
place, so writing them again changes nothing, and neither does their order where their dates differ.

Results:
* `WeeklyView.refusal?`, `WeeklyView.outcome_applyDay_eq_error`: why a day is refused.
* `WeeklyView.applyDays_again`: days that were written are written again without a change.
* `WeeklyView.applyDays_perm`: days of different dates are written in any order.
* `WeeklyView.days_fold_into_week`: what days leave in a week.
-/

namespace WeatherStation

variable {α : Type} [Quantity α]

/-- The tallies of the metrics of the day were made of values, of parts or of documents. -/
def DailyView.Made (d : DailyView α) : Prop := ∀ m t, d.tallies.get m = some t → t.Built

theorem DailyView.Made.summary {d : DailyView α} (h : d.Made) (m : Metric) :
    ∃ s, (d.tallies.get m).mapM Tally.summary = .ok s := by
  cases ht : d.tallies.get m with
  | none => exact ⟨none, rfl⟩
  | some t =>
    obtain ⟨s, hs⟩ := (h m t ht).exists_summary
    refine ⟨some s, ?_⟩
    show Tally.summary t >>= (fun s => pure (some s)) = _
    rw [hs]
    rfl

namespace WeeklyView

variable {w w' : WeeklyView α} {d : DailyView α} {days days' : List (DailyView α)}

/-! ## One day -/

/-- Why a week refuses a day. The device is looked at first, then the week, and at last whether the
    day is sealed. -/
def refusal? (w : WeeklyView α) (d : DailyView α) : Option ApplyDayError :=
  if d.device ≠ w.device then some (.deviceMismatch d.id.key w.device d.device)
  else if IsoWeek.of d.start.date ≠ w.week then some (.weekMismatch d.id.key w.week)
  else if d.isSealed then none
  else some (.notSealed d.id.key)

omit [Quantity α] in
theorem refusal?_eq_none : w.refusal? d = none ↔
    d.device = w.device ∧ IsoWeek.of d.start.date = w.week ∧ d.isSealed = true := by
  rw [refusal?]
  split_ifs with hdevice hweek hsealed
  · simp [hdevice]
  · simp [hweek]
  · simp [not_not.1 hdevice, not_not.1 hweek, hsealed]
  · simp [hsealed]

theorem takes_of_made (h : w.refusal? d = none) (hd : d.Made) : w.Takes d := by
  obtain ⟨hdevice, hweek, hsealed⟩ := refusal?_eq_none.1 h
  exact ⟨hdevice, hweek, hsealed, hd.summary⟩

/-- A week that refuses a day stays as it is. -/
theorem outcome_applyDay_of_refusal {e : ApplyDayError} (h : w.refusal? d = some e) :
    (applyDay d).outcome w = (.error e, w) := by
  rw [refusal?] at h
  rw [outcome_applyDay]
  split_ifs at h with hdevice hweek hsealed
  · cases h
    rw [if_pos hdevice]
  · cases h
    rw [if_neg hdevice, if_pos hweek]
  · cases h
    rw [if_neg hdevice, if_neg hweek, if_pos (by simp [hsealed])]

/-- Only a refusal keeps a day out of a week. -/
theorem outcome_applyDay_eq_error (hd : d.Made) {e : ApplyDayError} :
    (applyDay d).outcome w = (.error e, w') ↔ w.refusal? d = some e ∧ w' = w := by
  cases hr : w.refusal? d with
  | some e' =>
    rw [outcome_applyDay_of_refusal hr, Prod.mk.injEq, Except.error.injEq, Option.some_inj,
      eq_comm (a := w)]
  | none =>
    obtain ⟨w₁, hw₁⟩ := exists_applyDay (takes_of_made hr hd)
    rw [Revision.result_eq_ok.1 hw₁]
    simp

/-! ## Some days -/

omit [Quantity α] in
theorem refusal?_sameWeek (h : SameWeek w w') (hd : w.refusal? d = none) :
    w'.refusal? d = none := by
  rw [refusal?_eq_none] at hd ⊢
  rwa [h.device, h.week]

omit [Quantity α] in
/-- Days of one week that stand in one place have one date. -/
theorem date_of_place {a b : Date} (ha : IsoWeek.of a = w.week) (hb : IsoWeek.of b = w.week)
    (hp : place a = place b) : a = b :=
  IsoWeek.eq_of_weekday (ha.trans hb.symm) (Fin.mk.inj hp)

/-- A place that holds the last of some days is the same after these days were written again. -/
theorem HoldsLast.samePlace {w₀ : WeeklyView α} {p : Fin 7} (h : HoldsLast days p w₀ w)
    (h' : HoldsLast days p w w') : SamePlace p w w' := by
  rw [HoldsLast] at h h'
  split at h'
  · exact h'
  · next d hd =>
    rw [hd] at h
    have hplace := (List.mem_filter.1 (List.mem_of_getLast? hd)).2
    rw [← of_decide_eq_true hplace]
    exact Agrees.samePlace h h'

theorem recomputed_of_applyDays (hw : w.Recomputed) (h : Rollup.applyDays days w = .ok w') :
    w'.Recomputed := by
  by_cases hne : days = []
  · subst hne
    obtain rfl : w = w' := Except.ok.inj h
    exact hw
  · exact recomputed_applyDays h hne

/-- Days that were written are written again without a change. -/
theorem applyDays_again (hw : w.Recomputed) (hmade : ∀ d ∈ days, d.Made)
    (htaken : ∀ d ∈ days, w.refusal? d = none) (h : Rollup.applyDays days w = .ok w') :
    Rollup.applyDays days w' = .ok w' := by
  have hsame := applyDays_sameWeek h
  have hw' := recomputed_of_applyDays hw h
  obtain ⟨w'', h'⟩ := exists_applyDays (w := w') fun d hd =>
    takes_of_made (refusal?_sameWeek hsame (htaken d hd)) (hmade d hd)
  have heq : w'' = w' := eq_of_samePlace (applyDays_sameWeek h')
    (fun p => (applyDays_last h p).samePlace (applyDays_last h' p)) hw'
    (recomputed_of_applyDays hw' h')
  rwa [heq] at h'

/-- Days of different dates are written in any order. -/
theorem applyDays_perm (hw : w.Recomputed) (hmade : ∀ d ∈ days, d.Made)
    (htaken : ∀ d ∈ days, w.refusal? d = none) (h : Rollup.applyDays days w = .ok w')
    (hperm : days.Perm days') (hdates : (days.map fun d => d.start.date).Nodup) :
    Rollup.applyDays days' w = .ok w' := by
  have huniq (d : DailyView α) (hd : d ∈ days) (d' : DailyView α) (hd' : d' ∈ days)
      (hp : place d.start.date = place d'.start.date) : d = d' := by
    obtain ⟨-, hweek, -⟩ := refusal?_eq_none.1 (htaken d hd)
    obtain ⟨-, hweek', -⟩ := refusal?_eq_none.1 (htaken d' hd')
    exact List.inj_on_of_nodup_map hdates hd hd' (date_of_place hweek hweek' hp)
  have htakes : ∀ d ∈ days', w.Takes d := fun d hd =>
    takes_of_made (htaken d (hperm.mem_iff.2 hd)) (hmade d (hperm.mem_iff.2 hd))
  obtain ⟨w'', h'⟩ := exists_applyDays htakes
  obtain ⟨hagrees, hkept⟩ := applyDays_spec h huniq
  obtain ⟨hagrees', hkept'⟩ := applyDays_spec h' fun d hd d' hd' =>
    huniq d (hperm.mem_iff.2 hd) d' (hperm.mem_iff.2 hd')
  have hplace (p : Fin 7) : SamePlace p w' w'' := by
    by_cases hp : ∃ d ∈ days, place d.start.date = p
    · obtain ⟨d, hd, rfl⟩ := hp
      exact (hagrees d hd).samePlace (hagrees' d (hperm.mem_iff.1 hd))
    · have hnone (d : DailyView α) (hd : d ∈ days) : place d.start.date ≠ p :=
        fun he => hp ⟨d, hd, he⟩
      exact (hkept p hnone).symm.trans (hkept' p fun d hd => hnone d (hperm.mem_iff.2 hd))
  have hsame := applyDays_sameWeek h
  have hsame' := applyDays_sameWeek h'
  have heq : w'' = w' := eq_of_samePlace
    ⟨hsame'.id.trans hsame.id.symm, hsame'.device.trans hsame.device.symm,
      hsame'.week.trans hsame.week.symm, hsame'.version.trans hsame.version.symm⟩
    hplace (recomputed_of_applyDays hw h) (recomputed_of_applyDays hw h')
  rwa [heq] at h'

/-- What days leave in a week whose summaries are those of its days. -/
theorem days_fold_into_week (w : WeeklyView α) (hw : w.Recomputed) (days : List (DailyView α))
    (hmade : ∀ d ∈ days, d.Made) :
    (∀ d ∈ days, ∀ e w', (applyDay d).outcome w = (.error e, w') ↔
      w.refusal? d = some e ∧ w' = w) ∧
    (∀ a b : Date, IsoWeek.of a = w.week → IsoWeek.of b = w.week → a ≠ b → place a ≠ place b) ∧
    ((∀ d ∈ days, w.refusal? d = none) →
      ∃ w', Rollup.applyDays days w = .ok w' ∧ SameWeek w w' ∧ (∀ p, HoldsLast days p w w') ∧
        w'.Recomputed ∧ Rollup.applyDays days w' = .ok w' ∧
        ((days.map fun d => d.start.date).Nodup →
          ∀ days', days.Perm days' → Rollup.applyDays days' w = .ok w')) := by
  refine ⟨fun d hd e w' => outcome_applyDay_eq_error (hmade d hd),
    fun a b ha hb hne hp => hne (date_of_place ha hb hp), fun htaken => ?_⟩
  obtain ⟨w', h⟩ := exists_applyDays fun d hd => takes_of_made (htaken d hd) (hmade d hd)
  exact ⟨w', h, applyDays_sameWeek h, applyDays_last h, recomputed_of_applyDays hw h,
    applyDays_again hw hmade htaken h,
    fun hdates days' hperm => applyDays_perm hw hmade htaken h hperm hdates⟩

/-- A sealed day of September 2025, from the 11th on, with one temperature. -/
def sealedDay (n : Fin 3) (temperature : ℚ) : DailyView ℚ :=
  { WindowView.empty "dev" ((Instant.ofSeconds? (1757548800 + 86400 * (n : ℕ))).get
      (by revert n; decide)) with
    tallies := ⟨some (.closed ⟨temperature, temperature, temperature⟩), none, none⟩
    isSealed := true }

/-- A Thursday and its Friday. -/
theorem two_days_fold :
    let w : WeeklyView ℚ := .empty "dev" ⟨2025, 37⟩
    let days := [sealedDay 0 20, sealedDay 1 15]
    w.Recomputed ∧ (∀ d ∈ days, d.Made) ∧
      ∃ w', Rollup.applyDays days w = .ok w' ∧ w'.Recomputed ∧
        Rollup.applyDays days w' = .ok w' ∧ Rollup.applyDays days.reverse w = .ok w' ∧
          w'.metrics.temperature.summary = some ⟨15, 20, 35 / 2⟩ := by
  intro w days
  have hw : w.Recomputed := ⟨fun m => by cases m <;> rfl, rfl⟩
  have hmade (d : DailyView ℚ) (hd : d ∈ days) : d.Made := by
    intro m t ht
    have htemperature (n : Fin 3) (x : ℚ) (ht : (sealedDay n x).tallies.get m = some t) :
        t.Built := by
      cases m with
      | temperature =>
        obtain rfl := Option.some.inj ht
        exact .ofSummary (Tally.ofSummary?_eq_ok.2
          ⟨rfl, trivial, decide_eq_false (lt_irrefl x)⟩)
      | humidity => cases ht
      | pressure => cases ht
    rcases List.mem_cons.1 hd with rfl | hd
    · exact htemperature 0 20 ht
    · rw [List.mem_singleton.1 hd] at ht
      exact htemperature 1 15 ht
  obtain ⟨-, -, hfold⟩ := days_fold_into_week w hw days hmade
  obtain ⟨w', h, -, -, hw', hagain, hperm⟩ := hfold (by decide +kernel)
  have hsummary : (Rollup.applyDays days w).map (fun w => w.metrics.temperature.summary) =
      .ok (some ⟨15, 20, 35 / 2⟩) := by
    decide +kernel
  rw [h] at hsummary
  exact ⟨hw, hmade, w', h, hw', hagain, hperm (by decide +kernel) _ days.reverse_perm.symm,
    Except.ok.inj hsummary⟩

end WeeklyView

end WeatherStation
