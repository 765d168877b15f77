import WeatherStation.Proofs.View.Sealed

/-!
# Closed days fit into weeks

Once a day is closed, all of its tallies have summaries, so its week takes it. A week into which
days were written is determined by its places.

Results:
* `DailyView.summary_of_close`: a closed day has the summaries that its week asks for.
* `WeeklyView.exists_applyDays`: closed days of a device and a week can be written into it.
* `WeeklyView.Recomputed`: the summaries of a week are those of its days.
* `WeeklyView.eq_of_samePlace`: such weeks are equal if their places are.
-/

namespace WeatherStation

variable {α : Type} [Quantity α]

namespace DailyView

/-- A closed day has the summaries that its week asks for. -/
theorem summary_of_close {d c : DailyView α} (h : close.result d = .ok c) (m : Metric) :
    ∃ s, (c.tallies.get m).mapM Tally.summary = .ok s := by
  have hcloses : Option.Rel Tally.Closes (d.tallies.get m) (c.tallies.get m) :=
    (sealedAs_of_close h).closes (m, none)
  revert hcloses
  generalize d.tallies.get m = t
  generalize c.tallies.get m = t'
  rintro (⟨avg, -, rfl⟩ | _)
  · exact ⟨some _, rfl⟩
  · exact ⟨none, rfl⟩

end DailyView

namespace WeeklyView

/-- A day of the week that can be written into it. -/
structure Takes (w : WeeklyView α) (d : DailyView α) : Prop where
  device : d.device = w.device
  week : IsoWeek.of d.start.date = w.week
  isSealed : d.isSealed = true
  summary : ∀ m, ∃ s, (d.tallies.get m).mapM Tally.summary = .ok s

theorem exists_forM_writeMetric {d : DailyView α}
    (hd : ∀ m, ∃ s, (d.tallies.get m).mapM Tally.summary = .ok s) (ms : List Metric)
    (w : WeeklyView α) : ∃ w', (ms.forM (writeMetric d)).outcome w = (.ok (), w') := by
  induction ms generalizing w with
  | nil => exact ⟨w, rfl⟩
  | cons m ms ih =>
    obtain ⟨s, hs⟩ := hd m
    have hm := outcome_writeMetric d m w
    rw [hs] at hm
    obtain ⟨w', hw'⟩ := ih { w with
      metrics := w.metrics.set m ((w.metrics.get m).write (place d.start.date) s) }
    refine ⟨w', ?_⟩
    show (writeMetric d m >>= fun _ => ms.forM (writeMetric d)).outcome w = _
    rw [Revision.outcome_bind, hm]
    exact hw'

theorem exists_applyDay {w : WeeklyView α} {d : DailyView α} (h : w.Takes d) :
    ∃ w', (applyDay d).result w = .ok w' := by
  obtain ⟨w₁, hw₁⟩ := exists_forM_writeMetric h.summary Metric.all w
  refine ⟨{ w₁ with rain := w₁.rain.write (place d.start.date) d.rainSummary }, ?_⟩
  rw [Revision.result_eq_ok, outcome_applyDay, if_neg (not_not.2 h.device),
    if_neg (not_not.2 h.week), if_neg (by simp [h.isSealed]), writeDay, Revision.outcome_bind, hw₁]
  rfl

/-- Closed days of the device and the week can be written into it. -/
theorem exists_applyDays {days : List (DailyView α)} {w : WeeklyView α}
    (h : ∀ d ∈ days, w.Takes d) : ∃ w', Rollup.applyDays days w = .ok w' := by
  induction days generalizing w with
  | nil => exact ⟨w, rfl⟩
  | cons d days ih =>
    obtain ⟨w₁, hw₁⟩ := exists_applyDay (h d List.mem_cons_self)
    obtain ⟨-, hsame, -⟩ := applyDay_spec hw₁
    obtain ⟨w', hw'⟩ := ih (w := w₁) fun d' hd' =>
      have ht := h d' (List.mem_cons_of_mem d hd')
      ⟨ht.device.trans hsame.device.symm, ht.week.trans hsame.week.symm, ht.isSealed, ht.summary⟩
    refine ⟨w', ?_⟩
    rw [Rollup.applyDays, List.foldlM_cons, hw₁]
    exact hw'

/-! ## Weeks and their places -/

theorem eq_of_recompute {s s' : WeeklySeries α} (hp : ∀ p, s.days.get p = s'.days.get p)
    (hs : s.recompute = s) (hs' : s'.recompute = s') : s = s' := by
  have hdays : s.days = s'.days := Vector.ext fun i hi => hp ⟨i, hi⟩
  rw [← hs, ← hs', WeeklySeries.recompute, WeeklySeries.recompute, hdays]

/-- The summaries of the week are those of its days. -/
structure Recomputed (w : WeeklyView α) : Prop where
  metrics : ∀ m, (w.metrics.get m).recompute = w.metrics.get m
  rain : w.rain.recompute = w.rain

theorem recompute_write (s : WeeklySeries α) (p : Fin 7) (x : Option (Summary α)) :
    (s.write p x).recompute = s.write p x := rfl

theorem recomputed_forM_writeMetric {d : DailyView α} {ms : List Metric} {w w' : WeeklyView α}
    (h : (ms.forM (writeMetric d)).outcome w = (.ok (), w')) {k : Metric}
    (hk : k ∈ ms ∨ (w.metrics.get k).recompute = w.metrics.get k) :
    (w'.metrics.get k).recompute = w'.metrics.get k := by
  induction ms generalizing w with
  | nil =>
    cases h
    exact hk.resolve_left List.not_mem_nil
  | cons m ms ih =>
    obtain ⟨_, w₁, hw₁, h⟩ := Revision.outcome_bind_ok h
    rw [outcome_writeMetric] at hw₁
    split at hw₁
    · cases hw₁
      refine ih h ?_
      by_cases hkm : k = m
      · subst hkm
        right
        rw [PerMetric.get_set_self, recompute_write]
      · rw [PerMetric.get_set_ne _ hkm]
        simpa [hkm] using hk
    · cases hw₁

theorem recomputed_applyDay {d : DailyView α} {w w' : WeeklyView α}
    (h : (applyDay d).result w = .ok w') : w'.Recomputed := by
  rw [Revision.result_eq_ok, outcome_applyDay] at h
  split_ifs at h
  · cases h
  · cases h
  · cases h
  · obtain ⟨_, w₁, hw₁, h⟩ := Revision.outcome_bind_ok h
    cases h
    exact ⟨fun m => recomputed_forM_writeMetric hw₁ (.inl m.mem_all), recompute_write _ _ _⟩

/-- Whatever the week held before, its last day recomputes the summaries. -/
theorem recomputed_applyDays {days : List (DailyView α)} {w w' : WeeklyView α}
    (h : Rollup.applyDays days w = .ok w') (hne : days ≠ []) : w'.Recomputed := by
  obtain ⟨front, last, rfl⟩ : ∃ front last, days = front ++ [last] :=
    ⟨_, _, (List.dropLast_append_getLast hne).symm⟩
  rw [applyDays_append] at h
  obtain ⟨w₁, -, hlast⟩ := bind_eq_ok.1 h
  rw [Rollup.applyDays, List.foldlM_cons] at hlast
  obtain ⟨w₂, hw₂, hend⟩ := bind_eq_ok.1 hlast
  cases hend
  exact recomputed_applyDay hw₂

omit [Quantity α] in
theorem SamePlace.symm {w w' : WeeklyView α} {p : Fin 7} (h : SamePlace p w w') :
    SamePlace p w' w := ⟨fun m => (h.1 m).symm, h.2.symm⟩

omit [Quantity α] in
theorem SamePlace.trans {w w' w'' : WeeklyView α} {p : Fin 7} (h : SamePlace p w w')
    (h' : SamePlace p w' w'') : SamePlace p w w'' :=
  ⟨fun m => (h'.1 m).trans (h.1 m), h'.2.trans h.2⟩

/-- The place of a day holds the same in all weeks that agree with the day. -/
theorem Agrees.samePlace {w w' : WeeklyView α} {d : DailyView α} (h : w.Agrees d)
    (h' : w'.Agrees d) : SamePlace (place d.start.date) w w' := by
  refine ⟨fun m => ?_, h'.2.trans h.2.symm⟩
  have hm := h'.1 m
  rw [h.1 m] at hm
  exact (Except.ok.inj hm).symm

/-- Weeks of one device are equal if their places are, once their summaries are those of their
    days. -/
theorem eq_of_samePlace {w w' : WeeklyView α} (hsame : SameWeek w w') (hp : ∀ p, SamePlace p w w')
    (hw : w.Recomputed) (hw' : w'.Recomputed) : w' = w := by
  have hmetrics : w'.metrics = w.metrics := PerMetric.ext_get fun m =>
    eq_of_recompute (fun p => (hp p).1 m) (hw'.metrics m) (hw.metrics m)
  have hrain : w'.rain = w.rain :=
    eq_of_recompute (fun p => (hp p).2) hw'.rain hw.rain
  obtain ⟨id, device, week, metrics, rain, version⟩ := w
  obtain ⟨id', device', week', metrics', rain', version'⟩ := w'
  obtain ⟨rfl, rfl, rfl, rfl⟩ := hsame
  obtain rfl := hmetrics
  obtain rfl := hrain
  rfl

end WeeklyView

end WeatherStation
