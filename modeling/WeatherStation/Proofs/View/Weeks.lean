import WeatherStation.Proofs.Except
import WeatherStation.Proofs.Revision
import WeatherStation.Rollup

/-!
# Days in their weeks

What closing a day keeps, and what writing closed days into a week leaves in its places.

Results:
* `DailyView.close_frame`: a closed day is sealed, and has the id, device, start and version it had.
* `WeeklyView.Agrees`: the place of a day in a week holds the summaries of the day.
* `WeeklyView.applyDays_last`: a place holds the last day that was written there, or what it held.
* `WeeklyView.applyDays_spec`: the days that were written agree, and all other places stay.
* `WeeklyView.applyDays_version`: versions do not matter.
-/

namespace WeatherStation

variable {α : Type}

namespace WeeklyView

/-- Two states of one week. -/
structure SameWeek (w w' : WeeklyView α) : Prop where
  id : w'.id = w.id
  device : w'.device = w.device
  week : w'.week = w.week
  version : w'.version = w.version

theorem SameWeek.refl (w : WeeklyView α) : SameWeek w w := ⟨rfl, rfl, rfl, rfl⟩

theorem SameWeek.trans {w w' w'' : WeeklyView α} (h : SameWeek w w') (h' : SameWeek w' w'') :
    SameWeek w w'' :=
  ⟨h'.id.trans h.id, h'.device.trans h.device, h'.week.trans h.week, h'.version.trans h.version⟩

end WeeklyView

variable [Quantity α]

namespace DailyView

/-- Two views of one day. -/
structure SameDay (d d' : DailyView α) : Prop where
  id : d'.id = d.id
  device : d'.device = d.device
  start : d'.start = d.start
  version : d'.version = d.version

theorem closeTally_keeps (d : DailyView α) (m : Metric) :
    Revision.Keeps (SameDay d) (closeTally (α := α) m) := by
  refine Revision.Keeps.bind Revision.keeps_get fun w => ?_
  split
  · exact Revision.Keeps.bind (Revision.keeps_liftExcept _) fun _ =>
      Revision.keeps_modify fun _ h => ⟨h.id, h.device, h.start, h.version⟩
  · exact Revision.keeps_pure _

theorem closeHour_keeps (d : DailyView α) (m : Metric) (hour : UInt32) :
    Revision.Keeps (SameDay d) (closeHour (α := α) m hour) := by
  refine Revision.Keeps.bind Revision.keeps_get fun w => ?_
  dsimp only
  split
  · exact Revision.Keeps.bind (Revision.keeps_liftExcept _) fun _ =>
      Revision.keeps_modify fun _ h => ⟨h.id, h.device, h.start, h.version⟩
  · exact Revision.keeps_pure _

/-- What closing does to a day that is open. -/
def closeOpen : Revision TallyError (DailyView α) Unit := do
  Metric.all.forM closeTally
  Metric.all.forM fun m => do ((← get).hours m).keys.forM (closeHour m)
  modify fun d => { d with isSealed := true }

theorem outcome_close (d : DailyView α) :
    close.outcome d =
      if d.isSealed then (.error .alreadyClosed, d) else closeOpen.outcome d := by
  rw [close, Revision.outcome_bind]
  change Revision.outcome (if d.isSealed = true then _ else _) d = _
  split_ifs <;> rfl

theorem closeOpen_keeps (d : DailyView α) : Revision.Keeps (SameDay d) (closeOpen (α := α)) := by
  refine Revision.Keeps.bind (Revision.keeps_forM (closeTally_keeps d) _) fun _ =>
    Revision.Keeps.bind (Revision.keeps_forM (fun m => ?_) _) fun _ =>
      Revision.keeps_modify fun _ h => ⟨h.id, h.device, h.start, h.version⟩
  exact Revision.Keeps.bind Revision.keeps_get fun w =>
    Revision.keeps_forM (closeHour_keeps d m) _

/-- A closed day is sealed, and is a view of the same day with the same version. -/
theorem close_frame {d c : DailyView α} (h : close.result d = .ok c) :
    c.isSealed = true ∧ SameDay d c := by
  rw [Revision.result_eq_ok, outcome_close] at h
  split_ifs at h
  · cases h
  · have hk := closeOpen_keeps d d ⟨rfl, rfl, rfl, rfl⟩
    rw [h] at hk
    obtain ⟨_, s₁, -, h⟩ := Revision.outcome_bind_ok h
    obtain ⟨_, s₂, -, h⟩ := Revision.outcome_bind_ok h
    cases h
    exact ⟨rfl, hk⟩

end DailyView

/-! ## Weeks -/

namespace WeeklySeries

omit [Quantity α] in
theorem get_empty (p : Fin 7) : (empty : WeeklySeries α).days.get p = none :=
  Vector.getElem_replicate p.isLt

omit [Quantity α] in
theorem mem_days {s : WeeklySeries α} {d : Option (Summary α)} :
    d ∈ s.days.toList ↔ ∃ p, s.days.get p = d := by
  rw [Vector.mem_toList_iff, Vector.mem_iff_getElem]
  exact ⟨fun ⟨i, hi, h⟩ => ⟨⟨i, hi⟩, h⟩, fun ⟨p, h⟩ => ⟨p, p.isLt, h⟩⟩

theorem get_write_self (s : WeeklySeries α) (p : Fin 7) (x : Option (Summary α)) :
    (s.write p x).days.get p = x :=
  Vector.getElem_set_self p.isLt

theorem get_write_ne (s : WeeklySeries α) {p q : Fin 7} (h : q ≠ p) (x : Option (Summary α)) :
    (s.write p x).days.get q = s.days.get q :=
  Vector.getElem_set_ne p.isLt q.isLt fun he => h (Fin.ext he.symm)

end WeeklySeries

namespace WeeklyView

/-- The place of a day in its week holds the summaries of the metrics of the day and of its rain. -/
def Agrees (w : WeeklyView α) (d : DailyView α) : Prop :=
  (∀ m, (d.tallies.get m).mapM Tally.summary =
    .ok ((w.metrics.get m).days.get (place d.start.date))) ∧
    w.rain.days.get (place d.start.date) = some d.rainSummary

/-- A place of two weeks holds the same. -/
def SamePlace (p : Fin 7) (w w' : WeeklyView α) : Prop :=
  (∀ m, (w'.metrics.get m).days.get p = (w.metrics.get m).days.get p) ∧
    w'.rain.days.get p = w.rain.days.get p

theorem Agrees.of_samePlace {w w' : WeeklyView α} {d : DailyView α} (h : w.Agrees d)
    (hp : SamePlace (place d.start.date) w w') : w'.Agrees d :=
  ⟨fun m => by rw [hp.1 m]; exact h.1 m, by rw [hp.2]; exact h.2⟩

theorem outcome_writeMetric (day : DailyView α) (m : Metric) (w : WeeklyView α) :
    (writeMetric day m).outcome w = match (day.tallies.get m).mapM Tally.summary with
      | .ok summary => (.ok (), { w with
          metrics := w.metrics.set m ((w.metrics.get m).write (place day.start.date) summary) })
      | .error e => (.error (.metric day.id.key e), w) := by
  rw [writeMetric]
  cases (day.tallies.get m).mapM Tally.summary <;> rfl

/-- What writing some metrics of a day leaves in a week. -/
theorem outcome_forM_writeMetric {day : DailyView α} {ms : List Metric} {w w' : WeeklyView α}
    (h : (ms.forM (writeMetric day)).outcome w = (.ok (), w')) :
    ∃ metrics, w' = { w with metrics := metrics } ∧
      (∀ m, m ∈ ms ∨ (day.tallies.get m).mapM Tally.summary =
          .ok ((w.metrics.get m).days.get (place day.start.date)) →
        (day.tallies.get m).mapM Tally.summary =
          .ok ((metrics.get m).days.get (place day.start.date))) ∧
      ∀ m p, p ≠ place day.start.date →
        (metrics.get m).days.get p = (w.metrics.get m).days.get p := by
  induction ms generalizing w with
  | nil =>
    obtain rfl : w = w' := congrArg Prod.snd h
    exact ⟨w.metrics, rfl, fun m hm => hm.resolve_left (by simp), fun _ _ _ => rfl⟩
  | cons m ms ih =>
    obtain ⟨_, w₁, hw₁, h⟩ := Revision.outcome_bind_ok h
    rw [outcome_writeMetric] at hw₁
    split at hw₁
    · next summary hs =>
      cases hw₁
      obtain ⟨metrics, rfl, hall, hkept⟩ := ih h
      refine ⟨metrics, rfl, fun k hk => hall k ?_, fun k p hp => ?_⟩
      · by_cases hkm : k = m
        · subst hkm
          rw [PerMetric.get_set_self, WeeklySeries.get_write_self]
          exact .inr hs
        · rw [PerMetric.get_set_ne _ hkm]
          simpa [hkm] using hk
      · rw [hkept k p hp]
        by_cases hkm : k = m
        · subst hkm
          rw [PerMetric.get_set_self, WeeklySeries.get_write_ne _ hp]
        · rw [PerMetric.get_set_ne _ hkm]
    · cases hw₁

/-- What is written of a day that belongs into a week. -/
def writeDay (day : DailyView α) : Revision ApplyDayError (WeeklyView α) Unit := do
  Metric.all.forM (writeMetric day)
  modify fun w => { w with rain := w.rain.write (place day.start.date) day.rainSummary }

theorem outcome_applyDay (day : DailyView α) (w : WeeklyView α) :
    (applyDay day).outcome w =
      if day.device ≠ w.device then (.error (.deviceMismatch day.id.key w.device day.device), w)
      else if IsoWeek.of day.start.date ≠ w.week then (.error (.weekMismatch day.id.key w.week), w)
      else if !day.isSealed then (.error (.notSealed day.id.key), w)
      else (writeDay day).outcome w := by
  rw [applyDay, Revision.outcome_bind]
  change Revision.outcome (if day.device ≠ w.device then _ else _) w = _
  split_ifs <;> rfl

/-- A day that was written agrees, and all other places stay. -/
theorem applyDay_spec {day : DailyView α} {w w' : WeeklyView α}
    (h : (applyDay day).result w = .ok w') :
    w'.Agrees day ∧ SameWeek w w' ∧ ∀ p, p ≠ place day.start.date → SamePlace p w w' := by
  rw [Revision.result_eq_ok, outcome_applyDay] at h
  split_ifs at h
  · cases h
  · cases h
  · cases h
  · obtain ⟨_, w₁, hw₁, h⟩ := Revision.outcome_bind_ok h
    obtain ⟨metrics, rfl, hall, hkept⟩ := outcome_forM_writeMetric hw₁
    cases h
    refine ⟨⟨fun m => hall m (.inl m.mem_all), WeeklySeries.get_write_self _ _ _⟩,
      ⟨rfl, rfl, rfl, rfl⟩, fun p hp => ⟨fun m => hkept m p hp, ?_⟩⟩
    exact WeeklySeries.get_write_ne _ hp _

theorem applyDays_sameWeek {days : List (DailyView α)} {w w' : WeeklyView α}
    (h : Rollup.applyDays days w = .ok w') : SameWeek w w' :=
  foldlM_ok (fun _ _ _ _ hd hw => hw.trans (applyDay_spec hd).2.1) (.refl w) h

theorem applyDays_append (days days' : List (DailyView α)) (w : WeeklyView α) :
    Rollup.applyDays (days ++ days') w = Rollup.applyDays days w >>= Rollup.applyDays days' :=
  List.foldlM_append

/-- A place of a week holds the last of some days that belong there. Where there is none, it holds
    what it held in an earlier state of the week. -/
def HoldsLast (days : List (DailyView α)) (p : Fin 7) (w w' : WeeklyView α) : Prop :=
  match (days.filter fun d => place d.start.date = p).getLast? with
  | none => SamePlace p w w'
  | some d => w'.Agrees d

/-- Of all days that were written into a place, the last one counts. -/
theorem applyDays_last {days : List (DailyView α)} {w w' : WeeklyView α}
    (h : Rollup.applyDays days w = .ok w') (p : Fin 7) : HoldsLast days p w w' := by
  rw [HoldsLast]
  induction days using List.reverseRecOn generalizing w' with
  | nil =>
    obtain rfl : w = w' := Except.ok.inj h
    exact ⟨fun _ => rfl, rfl⟩
  | append_singleton days d ih =>
    rw [applyDays_append] at h
    obtain ⟨w₁, hw₁, h⟩ := bind_eq_ok.1 h
    obtain ⟨w₂, hd, h⟩ := bind_eq_ok.1 h
    obtain rfl : w₂ = w' := Except.ok.inj h
    obtain ⟨hagrees, -, hkept⟩ := applyDay_spec hd
    by_cases hp : place d.start.date = p
    · rw [List.filter_append, List.filter_cons_of_pos (by simpa using hp), List.filter_nil,
        List.getLast?_concat]
      exact hagrees
    · rw [List.filter_append, List.filter_cons_of_neg (by simpa using hp), List.filter_nil,
        List.append_nil]
      have hsame := hkept p (Ne.symm hp)
      have hlast := ih hw₁
      split at hlast
      · exact ⟨fun m => (hsame.1 m).trans (hlast.1 m), hsame.2.trans hlast.2⟩
      · next d' hd' =>
        have hp' := (List.mem_filter.1 (List.mem_of_getLast? hd')).2
        rw [decide_eq_true_iff] at hp'
        exact hlast.of_samePlace (hp'.symm ▸ hsame)

/-- The days that were written agree, and all other places stay. -/
theorem applyDays_spec {days : List (DailyView α)} {w w' : WeeklyView α}
    (h : Rollup.applyDays days w = .ok w')
    (huniq : ∀ d ∈ days, ∀ d' ∈ days, place d.start.date = place d'.start.date → d = d') :
    (∀ d ∈ days, w'.Agrees d) ∧
      ∀ p, (∀ d ∈ days, place d.start.date ≠ p) → SamePlace p w w' := by
  refine ⟨fun d hd => ?_, fun p hp => ?_⟩
  · have hlast := applyDays_last h (place d.start.date)
    rw [HoldsLast] at hlast
    split at hlast
    · next hnone =>
      rw [List.getLast?_eq_none_iff, List.filter_eq_nil_iff] at hnone
      exact absurd (by simp) (hnone d hd)
    · next d' hd' =>
      -- The last day in the place is the only one.
      obtain ⟨hmem, hplace⟩ := List.mem_filter.1 (List.mem_of_getLast? hd')
      rw [huniq d hd d' hmem (of_decide_eq_true hplace).symm]
      exact hlast
  · have hlast := applyDays_last h p
    rwa [HoldsLast, List.filter_eq_nil_iff.2 fun d hd => by simpa using hp d hd] at hlast

/-! ## Versions -/

/-- A day is written into a week whatever the version of the week is. -/
theorem applyDay_version (day : DailyView α) (w : WeeklyView α) (t : Option Version) :
    (applyDay day).result { w with version := t } =
      ((applyDay day).result w).map fun w => { w with version := t } := by
  have hwrite : Revision.Commutes (fun w : WeeklyView α => { w with version := t })
      (writeDay day) := by
    refine Revision.Commutes.bind (Revision.commutes_forM (fun m w => ?_) _) fun _ =>
      Revision.commutes_modify fun _ => rfl
    rw [outcome_writeMetric, outcome_writeMetric]
    cases (day.tallies.get m).mapM Tally.summary <;> rfl
  refine Revision.Commutes.result (m := fun w : WeeklyView α => { w with version := t })
    (fun w => ?_) w
  rw [outcome_applyDay, outcome_applyDay]
  split_ifs
  · rfl
  · rfl
  · rfl
  · exact hwrite w

theorem applyDays_version (days : List (DailyView α)) (w : WeeklyView α) (t : Option Version) :
    Rollup.applyDays days { w with version := t } =
      (Rollup.applyDays days w).map fun w => { w with version := t } :=
  foldlM_map (m := fun w : WeeklyView α => { w with version := t })
    (fun w d => applyDay_version d w t) w

end WeeklyView

end WeatherStation
