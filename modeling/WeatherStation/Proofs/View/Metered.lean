import WeatherStation.Proofs.View.Fold
import WeatherStation.Proofs.View.Sealed

/-!
# Where the values of a reading go

A reading that lies in a window adds the value of each of its metrics to one tally of the window,
and in a day also to the tally of its hour. All other tallies stay. It fails only if one of these
tallies does not take its value.

Results:
* `WindowView.tally?`: the tallies of a window, by metric and hour.
* `WindowView.addMetric_tally?`, `WindowView.addMetric_error`: one value.
* `WindowView.fold_tally?`, `WindowView.fold_error`: all values of a reading.
-/

namespace WeatherStation

variable {α : Type} {g : Granularity}

namespace WindowView

/-- The tally of a metric in the whole window, or in one of its hours. -/
def tally? : {g : Granularity} → WindowView g α → Metric × Option UInt32 → Option (Tally α)
  | .hourly, w, (m, none) => w.tallies.get m
  | .hourly, _, (_, some _) => none
  | .daily, w, p => DailyView.tally? w p

theorem tally?_none (w : WindowView g α) (m : Metric) : w.tally? (m, none) = w.tallies.get m := by
  cases g <;> rfl

/-- A window whose tallies and detail are the same has the same tallies. -/
theorem tally?_congr (w w' : WindowView g α) (ht : w'.tallies = w.tallies)
    (hd : w'.detail = w.detail) (p : Metric × Option UInt32) : w'.tally? p = w.tally? p := by
  obtain ⟨m, place⟩ := p
  cases g with
  | hourly => cases place with
    | none => exact congrArg (·.get m) ht
    | some hour => rfl
  | daily => cases place with
    | none => exact congrArg (·.get m) ht
    | some hour => simp only [tally?, DailyView.tally?, DailyView.hours, hd]

theorem tally?_empty (device : String) (start : Instant) (p : Metric × Option UInt32) :
    (empty device start : WindowView g α).tally? p = none := by
  obtain ⟨m, _ | hour⟩ := p <;> cases g <;> cases m <;> rfl

/-- The tallies that a value at an hour goes into. -/
def Receives (g : Granularity) (hour : UInt32) (p : Metric × Option UInt32) : Prop :=
  p.2 = none ∨ g = .daily ∧ p.2 = some hour

instance (g : Granularity) (hour : UInt32) (p : Metric × Option UInt32) :
    Decidable (Receives g hour p) :=
  inferInstanceAs (Decidable (_ ∨ _))

variable [Quantity α]

/-- What a value does to a tally, if it goes there. -/
def Added (x : Option α) (t t' : Option (Tally α)) : Prop :=
  match x with
  | none => t' = t
  | some x => ∃ s, addValue x t = .ok s ∧ t' = some s

theorem Added.isSome_iff {x : Option α} {t t' : Option (Tally α)} (h : Added x t t') :
    t'.isSome ↔ t.isSome ∨ x.isSome := by
  cases x with
  | none =>
    obtain rfl : t' = t := h
    simp
  | some x =>
    obtain ⟨u, -, rfl⟩ := h
    simp

theorem Added.unique {x : Option α} {t t' t'' : Option (Tally α)} (h : Added x t t')
    (h' : Added x t t'') : t' = t'' := by
  cases x with
  | none => exact Eq.trans h (Eq.symm h')
  | some x =>
    obtain ⟨u, hu, rfl⟩ := h
    obtain ⟨u', hu', rfl⟩ := h'
    rw [hu, Except.ok.injEq] at hu'
    rw [hu']

theorem addMetric_tally? {hour : UInt32} {w w' : WindowView g α} {v : Metric × α}
    (h : w.addMetric hour v = .ok w') (p : Metric × Option UInt32) :
    Added (if Receives g hour p ∧ p.1 = v.1 then some v.2 else none) (w.tally? p)
      (w'.tally? p) := by
  obtain ⟨k, x⟩ := v
  obtain ⟨m, place⟩ := p
  obtain ⟨t, ht, h⟩ := bind_eq_ok.1 h
  obtain ⟨detail, hd, h⟩ := bind_eq_ok.1 h
  cases h
  cases g with
  | hourly =>
    cases place with
    | none =>
      by_cases hm : m = k
      · subst hm
        simpa [Receives, Added, tally?] using ht
      · simp [Receives, Added, tally?, hm, PerMetric.get_set_ne]
    | some hour' => simp [Receives, Added, tally?]
  | daily =>
    obtain ⟨t', ht', hd⟩ := bind_eq_ok.1 hd
    cases hd
    change Added _ (DailyView.tally? w (m, place)) (DailyView.tally?
      (DailyView.setTally (DailyView.setTally w t (k, none)) t' (k, some hour)) (m, place))
    by_cases hhour : (m, place) = (k, some hour)
    · rw [hhour, DailyView.tally?_setTally_self, if_pos ⟨.inr ⟨rfl, rfl⟩, rfl⟩]
      exact ⟨t', ht', rfl⟩
    rw [DailyView.tally?_setTally_ne _ _ hhour]
    by_cases hwhole : (m, place) = (k, none)
    · rw [hwhole, DailyView.tally?_setTally_self, if_pos ⟨.inl rfl, rfl⟩]
      exact ⟨t, ht, rfl⟩
    rw [DailyView.tally?_setTally_ne _ _ hwhole, if_neg]
    · exact rfl
    · rintro ⟨rfl | ⟨-, rfl⟩, rfl⟩
      · exact hwhole rfl
      · exact hhour rfl

/-- A value is not taken only if one of its tallies does not take it. -/
theorem addMetric_error {hour : UInt32} {w : WindowView g α} {v : Metric × α}
    {e : Failure TallyError} (h : w.addMetric hour v = .error e) :
    ∃ place, Receives g hour (v.1, place) ∧ addValue v.2 (w.tally? (v.1, place)) = .error e := by
  rcases bind_eq_error.1 h with ht | ⟨t, -, h⟩
  · exact ⟨none, .inl rfl, by rw [tally?_none]; exact ht⟩
  rcases bind_eq_error.1 h with hd | ⟨detail, -, h⟩
  · cases g with
    | hourly => cases hd
    | daily =>
      rcases bind_eq_error.1 hd with ht' | ⟨t', -, hd⟩
      · exact ⟨some hour, .inr ⟨rfl, rfl⟩, ht'⟩
      · cases hd
  · cases h

/-! ## All values -/

/-- The values of some metrics, each in order. -/
theorem foldlM_addMetric_tally? {hour : UInt32} {values : Metric → Option α} {ms : List Metric}
    (hn : ms.Nodup) {w w' : WindowView g α}
    (h : (ms.filterMap fun m => (values m).map (m, ·)).foldlM (addMetric hour) w = .ok w')
    (p : Metric × Option UInt32) :
    Added (if Receives g hour p ∧ p.1 ∈ ms then values p.1 else none) (w.tally? p)
      (w'.tally? p) := by
  induction ms generalizing w with
  | nil =>
    cases h
    simp [Added]
  | cons m ms ih =>
    obtain ⟨hm, hn⟩ := List.nodup_cons.1 hn
    cases hv : values m with
    | none =>
      rw [List.filterMap_cons_none (by rw [hv]; rfl)] at h
      have hrest := ih hn h
      by_cases hp : p.1 = m
      · rw [if_neg fun hr => hm (hp ▸ hr.2)] at hrest
        rwa [hp, hv, ite_self]
      · simpa [hp] using hrest
    | some x =>
      rw [List.filterMap_cons_some (by rw [hv]; rfl), List.foldlM_cons] at h
      obtain ⟨w₁, hw₁, h⟩ := bind_eq_ok.1 h
      have hfirst := addMetric_tally? hw₁ p
      have hrest := ih hn h
      by_cases hp : p.1 = m
      · rw [if_neg fun hr => hm (hp ▸ hr.2)] at hrest
        have hsame : w'.tally? p = w₁.tally? p := hrest
        simpa [hp, hv, hsame] using hfirst
      · have hsame : w₁.tally? p = w.tally? p := by simpa [hp, Added] using hfirst
        rw [hsame] at hrest
        simpa [hp] using hrest

/-- If the values are not all taken, one of the tallies does not take its value. -/
theorem foldlM_addMetric_error {hour : UInt32} {values : Metric → Option α} {ms : List Metric}
    (hn : ms.Nodup) {w : WindowView g α} {e : Failure TallyError}
    (h : (ms.filterMap fun m => (values m).map (m, ·)).foldlM (addMetric hour) w = .error e) :
    ∃ p x, Receives g hour p ∧ p.1 ∈ ms ∧ values p.1 = some x ∧
      addValue x (w.tally? p) = .error e := by
  induction ms generalizing w with
  | nil => cases h
  | cons m ms ih =>
    obtain ⟨hm, hn⟩ := List.nodup_cons.1 hn
    cases hv : values m with
    | none =>
      rw [List.filterMap_cons_none (by rw [hv]; rfl)] at h
      obtain ⟨p, x, hr, hp, hx⟩ := ih hn h
      exact ⟨p, x, hr, List.mem_cons_of_mem m hp, hx⟩
    | some x =>
      rw [List.filterMap_cons_some (by rw [hv]; rfl), List.foldlM_cons] at h
      rcases bind_eq_error.1 h with h | ⟨w₁, hw₁, h⟩
      · obtain ⟨place, hr, hx⟩ := addMetric_error h
        exact ⟨(m, place), x, hr, List.mem_cons_self, hv, hx⟩
      · obtain ⟨p, y, hr, hp, hy, hadd⟩ := ih hn h
        have hsame := addMetric_tally? hw₁ p
        rw [if_neg (fun he : _ ∧ p.1 = m => hm (he.2 ▸ hp))] at hsame
        have hsame : w₁.tally? p = w.tally? p := hsame
        exact ⟨p, y, hr, List.mem_cons_of_mem m hp, hy, hsame ▸ hadd⟩

/-- The values that a reading adds to a tally of a window. -/
def valueFor (r : Reading α) (inside : Bool) (g : Granularity) (p : Metric × Option UInt32) :
    Option α :=
  if inside ∧ Receives g (UInt32.ofNat r.time.hour) p then r.values.get p.1 else none

omit [Quantity α] in
theorem valueFor_whole (r : Reading α) (inside : Bool) (g : Granularity) (m : Metric) :
    valueFor r inside g (m, none) = if inside then r.values.get m else none := by
  simp [valueFor, Receives]

omit [Quantity α] in
theorem valueFor_hour (r : Reading α) (inside : Bool) (g : Granularity) (m : Metric)
    (hour : UInt32) : valueFor r inside g (m, some hour) =
      if inside ∧ g = .daily ∧ hour = UInt32.ofNat r.time.hour then r.values.get m else none := by
  simp [valueFor, Receives]

omit [Quantity α] in
theorem carried_eq (r : Reading α) :
    r.carried = Metric.all.filterMap fun m => (r.values.get m).map (m, ·) := by
  rw [Reading.carried, PerMetric.toList, List.filterMap_map]
  rfl

theorem tally?_rained (settings : IngestSettings) (buckets : Option (Buckets α))
    (w : WindowView g α) (p : Metric × Option UInt32) :
    (w.rained settings buckets).tally? p = w.tally? p := by
  cases buckets with
  | none => rfl
  | some b => exact tally?_congr w (w.addRain settings b) rfl rfl p

/-- What folding a reading in does to the tallies of a window. -/
theorem fold_tally? {settings : IngestSettings} {r : Reading α} {buckets : Option (Buckets α)}
    {w w' : WindowView g α} (h : w.fold settings r buckets = .ok w') :
    ∃ inside, w.contains r.time = .ok inside ∧
      ∀ p, Added (valueFor r inside g p) (w.tally? p) (w'.tally? p) := by
  rw [fold_eq] at h
  split at h
  · cases h
  · next inside hinside =>
    refine ⟨inside, hinside, fun p => ?_⟩
    obtain ⟨folded, hfolded, rfl⟩ := map_eq_ok h
    have hnoted : (folded.noted r).tally? p = folded.tally? p :=
      tally?_congr folded (folded.noted r) rfl rfl p
    rw [hnoted, ← tally?_rained settings buckets]
    rw [metered] at hfolded
    split at hfolded
    · next hin =>
      rw [carried_eq] at hfolded
      have := foldlM_addMetric_tally? (by decide) hfolded p
      simpa [valueFor, hin, p.1.mem_all] using this
    · next hin =>
      cases hfolded
      simp [valueFor, hin, Added]

/-- A reading is not folded in only if the window's end lies outside the calendar, or one of its
    tallies does not take its value. -/
theorem fold_error {settings : IngestSettings} {r : Reading α} {buckets : Option (Buckets α)}
    {w : WindowView g α} {e : Failure TallyError} (h : w.fold settings r buckets = .error e) :
    (∃ o, w.contains r.time = .error o ∧ e = .overflow o) ∨
      ∃ p x, valueFor r true g p = some x ∧ w.contains r.time = .ok true ∧
        addValue x (w.tally? p) = .error e := by
  rw [fold_eq] at h
  split at h
  · next o ho =>
    cases h
    exact .inl ⟨o, ho, rfl⟩
  · next inside hinside =>
    have hm := map_eq_error h
    rw [metered] at hm
    split at hm
    · next hin =>
      rw [carried_eq] at hm
      obtain ⟨p, x, hr, -, hx, hadd⟩ := foldlM_addMetric_error (by decide) hm
      refine .inr ⟨p, x, ?_, hin ▸ hinside, ?_⟩
      · rw [valueFor, if_pos ⟨rfl, hr⟩, hx]
      · rwa [tally?_rained] at hadd
    · cases hm

end WindowView

end WeatherStation
