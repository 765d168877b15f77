import WeatherStation.Proofs.Rain.Resampling
import WeatherStation.Proofs.View.Closing
import WeatherStation.Proofs.View.Metered
import WeatherStation.Proofs.View.Rain

/-!
# Averages lie between extremes

Over the rationals the average of a tally, of a summary and of a week lies between the extremes that
stand beside it, and no rain is negative. Each of these is computed by code of its own: running
sums, closed tallies, wet slots, and the means of the averages of days.

Results:
* `Quantity.least_rat`, `Quantity.greatest_rat`, `Quantity.mean_rat`: extremes and means of a list.
* `Summary.Ordered`, `Tally.Encloses`: the average of a summary and of a tally.
* `WindowView.encloses_fold`, `DailyView.encloses_close`: folding a reading in and closing.
* `DailyView.rainSummary_ordered`: the rain of a day.
* `WeeklyView.encloses_applyDays`: writing days into a week.
-/

namespace WeatherStation

namespace Quantity

theorem least_rat (x : ℚ) (xs : List ℚ) :
    least x xs ∈ x :: xs ∧ ∀ y ∈ x :: xs, least x xs ≤ y := by
  have hmin : (x :: xs).min? = some (least x xs) := by
    rw [List.min?_cons', least, ← funext₂ lesser_rat]
    rfl
  exact List.min?_eq_some_iff.1 hmin

theorem greatest_rat (x : ℚ) (xs : List ℚ) :
    greatest x xs ∈ x :: xs ∧ ∀ y ∈ x :: xs, y ≤ greatest x xs := by
  have hmax : (x :: xs).max? = some (greatest x xs) := by
    rw [List.max?_cons', greatest, ← funext₂ greater_rat]
    rfl
  exact List.max?_eq_some_iff.1 hmax

/-- The mean of some values lies between the bounds of these values. -/
theorem mean_rat {x lo hi : ℚ} {xs : List ℚ} (h : ∀ y ∈ x :: xs, lo ≤ y ∧ y ≤ hi) :
    lo ≤ mean (x :: xs) ∧ mean (x :: xs) ≤ hi := by
  have hmean : mean (x :: xs) = (x :: xs).sum / ((x :: xs).length : ℚ) := by
    rw [mean, sum, List.sum_eq_foldl]
    rfl
  have hpos : (0 : ℚ) < ((x :: xs).length : ℚ) := by
    rw [List.length_cons]
    positivity
  have hlow := List.card_nsmul_le_sum (x :: xs) lo fun y hy => (h y hy).1
  have hhigh := List.sum_le_card_nsmul (x :: xs) hi fun y hy => (h y hy).2
  rw [nsmul_eq_mul] at hlow hhigh
  rw [hmean, le_div_iff₀ hpos, div_le_iff₀ hpos, mul_comm lo, mul_comm hi]
  exact ⟨hlow, hhigh⟩

end Quantity

/-! ## Summaries and tallies -/

/-- The average lies between the extremes. -/
def Summary.Ordered (s : Summary ℚ) : Prop := s.min ≤ s.avg ∧ s.avg ≤ s.max

namespace Tally

/-- An active tally has values, and their average lies between the extremes. So does the average of
    a closed one. -/
def Encloses : Tally ℚ → Prop
  | .active sum count min max => 1 ≤ count ∧ min ≤ sum / count.toNat ∧ sum / count.toNat ≤ max
  | .closed s => s.Ordered

theorem encloses_single (x : ℚ) : (single x).Encloses := by
  refine ⟨by decide, ?_, ?_⟩
  · rw [UInt64.toNat_one, Nat.cast_one, div_one]
  · rw [UInt64.toNat_one, Nat.cast_one, div_one]

theorem toNat_pos_of_one_le {count : UInt64} (h : 1 ≤ count) : (0 : ℚ) < count.toNat := by
  have hle : 1 ≤ count.toNat := UInt64.le_iff_toNat_le.1 h
  exact_mod_cast hle

/-- One more value moves the average no further than the extremes. -/
theorem Encloses.add {t t' : Tally ℚ} {x : ℚ} (ht : t.Encloses) (h : t.add x = .ok t') :
    t'.Encloses := by
  cases t with
  | closed s => cases h
  | active sum count min max =>
    obtain ⟨hcount, hmin, hmax⟩ := ht
    have hpos := toNat_pos_of_one_le hcount
    rw [le_div_iff₀ hpos] at hmin
    rw [div_le_iff₀ hpos] at hmax
    rw [Tally.add] at h
    split_ifs at h with hroom
    cases h
    have hsucc : (count + 1).toNat = count.toNat + 1 := by
      rw [UInt64.toNat_add, UInt64.toNat_one, Nat.mod_eq_of_lt hroom]
    have hone : 1 ≤ count + 1 := UInt64.le_iff_toNat_le.2 (by rw [hsucc]; exact Nat.le_add_left _ _)
    have hpos' := toNat_pos_of_one_le hone
    refine ⟨hone, ?_, ?_⟩
    · rw [Quantity.lesser_rat, le_div_iff₀ hpos', hsucc, Nat.cast_succ, mul_add_one]
      have hold := mul_le_mul_of_nonneg_right (min_le_left min x) hpos.le
      exact add_le_add (hold.trans hmin) (min_le_right min x)
    · rw [Quantity.greater_rat, div_le_iff₀ hpos', hsucc, Nat.cast_succ, mul_add_one]
      have hold := mul_le_mul_of_nonneg_right (le_max_left max x) hpos.le
      exact add_le_add (hmax.trans hold) (le_max_right max x)

theorem Encloses.addValue {t : Option (Tally ℚ)} {t' : Tally ℚ} {x : ℚ}
    (ht : ∀ u, t = some u → u.Encloses) (h : WindowView.addValue x t = .ok t') :
    t'.Encloses := by
  cases t with
  | none =>
    cases h
    exact encloses_single x
  | some u => exact (ht u rfl).add h

/-- The summary of a tally has the average between the extremes. -/
theorem Encloses.summary {t : Tally ℚ} {s : Summary ℚ} (ht : t.Encloses)
    (h : t.summary = .ok s) : s.Ordered := by
  obtain ⟨avg, havg, h⟩ := bind_eq_ok.1 h
  cases h
  cases t with
  | closed s =>
    cases havg
    exact ht
  | active sum count min max =>
    rw [average] at havg
    split_ifs at havg
    cases havg
    exact ht.2

theorem Encloses.closes {t c : Tally ℚ} (ht : t.Encloses) (h : t.Closes c) : c.Encloses := by
  obtain ⟨avg, havg, rfl⟩ := h
  refine ht.summary (s := ⟨t.min, t.max, avg⟩) ?_
  rw [Tally.summary, havg]
  rfl

end Tally

/-! ## Rain -/

/-- No slot has negative rain. -/
def RainWindow.NonNeg (w : RainWindow ℚ) : Prop := ∀ x ∈ w.values, 0 ≤ x

/-- Rain that was resampled from tips of no negative value is not negative. -/
theorem nonneg_of_resample {c : RainCounts ℚ} {u : ℚ} {target : UInt32} {buckets : Buckets ℚ}
    (hu : 0 ≤ u) (h : resample c u target = .ok buckets) : ∀ x ∈ buckets.values, 0 ≤ x := by
  intro x hx
  obtain ⟨t, ht⟩ := SortedMap.mem_values_iff.1 hx
  rw [(resampledTo_of_resample h).rain t x ht]
  refine List.sum_nonneg fun y hy => ?_
  obtain ⟨e, -, rfl⟩ := List.mem_map.1 hy
  positivity

namespace RainWindow

theorem nonNeg_dry (start : Instant) (interval : UInt32) (slots : ℕ) :
    (dry start interval slots : RainWindow ℚ).NonNeg :=
  fun _ hx => (List.eq_of_mem_replicate hx).ge

theorem NonNeg.mergeBucket {w : RainWindow ℚ} (hw : w.NonNeg) (mode : MergeMode)
    {bucket : Instant × ℚ} (hb : 0 ≤ bucket.2) : (w.mergeBucket mode bucket).NonNeg := by
  rw [RainWindow.mergeBucket]
  split_ifs
  · exact hw
  · intro x hx
    obtain ⟨j, hj⟩ := List.mem_iff_getElem?.1 hx
    rw [List.getElem?_modify] at hj
    obtain ⟨y, hy, hyx⟩ := Option.map_eq_some_iff.1 hj
    have hy : 0 ≤ y := hw y (List.mem_iff_getElem?.2 ⟨j, hy⟩)
    split_ifs at hyx
    · cases mode with
      | sum =>
        rw [← hyx]
        exact add_nonneg hy hb
      | max =>
        rw [← hyx, MergeMode.join, Quantity.greater_rat]
        exact le_max_of_le_left hy
    · exact hyx ▸ hy

theorem NonNeg.merge {w : RainWindow ℚ} (hw : w.NonNeg) (mode : MergeMode) {buckets : Buckets ℚ}
    (hb : ∀ x ∈ buckets.values, 0 ≤ x) : (w.merge mode buckets).NonNeg := by
  have hentries : ∀ e ∈ buckets.entries, 0 ≤ e.2 := fun e he => hb e.2 (List.mem_map_of_mem he)
  rw [RainWindow.merge]
  split_ifs with hwidth
  · exact hw
  clear hwidth
  generalize buckets.entries = es at hentries
  induction es generalizing w with
  | nil => exact hw
  | cons e es ih =>
    exact ih (hw.mergeBucket mode (hentries e List.mem_cons_self))
      fun e' he' => hentries e' (List.mem_cons_of_mem e he')

/-- The average of the wet slots lies between the extremes. -/
theorem stats_ordered {w : RainWindow ℚ} {s : Summary ℚ} (h : w.stats = some s) : s.Ordered := by
  rw [stats] at h
  split at h
  · cases h
  · next x xs _ =>
    cases h
    exact Quantity.mean_rat fun y hy =>
      ⟨(Quantity.least_rat x xs).2 y hy, (Quantity.greatest_rat x xs).2 y hy⟩

end RainWindow

/-- The rain of a day has the average between the extremes, also if the day was dry. -/
theorem DailyView.rainSummary_ordered (d : DailyView ℚ) : d.rainSummary.Ordered := by
  rw [rainSummary]
  cases hs : d.rain.bind RainWindow.stats with
  | none => exact ⟨le_rfl, le_rfl⟩
  | some s =>
    obtain ⟨w, -, hw⟩ := Option.bind_eq_some_iff.1 hs
    exact RainWindow.stats_ordered hw

/-! ## Latest views and windows -/

/-- No rain in the view is negative. -/
def LatestView.NonNeg (v : LatestView ℚ) : Prop := ∀ rain, v.rain = some rain → rain.NonNeg

/-- The latest view of a reading whose tips have no negative value. -/
theorem LatestView.nonNeg_ofReading {settings : IngestSettings} {r : Reading ℚ} {v : LatestView ℚ}
    (hr : ∀ c, r.rain = some c → 0 ≤ c.unitValue) (h : ofReading settings r = .ok v) :
    v.NonNeg := by
  obtain ⟨rain, hrain, h⟩ := bind_eq_ok.1 h
  cases h
  intro w hw
  obtain rfl : rain = some w := hw
  cases hc : r.rain with
  | none =>
    rw [hc] at hrain
    cases hrain
  | some c =>
    rw [hc, Option.mapM_some] at hrain
    obtain ⟨w', hw', hsome⟩ := map_eq_ok hrain
    obtain rfl : w' = w := Option.some.inj hsome
    obtain ⟨buckets, hbuckets, hw'⟩ := bind_eq_ok.1 hw'
    split at hw'
    · cases hw'
      exact (RainWindow.nonNeg_dry _ _ _).merge _ (nonneg_of_resample (hr c hc) hbuckets)
    · cases hw'

namespace WindowView

variable {g : Granularity}

/-- The averages of all tallies lie between the extremes, and no rain is negative. -/
structure Encloses (w : WindowView g ℚ) : Prop where
  tallies : ∀ p t, w.tally? p = some t → t.Encloses
  rain : ∀ rain, w.rain = some rain → rain.NonNeg

theorem encloses_empty (device : String) (start : Instant) :
    (empty device start : WindowView g ℚ).Encloses := by
  refine ⟨fun p t ht => ?_, fun rain hrain => by cases hrain⟩
  rw [tally?_empty] at ht
  cases ht

theorem encloses_setVersion {w : WindowView g ℚ} (hw : w.Encloses) (t : Option Version) :
    (w.setVersion t).Encloses := by
  refine ⟨fun p u hu => hw.tallies p u ?_, hw.rain⟩
  rwa [tally?_congr w (w.setVersion t) rfl rfl p] at hu

/-- A reading whose tips have no negative value was folded in. -/
theorem encloses_fold {settings : IngestSettings} {r : Reading ℚ} {buckets : Option (Buckets ℚ)}
    {w w' : WindowView g ℚ} (hr : ∀ c, r.rain = some c → 0 ≤ c.unitValue)
    (hb : Ingest.rainBuckets settings g r = .ok buckets) (hw : w.Encloses)
    (h : w.fold settings r buckets = .ok w') : w'.Encloses := by
  obtain ⟨inside, -, hadded⟩ := fold_tally? h
  refine ⟨fun p t ht => ?_, fun rain hrain => ?_⟩
  · have hp := hadded p
    rw [ht] at hp
    cases hx : valueFor r inside g p with
    | none =>
      rw [hx] at hp
      have hsame : some t = w.tally? p := hp
      exact hw.tallies p t hsame.symm
    | some x =>
      rw [hx] at hp
      obtain ⟨t', ht', hsome⟩ := hp
      rw [Option.some.inj hsome]
      exact Tally.Encloses.addValue (hw.tallies p) ht'
  · rw [fold_rain h] at hrain
    rcases Ingest.rainBuckets_ok hb with ⟨-, rfl⟩ | ⟨c, map, hc, rfl, hmap⟩
    · exact hw.rain rain hrain
    · obtain rfl := Option.some.inj hrain
      refine RainWindow.NonNeg.merge ?_ _ (nonneg_of_resample (hr c hc) hmap)
      cases hold : w.rain with
      | none => exact RainWindow.nonNeg_dry _ _ _
      | some old => exact hw.rain old hold

end WindowView

/-- A day was closed. -/
theorem DailyView.encloses_close {d c : DailyView ℚ} (hd : WindowView.Encloses d)
    (h : close.result d = .ok c) : WindowView.Encloses c := by
  have hsealed := sealedAs_of_close h
  refine ⟨fun p t ht => ?_, ?_⟩
  · have hcloses := hsealed.closes p
    have ht : c.tally? p = some t := ht
    rw [ht] at hcloses
    cases hp : d.tally? p with
    | none =>
      rw [hp] at hcloses
      cases hcloses
    | some u =>
      rw [hp] at hcloses
      cases hcloses with
      | some hu => exact (hd.tallies p u hp).closes hu
  · rw [hsealed.frame]
    exact hd.rain

/-! ## Weeks -/

namespace WeeklySeries

/-- The averages of a series lie between the extremes, and its summary is there if one of its days
    is; it has the least and the greatest value of all of them. -/
structure Encloses (s : WeeklySeries ℚ) : Prop where
  days : ∀ p d, s.days.get p = some d → d.Ordered
  summary : ∀ t, s.summary = some t → t.Ordered
  none_iff : s.summary = none ↔ ∀ p, s.days.get p = none
  least : ∀ t, s.summary = some t →
    (∃ p d, s.days.get p = some d ∧ d.min = t.min) ∧ ∀ p d, s.days.get p = some d → t.min ≤ d.min
  greatest : ∀ t, s.summary = some t →
    (∃ p d, s.days.get p = some d ∧ d.max = t.max) ∧ ∀ p d, s.days.get p = some d → d.max ≤ t.max

/-- A series whose summary is that of its days. -/
theorem encloses_of_recompute {s : WeeklySeries ℚ}
    (hdays : ∀ p d, s.days.get p = some d → d.Ordered) (hs : s.recompute = s) : s.Encloses := by
  have hsummary : s.summary = summarize (s.days.toList.filterMap fun d => d) := by
    rw [← hs]
    rfl
  have hmem (d : Summary ℚ) : d ∈ s.days.toList.filterMap (fun d => d) ↔
      ∃ p, s.days.get p = some d := by
    rw [← mem_days, List.mem_filterMap]
    simp
  cases hlist : s.days.toList.filterMap (fun d => d) with
  | nil =>
    rw [hlist] at hsummary hmem
    have hsummary : s.summary = none := hsummary
    have hnone (p : Fin 7) : s.days.get p = none := by
      refine Option.eq_none_iff_forall_ne_some.2 fun d hd => ?_
      cases (hmem d).2 ⟨p, hd⟩
    refine ⟨hdays, ?_, iff_of_true hsummary hnone, ?_, ?_⟩
    all_goals
      intro t ht
      rw [hsummary] at ht
      cases ht
  | cons x xs =>
    rw [hlist] at hsummary hmem
    obtain ⟨p₀, hp₀⟩ := (hmem x).1 List.mem_cons_self
    have hleast := Quantity.least_rat x.min (xs.map (·.min))
    have hgreatest := Quantity.greatest_rat x.max (xs.map (·.max))
    rw [← List.map_cons (f := Summary.min)] at hleast
    rw [← List.map_cons (f := Summary.max)] at hgreatest
    have hmin (p : Fin 7) (d : Summary ℚ) (hd : s.days.get p = some d) :=
      hleast.2 d.min (List.mem_map_of_mem ((hmem d).2 ⟨p, hd⟩))
    have hmax (p : Fin 7) (d : Summary ℚ) (hd : s.days.get p = some d) :=
      hgreatest.2 d.max (List.mem_map_of_mem ((hmem d).2 ⟨p, hd⟩))
    refine ⟨hdays, fun t ht => ?_, iff_of_false (by simp [hsummary, summarize])
      fun hnone => by simp [hnone p₀] at hp₀, fun t ht => ?_, fun t ht => ?_⟩
    · rw [hsummary] at ht
      cases ht
      refine Quantity.mean_rat fun y hy => ?_
      rw [← List.map_cons (f := Summary.avg)] at hy
      obtain ⟨d, hd, rfl⟩ := List.mem_map.1 hy
      obtain ⟨p, hp⟩ := (hmem d).1 hd
      obtain ⟨hlow, hhigh⟩ := hdays p d hp
      exact ⟨(hmin p d hp).trans hlow, hhigh.trans (hmax p d hp)⟩
    · rw [hsummary] at ht
      cases ht
      obtain ⟨d, hd, hdmin⟩ := List.mem_map.1 hleast.1
      obtain ⟨p, hp⟩ := (hmem d).1 hd
      exact ⟨⟨p, d, hp, hdmin⟩, hmin⟩
    · rw [hsummary] at ht
      cases ht
      obtain ⟨d, hd, hdmax⟩ := List.mem_map.1 hgreatest.1
      obtain ⟨p, hp⟩ := (hmem d).1 hd
      exact ⟨⟨p, d, hp, hdmax⟩, hmax⟩

end WeeklySeries

namespace WeeklyView

/-- All series of the week have their averages between the extremes. -/
structure Encloses (w : WeeklyView ℚ) : Prop where
  metrics : ∀ m, (w.metrics.get m).Encloses
  rain : w.rain.Encloses

theorem encloses_empty (device : String) (week : IsoWeek) :
    (empty device week : WeeklyView ℚ).Encloses := by
  have hseries : (WeeklySeries.empty : WeeklySeries ℚ).Encloses := by
    refine WeeklySeries.encloses_of_recompute (fun p d hd => ?_) rfl
    rw [WeeklySeries.get_empty] at hd
    cases hd
  refine ⟨fun m => ?_, hseries⟩
  rw [show (empty device week : WeeklyView ℚ).metrics = .const .empty from rfl,
    PerMetric.get_const]
  exact hseries

/-- Days were written into a week. -/
theorem encloses_applyDays {days : List (DailyView ℚ)} {w w' : WeeklyView ℚ} (hw : w.Encloses)
    (hdays : ∀ d ∈ days, WindowView.Encloses d) (h : Rollup.applyDays days w = .ok w') :
    w'.Encloses := by
  by_cases hne : days = []
  · subst hne
    obtain rfl : w = w' := Except.ok.inj h
    exact hw
  obtain ⟨hmetrics, hrain⟩ := recomputed_applyDays h hne
  -- A place holds either what it held or the summaries of one of the days.
  have hplace (p : Fin 7) :
      SamePlace p w w' ∨ ∃ d ∈ days, place d.start.date = p ∧ w'.Agrees d := by
    have hlast := applyDays_last h p
    rw [HoldsLast] at hlast
    split at hlast
    · exact .inl hlast
    · next d hd =>
      obtain ⟨hmem, hp⟩ := List.mem_filter.1 (List.mem_of_getLast? hd)
      exact .inr ⟨d, hmem, of_decide_eq_true hp, hlast⟩
  refine ⟨fun m => WeeklySeries.encloses_of_recompute (fun p s hs => ?_) (hmetrics m),
    WeeklySeries.encloses_of_recompute (fun p s hs => ?_) hrain⟩
  · rcases hplace p with hsame | ⟨d, hd, rfl, hagrees⟩
    · rw [hsame.1 m] at hs
      exact (hw.metrics m).days p s hs
    · have hsummary := hagrees.1 m
      rw [hs] at hsummary
      cases ht : d.tallies.get m with
      | none =>
        rw [ht] at hsummary
        cases hsummary
      | some t =>
        rw [ht, Option.mapM_some] at hsummary
        obtain ⟨s', hs', hsome⟩ := map_eq_ok hsummary
        obtain rfl := Option.some.inj hsome
        exact ((hdays d hd).tallies (m, none) t ht).summary hs'
  · rcases hplace p with hsame | ⟨d, hd, rfl, hagrees⟩
    · rw [hsame.2] at hs
      exact hw.rain.days p s hs
    · rw [hagrees.2] at hs
      exact Option.some.inj hs ▸ d.rainSummary_ordered

end WeeklyView

end WeatherStation
