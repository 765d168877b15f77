import Mathlib.Tactic
import WeatherStation.Proofs.Ingest.Folded
import WeatherStation.Proofs.Rain.Covers
import WeatherStation.Proofs.Rain.Slots

/-!
# Rain of exact values

Over the rationals every slot of a stored histogram holds the rain of the readings that were folded
in, on the seconds of the slot.

Results:
* `RainWindow.getElem?_merge`, `RainWindow.merge_sum`: what a slot gets when buckets are merged in.
* `WindowView.RainOf`: the rain of a window is that of some readings.
* `WindowView.foldlM_take_rain`: the rain of a window after some readings were folded in.
-/

namespace WeatherStation

/-! ## Merging -/

namespace RainWindow

/-- The seconds of a slot of a window. -/
noncomputable def slotSeconds {α : Type} (w : RainWindow α) (j : ℕ) : Finset ℤ :=
  WeatherStation.slotSeconds w.start.seconds w.interval.toNat j

/-- A bucket that starts with some slot of the row, be it before the window or behind it. -/
def Fits {α : Type} (w : RainWindow α) (t : Instant) : Prop :=
  t.nanos = 0 ∧ (w.interval.toNat : ℤ) ∣ t.seconds - w.start.seconds

variable {w : RainWindow ℚ}

/-- Such a bucket lies within the slot that it starts with. -/
theorem Fits.covers_iff {α : Type} {w : RainWindow α} {t : Instant} (ht : w.Fits t)
    (hw : w.interval ≠ 0) (hn : w.start.nanos = 0) (j : ℕ) :
    w.Covers j t ↔ t.seconds = w.start.seconds + j * w.interval.toNat := by
  obtain ⟨hnanos, k, hk⟩ := ht
  have hpos : (0 : ℤ) < w.interval.toNat := by
    have : w.interval.toNat ≠ 0 := fun h => hw (UInt32.toNat_inj.1 h)
    omega
  have hstarts : t.seconds = w.start.seconds + j * w.interval.toNat ↔ k = j := by
    rw [← sub_eq_iff_eq_add', hk, mul_comm]
    exact mul_left_inj' hpos.ne'
  have hseconds : t.seconds = w.start.seconds + w.interval.toNat * k := by omega
  rw [hstarts, Covers, offset, offset, Instant.total, Instant.total, hnanos, hn, hseconds]
  push_cast
  constructor
  · rintro ⟨hlow, hhigh⟩
    have hle : (j : ℤ) ≤ k := le_of_mul_le_mul_left (by linarith) hpos
    have hlt : k < j + 1 := lt_of_mul_lt_mul_left (by linarith) hpos.le
    omega
  · rintro rfl
    exact ⟨by linarith, by linarith⟩

/-- What a slot gets when buckets are merged in: it joins the rain of the bucket that starts with
    it, if there is one. -/
theorem getElem?_merge {α : Type} [Quantity α] (mode : MergeMode) {w : RainWindow α}
    (hw : w.interval ≠ 0) (hn : w.start.nanos = 0) {buckets : Buckets α}
    (hb : ∀ t ∈ buckets.keys, w.Fits t) (j : ℕ) :
    (w.merge mode buckets).values[j]? = (w.values[j]?).map fun v =>
      ((Instant.ofSeconds? (w.start.seconds + j * w.interval.toNat)).bind buckets.find?).elim v
        (mode.join v) := by
  have hleap {t : Instant} (ht : t.nanos = 0) : t.isLeap = false := by simp [Instant.isLeap, ht]
  have hcovers : (buckets.entries.filter fun b => w.Covers j b.1) = buckets.entries.filter
      fun b => b.1.seconds = w.start.seconds + j * w.interval.toNat :=
    List.filter_congr fun b hmem => decide_eq_decide.2
      ((hb b.1 (List.mem_map_of_mem hmem)).covers_iff hw hn j)
  rw [getElem?_merge_covers hw (hleap hn) (fun t ht => hleap (hb t ht).1), hcovers,
    filter_entries_seconds fun t ht => (hb t ht).1]
  cases Instant.ofSeconds? (w.start.seconds + j * w.interval.toNat) with
  | none => rfl
  | some t => cases hx : buckets.find? t <;> simp [hx]

/-- The same for rain that adds up. -/
theorem merge_sum (hw : w.interval ≠ 0) (hn : w.start.nanos = 0) {buckets : Buckets ℚ}
    (hb : ∀ t ∈ buckets.keys, w.Fits t) (j : ℕ) :
    (w.merge .sum buckets).values[j]? = (w.values[j]?).map
      (· + bucketRain buckets (w.start.seconds + j * w.interval.toNat)) := by
  rw [getElem?_merge .sum hw hn hb]
  refine congrArg (Option.map · w.values[j]?) (funext fun v => ?_)
  rw [bucketRain]
  cases (Instant.ofSeconds? (w.start.seconds + j * w.interval.toNat)).bind buckets.find? with
  | none => simp
  | some x => rfl

end RainWindow

/-! ## Settings -/

/-- Settings that pass their check have buckets that tile the hour and the day. -/
theorem Granularity.slots_mul_bucket {settings : IngestSettings}
    (hv : settings.validate = .ok ()) (g : Granularity) :
    g.bucket settings ≠ 0 ∧ g.slots settings * (g.bucket settings).toNat = g.seconds := by
  rw [IngestSettings.validate] at hv
  split_ifs at hv with hzero _ _ hhour hday
  rw [not_or, not_or] at hzero
  cases g with
  | hourly => exact ⟨hzero.2.1, Nat.div_mul_cancel (Nat.dvd_of_mod_eq_zero (not_not.1 hhour))⟩
  | daily => exact ⟨hzero.2.2, Nat.div_mul_cancel (Nat.dvd_of_mod_eq_zero (not_not.1 hday))⟩

/-- The rain of a reading on some seconds. -/
noncomputable def Reading.rainOn (r : Reading ℚ) (s : Finset ℤ) : ℚ :=
  (r.rain.map (·.rainOn s)).getD 0

theorem Reading.rainOn_of_none {r : Reading ℚ} (h : r.rain = none) (s : Finset ℤ) :
    r.rainOn s = 0 := by
  rw [rainOn, h]
  rfl

/-! ## Folding -/

/-- The slots tile a window, and each holds what some readings report for its seconds. -/
structure RainWindow.Collects (settings : IngestSettings) (g : Granularity) (start : Instant)
    (rs : List (Reading ℚ)) (rain : RainWindow ℚ) : Prop where
  start : rain.start = start
  interval : rain.interval = g.bucket settings
  length : rain.values.length = g.slots settings
  value : ∀ j v, rain.values[j]? = some v →
    v = (rs.map fun r => r.rainOn (rain.slotSeconds j)).sum

namespace WindowView

variable {g : Granularity} {settings : IngestSettings}

/-- The rain of a window is that of some readings. There is none where no reading reports any. -/
def RainOf (settings : IngestSettings) (rs : List (Reading ℚ)) (w : WindowView g ℚ) : Prop :=
  match w.rain with
  | none => ∀ r ∈ rs, r.rain = none
  | some rain => rain.Collects settings g w.start rs

theorem addMetric_rain {α : Type} [Quantity α] {hour : UInt32} {w w' : WindowView g α}
    {v : Metric × α} (h : w.addMetric hour v = .ok w') : w'.rain = w.rain := by
  obtain ⟨tally, -, h⟩ := bind_eq_ok.1 h
  obtain ⟨detail, -, h⟩ := bind_eq_ok.1 h
  cases h
  rfl

/-- Metrics do not change the rain. -/
theorem fold_rain {α : Type} [Quantity α] {r : Reading α} {buckets : Option (Buckets α)}
    {w w' : WindowView g α} (h : w.fold settings r buckets = .ok w') :
    w'.rain = (w.rained settings buckets).rain := by
  rw [fold_eq] at h
  split at h
  · cases h
  · next inside _ =>
    cases hm : (w.rained settings buckets).metered r inside with
    | error e =>
      rw [hm] at h
      cases h
    | ok folded =>
      rw [hm] at h
      cases h
      change folded.rain = _
      rw [metered] at hm
      split at hm
      · exact foldlM_ok (p := fun u => u.rain = (w.rained settings buckets).rain)
          (fun _ _ _ _ hv hu => (addMetric_rain hv).trans hu) rfl hm
      · cases hm
        rfl

/-- The rain that a window starts with when more rain comes. -/
theorem RainOf.collects {rs : List (Reading ℚ)} {w : WindowView g ℚ} (hw : RainOf settings rs w) :
    (w.rain.getD (.dry w.start (g.bucket settings) (g.slots settings))).Collects settings g w.start
      rs := by
  cases hr : w.rain with
  | none =>
    rw [RainOf, hr] at hw
    refine ⟨rfl, rfl, List.length_replicate, fun j v hj => ?_⟩
    have hdry : v = 0 := by
      simp only [Option.getD_none, RainWindow.dry, List.getElem?_replicate,
        Option.ite_none_right_eq_some] at hj
      exact (Option.some_inj.1 hj.2).symm
    rw [hdry]
    symm
    refine List.sum_eq_zero fun x hx => ?_
    obtain ⟨r, hmem, rfl⟩ := List.mem_map.1 hx
    exact r.rainOn_of_none (hw r hmem) _
  | some rain =>
    rw [RainOf, hr] at hw
    exact hw

/-- One more reading, whose rain was resampled to the width of the slots. -/
theorem RainOf.rained {rs : List (Reading ℚ)} {r : Reading ℚ} {buckets : Option (Buckets ℚ)}
    {w : WindowView g ℚ} (hw : RainOf settings rs w) (hv : settings.validate = .ok ())
    (hsum : settings.windowMerge = .sum) (hn : w.start.nanos = 0)
    (hs : (g.seconds : ℤ) ∣ w.start.seconds)
    (hb : Ingest.rainBuckets settings g r = .ok buckets) :
    RainOf settings (rs ++ [r]) (w.rained settings buckets) := by
  rcases Ingest.rainBuckets_ok hb with ⟨hr, rfl⟩ | ⟨c, map, hr, rfl, hmap⟩
  · -- A reading without rain changes nothing.
    change RainOf settings (rs ++ [r]) w
    unfold RainOf at hw ⊢
    split at hw
    · exact fun u hu => (List.mem_append.1 hu).elim (hw u) fun hu => List.mem_singleton.1 hu ▸ hr
    · refine ⟨hw.start, hw.interval, hw.length, fun j v hj => ?_⟩
      simpa [r.rainOn_of_none hr] using hw.value j v hj
  · have hcollects := hw.collects
    change RainWindow.Collects settings g w.start (rs ++ [r])
      ((w.rain.getD (.dry w.start (g.bucket settings) (g.slots settings))).merge
        settings.windowMerge map)
    generalize w.rain.getD (.dry w.start (g.bucket settings) (g.slots settings)) = rain
      at hcollects ⊢
    obtain ⟨hwidth, htile⟩ := g.slots_mul_bucket hv
    have hdvd : ((g.bucket settings).toNat : ℤ) ∣ w.start.seconds :=
      (Int.natCast_dvd_natCast.2 (Dvd.intro_left _ htile)).trans hs
    have hfits : ∀ t ∈ map.keys, rain.Fits t := fun t ht => by
      obtain ⟨hnanos, e, -, hmeets, -⟩ := (mem_keys_resample hmap).1 ht
      refine ⟨hnanos, ?_⟩
      rw [hcollects.interval, hcollects.start]
      exact dvd_sub hmeets hdvd
    obtain ⟨hstart, hinterval, hlength⟩ := rain.merge_frame settings.windowMerge map
    refine ⟨hstart.trans hcollects.start, hinterval.trans hcollects.interval,
      hlength.trans hcollects.length, fun j v hj => ?_⟩
    have hslots (k : ℕ) : (rain.merge settings.windowMerge map).slotSeconds k =
        rain.slotSeconds k := by
      rw [RainWindow.slotSeconds, RainWindow.slotSeconds, hstart, hinterval]
    have hmerge := RainWindow.merge_sum (hcollects.interval ▸ hwidth)
      (by rw [hcollects.start, hn]) hfits j
    rw [hsum] at hj
    rw [hmerge] at hj
    obtain ⟨v₀, hv₀, rfl⟩ := Option.map_eq_some_iff.1 hj
    have hbucket : bucketSeconds (g.bucket settings)
        (rain.start.seconds + j * rain.interval.toNat) = rain.slotSeconds j := by
      rw [RainWindow.slotSeconds, slotSeconds, bucketSeconds, hcollects.interval, add_one_mul,
        add_assoc]
    rw [hslots, hcollects.value j v₀ hv₀, resample_rain hmap ?_, hbucket, List.map_append,
      List.sum_append, List.map_singleton, List.sum_singleton, Reading.rainOn, hr]
    · rfl
    · rw [hcollects.start, hcollects.interval]
      exact dvd_add hdvd (Dvd.intro_left _ rfl)

/-- The rain of a window after some readings were folded in. -/
theorem foldlM_take_rain {rs us : List (Reading ℚ)} {w w' : WindowView g ℚ}
    (hv : settings.validate = .ok ()) (hsum : settings.windowMerge = .sum)
    (hn : w.start.nanos = 0) (hs : (g.seconds : ℤ) ∣ w.start.seconds)
    (hw : RainOf settings us w) (h : rs.foldlM (take settings) w = .ok w') :
    RainOf settings (us ++ rs) w' := by
  induction rs generalizing w us with
  | nil =>
    cases h
    rwa [List.append_nil]
  | cons r rs ih =>
    rw [List.foldlM_cons] at h
    obtain ⟨w₁, hr, h⟩ := bind_eq_ok.1 h
    have hframe : w₁.start = w.start := (take_frame hr).start
    obtain ⟨buckets, hb, hr⟩ := bind_eq_ok.1 hr
    have hfold := mapError_eq_ok hr
    have hrain := fold_rain hfold
    have hw₁ : RainOf settings (us ++ [r]) w₁ := by
      have := hw.rained hv hsum hn hs (mapError_eq_ok hb)
      rw [RainOf, (rained_frame settings buckets w).start] at this
      rw [RainOf, hframe, hrain]
      exact this
    rw [List.append_cons]
    exact ih (by rw [hframe, hn]) (by rwa [hframe]) hw₁ h

end WindowView

end WeatherStation
