import WeatherStation.Proofs.Store.Alone
import WeatherStation.Proofs.View.Rain

/-!
# The rain of latest views

The latest view shows the rain of a report in a new window, which starts with the bucket that holds
the start of the report. No rain lies before that bucket, and each slot takes one bucket at most, so
that it does not matter how rain joins rain.

Results:
* `Quantity.RainLaws`: what the arithmetic has to give.
* `resample_aligned`: where the buckets of a report lie, and what they hold.
* `RainWindow.getElem?_merge_dry`: a slot of a window that was dry.
* `LatestView.shows_rainOf`: the window of a report.
* `Ingest.saveLatest_rain`: the window that is stored.
-/

namespace WeatherStation

variable {α : Type} [Quantity α]

namespace Quantity

/-- A number that is not negative. -/
def IsAmount (x : α) : Prop := isNumber x = true ∧ below x 0 = false

/-- A finite number that is positive. -/
def IsFactor (x : α) : Prop := isFinite x = true ∧ below 0 x = true

/-- An amount that does not change when it joins nothing, in whatever way. -/
def IsTotal (x : α) : Prop := IsAmount x ∧ 0 + x = x ∧ greater 0 x = x

/-- What rain asks of the arithmetic. Rounding is no obstacle: binary64 floating point has these
    laws as well as exact numbers, since no sum of amounts that begins with zero is a negative zero,
    and since quotients of numbers of 32 bits round to one only if they are one. -/
class RainLaws (α : Type) [Quantity α] : Prop where
  total_zero : IsTotal (0 : α)
  total_add {x y : α} : IsTotal x → IsAmount y → IsTotal (x + y)
  factor_ofNat {n : ℕ} : n ≠ 0 → n < 2 ^ 32 → IsFactor (ofNat n : α)
  factor_part {m n : ℤ} : 0 < m → m < n → n < 2 ^ 32 →
    IsFactor (ofInt m / ofInt n : α) ∧ IsFactor (1 - ofInt m / ofInt n : α)
  amount_mul_left {x y : α} : IsFactor x → IsAmount y → IsAmount (x * y)
  amount_mul_right {x y : α} : IsAmount x → IsFactor y → IsAmount (x * y)

theorem isAmount_rat {x : ℚ} : IsAmount x ↔ 0 ≤ x := by
  simp [IsAmount, isNumber, below]

theorem isFactor_rat {x : ℚ} : IsFactor x ↔ 0 < x := by
  simp [IsFactor, isFinite, below]

theorem isTotal_rat {x : ℚ} : IsTotal x ↔ 0 ≤ x := by
  rw [IsTotal, isAmount_rat, zero_add, greater_rat]
  simp

instance : RainLaws ℚ where
  total_zero := isTotal_rat.2 le_rfl
  total_add hx hy := isTotal_rat.2 (add_nonneg (isTotal_rat.1 hx) (isAmount_rat.1 hy))
  factor_ofNat hn _ := isFactor_rat.2 (by
    change (0 : ℚ) < ((_ : ℕ) : ℤ)
    exact_mod_cast Nat.pos_of_ne_zero hn)
  factor_part {m n} hm hlt _ := by
    have hm' : (0 : ℚ) < (m : ℚ) := by exact_mod_cast hm
    have hlt' : (m : ℚ) < n := by exact_mod_cast hlt
    have hn' : (0 : ℚ) < (n : ℚ) := hm'.trans hlt'
    refine ⟨isFactor_rat.2 (div_pos hm' hn'), isFactor_rat.2 (sub_pos.2 ?_)⟩
    exact (div_lt_one hn').2 hlt'
  amount_mul_left hx hy := isAmount_rat.2 (mul_nonneg (isFactor_rat.1 hx).le (isAmount_rat.1 hy))
  amount_mul_right hx hy := isAmount_rat.2 (mul_nonneg (isAmount_rat.1 hx) (isFactor_rat.1 hy).le)

end Quantity

open Quantity

/-- The rain of the bucket that starts at a second; none if there is no such bucket. -/
def Buckets.rainAt (buckets : Buckets α) (second : ℤ) : α :=
  ((Instant.ofSeconds? second).bind buckets.find?).getD 0

/-! ## Where buckets lie -/

/-- Buckets of some width that do not start before a second, with the rain that was added up. -/
def Buckets.AlignedFrom (buckets : Buckets α) (width first : ℤ) : Prop :=
  ∀ t x, buckets.find? t = some x →
    (t.nanos = 0 ∧ width ∣ t.seconds ∧ first ≤ t.seconds) ∧ IsTotal x

section

variable [RainLaws α]

/-- The shares of a slot go to buckets from the one on that holds its start. -/
theorem shares_aligned {source target : ℤ} (hs : 0 < source) (hle : source ≤ target)
    (hword : source < 2 ^ 32) (start : ℤ) {rain : α} (hrain : IsAmount rain) :
    ∀ share ∈ shares source target start rain,
      target ∣ share.1 ∧ start / target * target ≤ share.1 ∧ IsAmount share.2 := by
  have ht : 0 < target := by omega
  have hceil := Int.lt_ediv_add_one_mul_self start ht
  have hlast := Int.ediv_mul_le (start + source - 1) ht.ne'
  intro share hshare
  simp only [shares] at hshare
  split_ifs at hshare with hone
  · rw [List.mem_singleton.1 hshare]
    exact ⟨Dvd.intro_left _ rfl, le_rfl, hrain⟩
  · have hnext : (start + source - 1) / target = start / target + 1 :=
      (lastBucket_eq hs hle start).resolve_left fun h => hone (by rw [h])
    rw [hnext] at hshare hlast
    obtain ⟨hpart, hrest⟩ := RainLaws.factor_part (α := α)
      (by omega : 0 < (start / target + 1) * target - start) (by omega) hword
    rcases List.mem_cons.1 hshare with rfl | hshare
    · exact ⟨Dvd.intro_left _ rfl, le_rfl, RainLaws.amount_mul_right hrain hpart⟩
    · rw [List.mem_singleton.1 hshare]
      refine ⟨Dvd.intro_left _ rfl, ?_, RainLaws.amount_mul_right hrain hrest⟩
      rw [add_one_mul]
      exact le_add_of_nonneg_right ht.le

theorem addRain_aligned {buckets buckets' : Buckets α} {width first : ℤ} {share : ℤ × α}
    (hb : buckets.AlignedFrom width first)
    (hshare : width ∣ share.1 ∧ first ≤ share.1 ∧ IsAmount share.2)
    (h : addRain buckets share = .ok buckets') : buckets'.AlignedFrom width first := by
  obtain ⟨hdvd, hfirst, hamount⟩ := hshare
  rw [addRain] at h
  split at h
  · next start hstart =>
    cases h
    obtain ⟨hseconds, hnanos⟩ := Instant.ofSeconds?_eq_some.1 hstart
    intro t x hx
    by_cases ht : t = start
    · rw [ht, SortedMap.find?_insert_self, Option.some_inj] at hx
      rw [ht, hseconds, ← hx]
      refine ⟨⟨hnanos, hdvd, hfirst⟩, RainLaws.total_add ?_ hamount⟩
      cases hfind : buckets.find? start with
      | none => exact RainLaws.total_zero
      | some x => exact (hb start x hfind).2
    · rw [SortedMap.find?_insert_ne _ ht] at hx
      exact hb t x hx
  · cases h

theorem spreadSlot_aligned {c : RainCounts α} {u : α} (hu : IsAmount u) {target : UInt32}
    (hs : 0 < c.interval.toNat) (hle : c.interval.toNat ≤ target.toNat)
    {buckets buckets' : Buckets α}
    (hb : buckets.AlignedFrom target.toNat (c.start.seconds / target.toNat * target.toNat))
    {e : UInt32 × UInt32} (he : e.2 ≠ 0) (h : spreadSlot c u target buckets e = .ok buckets') :
    buckets'.AlignedFrom target.toNat (c.start.seconds / target.toNat * target.toNat) := by
  have hrain : IsAmount (ofNat e.2.toNat * u) := by
    refine RainLaws.amount_mul_left (RainLaws.factor_ofNat ?_ e.2.toNat_lt) hu
    exact fun h => he (UInt32.toNat_inj.1 h)
  have hword : (c.interval.toNat : ℤ) < 2 ^ 32 := by
    have := c.interval.toNat_lt
    omega
  have hshares := shares_aligned (by omega) (by omega : (c.interval.toNat : ℤ) ≤ target.toNat) hword
    (c.start.seconds + e.1.toNat * c.interval.toNat) hrain
  -- A slot does not start before the report.
  have hslot : c.start.seconds / (target.toNat : ℤ) * target.toNat ≤
      (c.start.seconds + e.1.toNat * c.interval.toNat) / target.toNat * target.toNat := by
    refine mul_le_mul_of_nonneg_right (Int.ediv_le_ediv (by omega) ?_) (Int.natCast_nonneg _)
    exact le_add_of_nonneg_right (by positivity)
  let first := c.start.seconds / target.toNat * target.toNat
  refine foldlM_ok (p := fun b : Buckets α => b.AlignedFrom target.toNat first)
    (fun b share b' hmem hadd hb => ?_) hb h
  obtain ⟨hdvd, hfirst, hamount⟩ := hshares share hmem
  exact addRain_aligned hb ⟨hdvd, hslot.trans hfirst, hamount⟩ hadd

/-- The buckets of a report start with the one that holds the start of the report. -/
theorem resample_aligned {c : RainCounts α} {u : α} (hu : IsAmount u) {target : UInt32}
    {buckets : Buckets α} (h : resample c u target = .ok buckets) :
    buckets.AlignedFrom target.toNat (c.start.seconds / target.toNat * target.toNat) := by
  obtain ⟨⟨hs, hle⟩, h⟩ := resample_ok h
  let first := c.start.seconds / target.toNat * target.toNat
  refine foldlM_ok (p := fun b : Buckets α => b.AlignedFrom target.toNat first)
    (fun b e b' he hspread hb => ?_) (fun t x hx => by cases hx) h
  exact spreadSlot_aligned hu hs hle hb (by simpa using List.of_mem_filter he) hspread

end

/-! ## Windows that were dry -/

/-- A slot of a window that was dry shows the bucket that starts with it. -/
theorem RainWindow.getElem?_merge_dry (mode : MergeMode) {start : Instant} {width : UInt32}
    (hw : width ≠ 0) (hn : start.nanos = 0) {buckets : Buckets α}
    (hb : buckets.AlignedFrom width.toNat start.seconds)
    (hstart : (width.toNat : ℤ) ∣ start.seconds) {slots j : ℕ} (hj : j < slots) :
    ((dry start width slots).merge mode buckets).values[j]? =
      some (buckets.rainAt (start.seconds + j * width.toNat)) := by
  have hfits : ∀ t ∈ buckets.keys, (dry start width slots : RainWindow α).Fits t := by
    intro t ht
    obtain ⟨x, hx⟩ := SortedMap.mem_keys_iff.1 ht
    obtain ⟨⟨hnanos, hdvd, -⟩, -⟩ := hb t x hx
    exact ⟨hnanos, dvd_sub hdvd hstart⟩
  have hdry : (dry start width slots : RainWindow α).values[j]? = some 0 := by
    simp [dry, hj]
  rw [getElem?_merge mode hw hn hfits, hdry, Option.map_some, Buckets.rainAt]
  refine congrArg some ?_
  change Option.elim ((Instant.ofSeconds? (start.seconds + j * width.toNat)).bind buckets.find?) 0
    (mode.join 0) = _
  cases hx : (Instant.ofSeconds? (start.seconds + j * width.toNat)).bind buckets.find? with
  | none => rfl
  | some x =>
    obtain ⟨t, -, hfind⟩ := Option.bind_eq_some_iff.1 hx
    obtain ⟨-, hsum, hmax⟩ := (hb t x hfind).2
    cases mode with
    | sum => exact hsum
    | max => exact hmax

/-! ## The window of a report -/

/-- The window of a report whose rain was resampled to `buckets`. -/
structure RainWindow.Shows (width slots : UInt32) (c : RainCounts α) (buckets : Buckets α)
    (rain : RainWindow α) : Prop where
  /-- It starts at the last multiple of the width that is not after the start of the report. -/
  start : IsGreatest {b : ℤ | (width.toNat : ℤ) ∣ b ∧ b ≤ c.start.seconds}
    rain.start.seconds
  nanos : rain.start.nanos = 0
  interval : rain.interval = width
  length : rain.values.length = slots.toNat
  /-- Each slot shows the bucket that starts with it. -/
  value : ∀ j < slots.toNat, rain.values[j]? =
    some (buckets.rainAt (rain.start.seconds + j * width.toNat))
  /-- Each bucket starts with a slot, or behind the last one. -/
  bucket : ∀ t x, buckets.find? t = some x → ∃ k : ℕ, t.nanos = 0 ∧
    t.seconds = rain.start.seconds + k * width.toNat ∧
      (k < slots.toNat → rain.values[k]? = some x)

/-- A report has one window. -/
theorem RainWindow.Shows.unique {width slots : UInt32} {c : RainCounts α} {buckets : Buckets α}
    {rain rain' : RainWindow α} (h : rain.Shows width slots c buckets)
    (h' : rain'.Shows width slots c buckets) : rain = rain' := by
  have hseconds : rain.start.seconds = rain'.start.seconds := h.start.unique h'.start
  have hstart : rain.start = rain'.start := by
    refine Instant.rank_inj ?_
    rw [Instant.rank, Instant.rank, hseconds, h.nanos, h'.nanos]
  have hvalues : rain.values = rain'.values := by
    refine List.ext_getElem? fun j => ?_
    by_cases hj : j < slots.toNat
    · rw [h.value j hj, h'.value j hj, hseconds]
    · rw [List.getElem?_eq_none (by rw [h.length]; omega),
        List.getElem?_eq_none (by rw [h'.length]; omega)]
  obtain ⟨values, interval, start⟩ := rain
  obtain ⟨values', interval', start'⟩ := rain'
  obtain rfl : values = values' := hvalues
  obtain rfl : interval = interval' := h.interval.trans h'.interval.symm
  obtain rfl : start = start' := hstart
  rfl

namespace LatestView

variable {settings : IngestSettings} {c : RainCounts α} {rain : RainWindow α}

theorem rainOf_ok (h : rainOf settings c = .ok rain) :
    ∃ buckets start, resample c c.unitValue settings.latestBucket = .ok buckets ∧
      c.start.truncate? settings.latestBucket.toNat = some start ∧
      rain = (RainWindow.dry start settings.latestBucket settings.latestSlots.toNat).merge
        settings.latestMerge buckets := by
  obtain ⟨buckets, hbuckets, h⟩ := bind_eq_ok.1 h
  cases hstart : c.start.truncate? settings.latestBucket.toNat with
  | none =>
    rw [hstart] at h
    cases h
  | some start =>
    rw [hstart] at h
    exact ⟨buckets, start, hbuckets, rfl, (Except.ok.inj h).symm⟩

/-- The latest view after a reading, by its rain. -/
theorem ofReading_eq {r : Reading α} (hc : r.rain = some c) : ofReading settings r =
    (rainOf settings c).map fun rain =>
      ⟨ViewId.latest r.device, r.device, r.time, r.sourceId, r.values, some rain, none⟩ := by
  rw [ofReading, hc]
  change (do
    let rain ← (do return some (← rainOf settings c))
    return _) = _
  cases rainOf settings c <;> rfl

variable [RainLaws α]

/-- The window of a report shows its rain. -/
theorem shows_rainOf (hu : IsAmount c.unitValue) (hl : c.start.isLeap = false)
    (h : rainOf settings c = .ok rain) :
    ∃ buckets, resample c c.unitValue settings.latestBucket = .ok buckets ∧
      rain.Shows settings.latestBucket settings.latestSlots c buckets := by
  obtain ⟨buckets, start, hbuckets, hstart, rfl⟩ := rainOf_ok h
  obtain ⟨hseconds, hnanos⟩ := Instant.truncate?_spec hl hstart
  obtain ⟨⟨hpos, hle⟩, -⟩ := resample_ok hbuckets
  have hw : settings.latestBucket ≠ 0 := by
    rintro h
    rw [h, UInt32.toNat_zero] at hle
    omega
  have hw' : (0 : ℤ) < settings.latestBucket.toNat := by omega
  have haligned := resample_aligned hu hbuckets
  rw [← hseconds] at haligned
  have hdvd : (settings.latestBucket.toNat : ℤ) ∣ start.seconds := by
    rw [hseconds]
    exact Dvd.intro_left _ rfl
  have hvalue {j : ℕ} (hj : j < settings.latestSlots.toNat) :=
    RainWindow.getElem?_merge_dry settings.latestMerge hw hnanos haligned hdvd hj
  obtain ⟨hstart', hinterval, hlength⟩ := (RainWindow.dry start settings.latestBucket
    settings.latestSlots.toNat : RainWindow α).merge_frame settings.latestMerge buckets
  refine ⟨buckets, hbuckets, ?_, ?_, hinterval, hlength.trans List.length_replicate, ?_, ?_⟩
  · rw [hstart']
    refine ⟨⟨hdvd, ?_⟩, fun b ⟨hb, hle⟩ => ?_⟩
    · change start.seconds ≤ _
      rw [hseconds]
      exact Int.ediv_mul_le _ hw'.ne'
    · obtain ⟨k, rfl⟩ := hb
      rw [mul_comm] at hle ⊢
      change k * (settings.latestBucket.toNat : ℤ) ≤ start.seconds
      rw [hseconds]
      exact mul_le_mul_of_nonneg_right ((Int.le_ediv_iff_mul_le hw').2 hle) hw'.le
  · rw [hstart']
    exact hnanos
  · intro j hj
    rw [hstart']
    exact hvalue hj
  · intro t x hx
    obtain ⟨⟨hn, ht, hfirst⟩, -⟩ := haligned t x hx
    obtain ⟨k, hk⟩ := dvd_sub ht hdvd
    have hk0 : 0 ≤ k := by
      by_contra hneg
      have hlt := mul_neg_of_pos_of_neg hw' (not_le.1 hneg)
      omega
    obtain ⟨k, rfl⟩ := Int.eq_ofNat_of_zero_le hk0
    have hsec : t.seconds = start.seconds + k * settings.latestBucket.toNat := by
      rw [mul_comm]
      omega
    rw [hstart']
    refine ⟨k, hn, hsec, fun hslot => ?_⟩
    rw [hvalue hslot, ← hsec, Buckets.rainAt, Instant.ofSeconds?_eq_some.2 ⟨rfl, hn⟩,
      Option.bind_some, hx, Option.getD_some]

/-- The window of a report is the same in every mode. -/
theorem rainOf_mode (hu : IsAmount c.unitValue) (hl : c.start.isLeap = false) (mode : MergeMode)
    (h : rainOf settings c = .ok rain) :
    rainOf { settings with latestMerge := mode } c = .ok rain := by
  obtain ⟨buckets, start, hbuckets, hstart, -⟩ := rainOf_ok h
  have hother : rainOf { settings with latestMerge := mode } c =
      .ok ((RainWindow.dry start settings.latestBucket settings.latestSlots.toNat).merge mode
        buckets) := by
    simp only [rainOf, hbuckets, hstart]
    rfl
  obtain ⟨b, hb, hshows⟩ := shows_rainOf hu hl h
  obtain ⟨b', hb', hshows'⟩ := shows_rainOf hu hl hother
  obtain rfl : b = b' := Except.ok.inj (hb.symm.trans hb')
  rw [hother, hshows'.unique hshows]

end LatestView

namespace Ingest

/-- What saving the latest view does on a store of its own. -/
theorem alone_saveLatest (settings : IngestSettings) (r : Reading α)
    (now : Except Overflow Instant) (s : Store α) :
    (saveLatest settings r).alone now s =
      match (LatestView.ofReading settings r).mapError (Failure.map IngestError.resample) with
      | .ok v => (.ok s.freshVersion, s.put (.latest v))
      | .error e => (.error e, s) := by
  rw [saveLatest, Client.alone_bind, Client.alone_compute]
  cases (LatestView.ofReading settings r).mapError (Failure.map IngestError.resample) with
  | error e => rfl
  | ok v =>
    dsimp only
    rw [Client.alone_adapt, Client.alone_write]
    rfl

/-- When the latest view is saved, its rain begins at the last multiple of the bucket width that is
    not after the start of the report, each of its slots shows the bucket that starts with it, and
    no bucket starts before it. In every mode the same view is stored. -/
theorem saveLatest_rain [RainLaws α] {settings : IngestSettings} {r : Reading α} {c : RainCounts α}
    (hc : r.rain = some c) (hu : IsAmount c.unitValue) (hl : c.start.isLeap = false)
    {now : Except Overflow Instant} {s s' : Store α} {t : Version}
    (h : (saveLatest settings r).alone now s = (.ok t, s')) :
    ∃ v rain buckets, s'.get? (ViewId.latest r.device).key = some (.latest v) ∧
      v.rain = some rain ∧ resample c c.unitValue settings.latestBucket = .ok buckets ∧
      rain.Shows settings.latestBucket settings.latestSlots c buckets ∧
      ∀ mode, (saveLatest { settings with latestMerge := mode } r).alone now s = (.ok t, s') := by
  rw [alone_saveLatest, LatestView.ofReading_eq hc] at h
  cases hrain : LatestView.rainOf settings c with
  | error e =>
    rw [hrain] at h
    cases h
  | ok rain =>
    rw [hrain] at h
    obtain ⟨buckets, hbuckets, hshows⟩ := LatestView.shows_rainOf hu hl hrain
    obtain ⟨hversion, rfl⟩ := Prod.mk.inj h
    obtain rfl := Except.ok.inj hversion
    refine ⟨_, rain, buckets, Store.get?_put_self s _, rfl, hbuckets, hshows, fun mode => ?_⟩
    rw [alone_saveLatest, LatestView.ofReading_eq hc, LatestView.rainOf_mode hu hl mode hrain]
    rfl

/-- Two minutes of rain, from a second and a half into the last two minutes of 1969 on. -/
def aroundMidnight : RainCounts ℚ where
  units := .ofList [(0, 2), (1, 1)]
  interval := 60
  start := (Instant.ofParts? (-119) 500000000).get (by decide)
  declaredSlots := none
  unitValue := 1 / 5

/-- A reading with this rain only. -/
def rainAroundMidnight : Reading ℚ where
  device := "dev"
  source := none
  time := (Instant.ofSeconds? 30).get (by decide)
  values := .const none
  rain := some aroundMidnight

theorem saveLatest_rain_aroundMidnight :
    IsAmount aroundMidnight.unitValue ∧ aroundMidnight.start.isLeap = false ∧
      ∃ s', (saveLatest .standard rainAroundMidnight).alone (.error .calendar) Store.empty =
          (.ok "1", s') ∧
        ∃ v rain buckets, s'.get? (ViewId.latest "dev").key = some (.latest v) ∧
          v.rain = some rain ∧ resample aroundMidnight (1 / 5) 300 = .ok buckets ∧
          rain.Shows 300 12 aroundMidnight buckets := by
  have hunit : IsAmount aroundMidnight.unitValue := isAmount_rat.2 (by decide +kernel)
  have hleap : aroundMidnight.start.isLeap = false := by decide +kernel
  have hsaved : ((saveLatest .standard rainAroundMidnight).alone (.error .calendar)
      Store.empty).1 = .ok "1" := by decide +kernel
  obtain ⟨v, rain, buckets, hv, hrain, hbuckets, hshows, -⟩ :=
    saveLatest_rain (r := rainAroundMidnight) rfl hunit hleap (Prod.ext hsaved rfl)
  exact ⟨hunit, hleap, _, Prod.ext hsaved rfl, v, rain, buckets, hv, hrain, hbuckets, hshows⟩

end Ingest

end WeatherStation
