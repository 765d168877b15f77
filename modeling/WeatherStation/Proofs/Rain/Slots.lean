import WeatherStation.Proofs.Except
import WeatherStation.Proofs.Exact
import WeatherStation.Proofs.SortedMap
import WeatherStation.Proofs.Time.Truncation
import WeatherStation.Rain.Resample

/-!
# Rain by the second

The rain of a slot is spread evenly over its seconds, so that any set of seconds gets a part of it.
Resampling gives every bucket its part: no rain is lost, and none is counted twice.

Results:
* `RainCounts.rainOn`: the rain of a report on some seconds.
* `shares_sum`: what a bucket gets of one slot.
* `mem_keys_resample`: which buckets get rain.
* `resample_rain`: what a bucket gets of all slots.
-/

namespace WeatherStation

/-- The seconds of slot `i` in a row of slots of `width` seconds, the first of which starts at
    `start`. -/
noncomputable def slotSeconds (start : ℤ) (width i : ℕ) : Finset ℤ :=
  Finset.Ico (start + i * width) (start + (i + 1) * width)

namespace RainCounts

variable {α : Type}

/-- The seconds of a slot of a report. -/
noncomputable def slotSeconds (c : RainCounts α) (i : UInt32) : Finset ℤ :=
  WeatherStation.slotSeconds c.start.seconds c.interval.toNat i.toNat

/-- The entries of a report whose slots lie below the number of slots. -/
def counted (c : RainCounts α) : List (UInt32 × UInt32) :=
  c.units.entries.filter fun e => c.slotCount.toOption.any (e.1 < ·)

/-- Those of them with tips. -/
def wet (c : RainCounts α) : List (UInt32 × UInt32) := c.counted.filter (·.2 ≠ 0)

/-- What a slot gives to some seconds: its rain, in proportion to the seconds that it has there. -/
noncomputable def partOn (c : RainCounts ℚ) (s : Finset ℤ) (e : UInt32 × UInt32) : ℚ :=
  e.2.toNat * c.unitValue * (c.slotSeconds e.1 ∩ s).card / c.interval.toNat

/-- The rain of a report on some seconds. -/
noncomputable def rainOn (c : RainCounts ℚ) (s : Finset ℤ) : ℚ := (c.counted.map (c.partOn s)).sum

theorem rainOn_eq_wet (c : RainCounts ℚ) (s : Finset ℤ) :
    c.rainOn s = (c.wet.map (c.partOn s)).sum := by
  unfold rainOn wet
  induction c.counted with
  | nil => rfl
  | cons e es ih =>
    by_cases he : e.2 = 0
    · simp [he, ih, partOn]
    · simp [he, ih]

/-- Seconds that no slot with tips has get no rain. -/
theorem rainOn_eq_zero {c : RainCounts ℚ} {s : Finset ℤ}
    (h : ∀ e ∈ c.wet, Disjoint (c.slotSeconds e.1) s) : c.rainOn s = 0 := by
  rw [rainOn_eq_wet]
  refine List.sum_eq_zero fun x hx => ?_
  obtain ⟨e, he, rfl⟩ := List.mem_map.1 hx
  rw [partOn, Finset.disjoint_iff_inter_eq_empty.1 (h e he)]
  simp

end RainCounts

/-! ## One slot -/

/-- A slot that is not wider than a bucket ends in the bucket it starts in, or in the next one. -/
theorem lastBucket_eq {source target : ℤ} (hs : 0 < source) (hle : source ≤ target) (start : ℤ) :
    (start + source - 1) / target = start / target ∨
      (start + source - 1) / target = start / target + 1 := by
  have ht : 0 < target := by omega
  have hlow : start / target ≤ (start + source - 1) / target :=
    Int.ediv_le_ediv ht (by omega)
  have hhigh : (start + source - 1) / target ≤ start / target + 1 := by
    rw [← Int.add_mul_ediv_right start 1 ht.ne']
    exact Int.ediv_le_ediv ht (by omega)
  omega

/-- The number of seconds that two stretches of time have in common. -/
theorem card_inter_Ico (a b c d : ℤ) :
    ((Finset.Ico a b ∩ Finset.Ico c d).card : ℤ) = max 0 (min b d - max a c) := by
  rw [Finset.Ico_inter_Ico, Int.card_Ico, Int.toNat_eq_max, max_comm]

/-- The part of a slot that lies in bucket `k`, if the slot is not wider than a bucket. -/
theorem card_inter_bucket {source target : ℤ} (hs : 0 < source) (hle : source ≤ target)
    (start k : ℤ) :
    ((Finset.Ico start (start + source) ∩ Finset.Ico (k * target) (k * target + target)).card : ℤ) =
      if k = start / target then min (start / target * target + target) (start + source) - start
      else if k = start / target + 1 then max 0 (start + source - (start / target * target + target))
      else 0 := by
  have ht : 0 < target := by omega
  have hfloor := Int.ediv_mul_le start ht.ne'
  have hceil := Int.lt_ediv_add_one_mul_self start ht
  rw [add_one_mul] at hceil
  rw [card_inter_Ico]
  generalize start / target = q at *
  split_ifs with h₁ h₂
  · rw [h₁]
    omega
  · rw [h₂, add_one_mul]
    omega
  · -- Any other bucket is at least a width away from the two that the slot can meet.
    have hfar : k * target + target ≤ q * target ∨ q * target + 2 * target ≤ k * target := by
      rcases lt_or_gt_of_ne h₁ with hk | hk
      · left
        nlinarith
      · right
        have : q + 2 ≤ k := by omega
        nlinarith
    omega

/-- What a bucket gets of one slot: the rain in proportion to the seconds that both have. -/
theorem shares_sum {source target : ℤ} (hs : 0 < source) (hle : source ≤ target) (start : ℤ)
    (rain : ℚ) {b : ℤ} (hb : target ∣ b) :
    (((shares source target start rain).filter fun s => s.1 = b).map Prod.snd).sum =
      rain * (Finset.Ico start (start + source) ∩ Finset.Ico b (b + target)).card / source := by
  have ht : 0 < target := by omega
  have hs' : (source : ℚ) ≠ 0 := by exact_mod_cast hs.ne'
  obtain ⟨k, rfl⟩ := hb
  rw [mul_comm target k]
  have hcard := card_inter_bucket hs hle start k
  have hlast := Int.ediv_mul_le (start + source - 1) ht.ne'
  have hlast' := Int.lt_ediv_add_one_mul_self (start + source - 1) ht
  have hinj {i j : ℤ} : i * target = j * target ↔ i = j := mul_left_inj' ht.ne'
  have hcast : (((Finset.Ico start (start + source) ∩
      Finset.Ico (k * target) (k * target + target)).card : ℤ) : ℚ) =
        ((Finset.Ico start (start + source) ∩
          Finset.Ico (k * target) (k * target + target)).card : ℚ) := Int.cast_natCast _
  rw [← hcast, hcard]
  simp only [shares, hinj]
  rcases lastBucket_eq hs hle start with hq | hq
  · rw [hq, add_one_mul] at hlast'
    rw [hq, if_pos rfl, min_eq_right (by omega), max_eq_left (by omega)]
    by_cases hk : k = start / target
    · simp [hk, hs']
    · simp [hk, Ne.symm hk, hinj]
  · rw [hq, add_one_mul] at hlast hlast'
    rw [hq, if_neg (by omega), min_eq_left (by omega), max_eq_right (by omega)]
    have hlen : (Quantity.ofInt source : ℚ) = source := rfl
    have hpart : (Quantity.ofInt ((start / target + 1) * target - start) : ℚ) =
        ((start / target * target + target - start : ℤ) : ℚ) := by
      rw [add_one_mul]
      rfl
    rw [hlen, hpart]
    by_cases hk : k = start / target
    · have hk' : ¬ start / target + 1 = k := by omega
      simp [hk, hinj, mul_div_assoc]
    · by_cases hk' : k = start / target + 1
      · simp only [hk', Int.cast_sub, Int.cast_add, Int.cast_mul, hinj, left_eq_add, one_ne_zero,
          decide_false, Bool.false_eq_true, not_false_eq_true, List.filter_cons_of_neg, decide_true,
          List.filter_cons_of_pos, List.filter_nil, List.map_cons, List.map_nil, List.sum_cons,
          List.sum_nil, add_zero, add_eq_left, ↓reduceIte]
        field_simp
        ring
      · have hne : ¬ start / target = k ∧ ¬ start / target + 1 = k := by omega
        simp [hk, hk', hne, hinj]

/-- The buckets that get a share of a slot are those that have a second in common with it. -/
theorem mem_shares {source target : ℤ} (hs : 0 < source) (hle : source ≤ target) (start : ℤ)
    (rain : ℚ) {b : ℤ} :
    b ∈ (shares source target start rain).map Prod.fst ↔ target ∣ b ∧
      ¬ Disjoint (Finset.Ico start (start + source)) (Finset.Ico b (b + target)) := by
  have ht : 0 < target := by omega
  have hkeys : b ∈ (shares source target start rain).map Prod.fst ↔
      b = start / target * target ∨ b = (start + source - 1) / target * target := by
    simp only [shares]
    split_ifs with h
    · simp [← h]
    · simp
  have hfloor := Int.ediv_mul_le start ht.ne'
  have hceil := Int.lt_ediv_add_one_mul_self start ht
  have hlast := Int.ediv_mul_le (start + source - 1) ht.ne'
  have hlast' := Int.lt_ediv_add_one_mul_self (start + source - 1) ht
  have hmeets (k : ℤ) : ¬ Disjoint (Finset.Ico start (start + source))
      (Finset.Ico (k * target) (k * target + target)) ↔
        k = start / target ∨ k = (start + source - 1) / target := by
    have hcard := card_inter_bucket hs hle start k
    rw [Finset.disjoint_iff_inter_eq_empty, ← Finset.card_eq_zero, ← Int.natCast_inj, hcard]
    rw [add_one_mul] at hceil hlast'
    rcases lastBucket_eq hs hle start with hq | hq
    · rw [hq] at hlast hlast' ⊢
      split_ifs with h₁ h₂ <;> omega
    · rw [hq, add_one_mul] at hlast hlast'
      rw [hq]
      split_ifs with h₁ h₂ <;> omega
  rw [hkeys]
  constructor
  · rintro (rfl | rfl)
    · exact ⟨Dvd.intro_left _ rfl, (hmeets _).2 (.inl rfl)⟩
    · exact ⟨Dvd.intro_left _ rfl, (hmeets _).2 (.inr rfl)⟩
  · rintro ⟨⟨k, rfl⟩, h⟩
    rw [mul_comm target k] at h ⊢
    exact ((hmeets k).1 h).imp (fun hk => by rw [hk]) fun hk => by rw [hk]

/-! ## All slots -/

/-- The rain of the bucket that starts at a second. -/
def bucketRain (buckets : Buckets ℚ) (b : ℤ) : ℚ :=
  ((Instant.ofSeconds? b).bind buckets.find?).getD 0

theorem bucketRain_empty (b : ℤ) : bucketRain SortedMap.empty b = 0 := by
  unfold bucketRain
  cases Instant.ofSeconds? b <;> rfl

theorem Instant.ofSeconds?_eq_some {b : ℤ} {t : Instant} :
    ofSeconds? b = some t ↔ t.seconds = b ∧ t.nanos = 0 := by
  refine ⟨ofParts?_spec, fun ⟨hs, hn⟩ => ?_⟩
  have hparts : firstSecond ≤ b ∧ b ≤ lastSecond := hs ▸ ⟨t.first_le, t.le_last⟩
  rw [ofSeconds?, ofParts?, dif_pos ⟨hparts.1, hparts.2, by decide, by omega⟩, Option.some_inj]
  refine rank_inj ?_
  rw [rank, rank, hs, hn]

/-- A map of whole seconds has at most one entry for a second. -/
theorem filter_entries_seconds {α : Type} {buckets : Buckets α}
    (hw : ∀ t ∈ buckets.keys, t.nanos = 0) (b : ℤ) :
    (buckets.entries.filter fun e => e.1.seconds = b) =
      ((Instant.ofSeconds? b).bind fun t => (buckets.find? t).map (t, ·)).toList := by
  have hkey {t : Instant} (ht : t ∈ buckets.keys) :
      t.seconds = b ↔ Instant.ofSeconds? b = some t := by
    rw [Instant.ofSeconds?_eq_some, and_iff_left (hw t ht)]
  have hmem (e : Instant × α) : e ∈ buckets.entries.filter (fun e => e.1.seconds = b) ↔
      Instant.ofSeconds? b = some e.1 ∧ buckets.find? e.1 = some e.2 := by
    rw [List.mem_filter, decide_eq_true_iff, and_comm, ← buckets.mem_entries_iff]
    exact and_congr_left fun he => hkey (List.mem_map_of_mem he)
  have hnodup : (buckets.entries.filter fun e => e.1.seconds = b).Nodup :=
    buckets.nodup_keys.of_map.filter _
  cases hb : (Instant.ofSeconds? b).bind fun t => (buckets.find? t).map (t, ·) with
  | none =>
    refine List.eq_nil_iff_forall_not_mem.2 fun e he => ?_
    obtain ⟨ht, hx⟩ := (hmem e).1 he
    rw [ht, Option.bind_some, hx] at hb
    cases hb
  | some e =>
    obtain ⟨t, ht, he⟩ := Option.bind_eq_some_iff.1 hb
    obtain ⟨x, hx, rfl⟩ := Option.map_eq_some_iff.1 he
    refine List.perm_singleton.1 ((List.perm_ext_iff_of_nodup hnodup
      (List.nodup_singleton _)).2 fun e => ?_)
    rw [hmem, List.mem_singleton, ht, Option.some_inj]
    constructor
    · rintro ⟨rfl, hfound⟩
      rw [hx, Option.some_inj] at hfound
      exact Prod.ext rfl hfound.symm
    · rintro rfl
      exact ⟨rfl, hx⟩

theorem addRain_ok {buckets buckets' : Buckets ℚ} {share : ℤ × ℚ}
    (h : addRain buckets share = .ok buckets') :
    (∀ b, bucketRain buckets' b = bucketRain buckets b + if share.1 = b then share.2 else 0) ∧
      ∀ t, t ∈ buckets'.keys ↔ t ∈ buckets.keys ∨ (t.seconds = share.1 ∧ t.nanos = 0) := by
  rw [addRain] at h
  split at h
  · next s hs =>
    cases h
    refine ⟨fun b => ?_, fun t => ?_⟩
    · unfold bucketRain
      split_ifs with hb
      · rw [← hb, hs, Option.bind_some, Option.bind_some, SortedMap.find?_insert_self]
        rfl
      · rw [add_zero]
        cases hb' : Instant.ofSeconds? b with
        | none => rfl
        | some s' =>
          have hne : s' ≠ s := by
            rintro rfl
            have h₁ := Instant.ofSeconds?_eq_some.1 hs
            have h₂ := Instant.ofSeconds?_eq_some.1 hb'
            exact hb (h₁.1.symm.trans h₂.1)
          rw [Option.bind_some, Option.bind_some, SortedMap.find?_insert_ne _ hne]
    · rw [SortedMap.mem_keys_insert, or_comm, ← Instant.ofSeconds?_eq_some, hs, Option.some_inj,
        eq_comm]
  · cases h

theorem foldlM_addRain {shares : List (ℤ × ℚ)} {buckets buckets' : Buckets ℚ}
    (h : shares.foldlM addRain buckets = .ok buckets') :
    (∀ b, bucketRain buckets' b =
      bucketRain buckets b + ((shares.filter fun s => s.1 = b).map Prod.snd).sum) ∧
    ∀ t, t ∈ buckets'.keys ↔
      t ∈ buckets.keys ∨ (t.seconds ∈ shares.map Prod.fst ∧ t.nanos = 0) := by
  induction shares generalizing buckets with
  | nil =>
    cases h
    simp
  | cons share shares ih =>
    rw [List.foldlM_cons] at h
    obtain ⟨buckets₁, hshare, h⟩ := bind_eq_ok.1 h
    obtain ⟨hrain, hkeys⟩ := addRain_ok hshare
    obtain ⟨hrain', hkeys'⟩ := ih h
    refine ⟨fun b => ?_, fun t => ?_⟩
    · rw [hrain', hrain, add_assoc]
      by_cases hb : share.1 = b <;> simp [hb]
    · rw [hkeys', hkeys, List.map_cons, List.mem_cons]
      tauto

theorem RainCounts.slotSeconds_eq {α : Type} (c : RainCounts α) (i : UInt32) :
    c.slotSeconds i = Finset.Ico (c.start.seconds + i.toNat * c.interval.toNat)
      (c.start.seconds + i.toNat * c.interval.toNat + c.interval.toNat) := by
  rw [slotSeconds, WeatherStation.slotSeconds, add_one_mul, add_assoc]

variable {c : RainCounts ℚ} {target : UInt32} {buckets buckets' : Buckets ℚ}

/-- The seconds of the bucket of some width that starts at a second. -/
noncomputable def bucketSeconds (target : UInt32) (b : ℤ) : Finset ℤ :=
  Finset.Ico b (b + target.toNat)

/-- The slot of an entry has a second in common with a bucket. -/
def RainCounts.MeetsBucket (c : RainCounts ℚ) (target : UInt32) (b : ℤ) (e : UInt32 × UInt32) :
    Prop :=
  (target.toNat : ℤ) ∣ b ∧ ¬ Disjoint (c.slotSeconds e.1) (bucketSeconds target b)

theorem spreadSlot_ok (hs : 0 < c.interval.toNat) (hle : c.interval.toNat ≤ target.toNat)
    {e : UInt32 × UInt32} (h : spreadSlot c c.unitValue target buckets e = .ok buckets') :
    (∀ b : ℤ, (target.toNat : ℤ) ∣ b →
      bucketRain buckets' b = bucketRain buckets b + c.partOn (bucketSeconds target b) e) ∧
    ∀ t, t ∈ buckets'.keys ↔
      t ∈ buckets.keys ∨ (t.nanos = 0 ∧ c.MeetsBucket target t.seconds e) := by
  have hs' : (0 : ℤ) < c.interval.toNat := by exact_mod_cast hs
  have hle' : (c.interval.toNat : ℤ) ≤ target.toNat := by exact_mod_cast hle
  obtain ⟨hrain, hkeys⟩ := foldlM_addRain h
  refine ⟨fun b hb => ?_, fun t => ?_⟩
  · rw [hrain, shares_sum hs' hle' _ _ hb, RainCounts.partOn, c.slotSeconds_eq]
    rfl
  · rw [hkeys, mem_shares hs' hle', RainCounts.MeetsBucket, c.slotSeconds_eq, and_comm]
    rfl

theorem foldlM_spreadSlot (hs : 0 < c.interval.toNat) (hle : c.interval.toNat ≤ target.toNat)
    {es : List (UInt32 × UInt32)}
    (h : es.foldlM (spreadSlot c c.unitValue target) buckets = .ok buckets') :
    (∀ b : ℤ, (target.toNat : ℤ) ∣ b → bucketRain buckets' b =
      bucketRain buckets b + (es.map (c.partOn (bucketSeconds target b))).sum) ∧
    ∀ t, t ∈ buckets'.keys ↔
      t ∈ buckets.keys ∨ (t.nanos = 0 ∧ ∃ e ∈ es, c.MeetsBucket target t.seconds e) := by
  induction es generalizing buckets with
  | nil =>
    cases h
    simp
  | cons e es ih =>
    rw [List.foldlM_cons] at h
    obtain ⟨buckets₁, he, h⟩ := bind_eq_ok.1 h
    obtain ⟨hrain, hkeys⟩ := spreadSlot_ok hs hle he
    obtain ⟨hrain', hkeys'⟩ := ih h
    refine ⟨fun b hb => ?_, fun t => ?_⟩
    · rw [hrain' b hb, hrain b hb, List.map_cons, List.sum_cons, add_assoc]
    · rw [hkeys', hkeys, List.exists_mem_cons_iff, and_or_left, or_assoc]

theorem ensureSupported_ok {source target : UInt32} (h : ensureSupported source target = .ok ()) :
    0 < source.toNat ∧ source.toNat ≤ target.toNat := by
  rw [ensureSupported] at h
  split_ifs at h with h₁ h₂
  rw [not_or, ← UInt32.toNat_inj, UInt32.toNat_zero] at h₁
  exact ⟨by omega, UInt32.le_iff_toNat_le.1 (by simpa using h₂)⟩

/-- Resampling succeeds only with slots that are not wider than the buckets, and then spreads the
    slots with tips. -/
theorem resample_ok {α : Type} [Quantity α] {c : RainCounts α} {u : α} {buckets : Buckets α}
    (h : resample c u target = .ok buckets) :
    (0 < c.interval.toNat ∧ c.interval.toNat ≤ target.toNat) ∧
      c.wet.foldlM (spreadSlot c u target) SortedMap.empty = .ok buckets := by
  obtain ⟨_, hsupported, h⟩ := bind_eq_ok.1 h
  obtain ⟨slots, hslots, h⟩ := bind_eq_ok.1 h
  refine ⟨ensureSupported_ok (mapError_eq_ok hsupported), ?_⟩
  have hwet : c.wet = c.units.entries.filter fun s => s.1 < slots ∧ s.2 ≠ 0 := by
    rw [RainCounts.wet, RainCounts.counted, mapError_eq_ok hslots, List.filter_filter]
    refine List.filter_congr fun e _ => ?_
    simp [Except.toOption, Bool.and_comm]
  rw [hwet]
  exact mapError_eq_ok h

/-- What a bucket gets of all slots: the rain on its seconds. -/
theorem resample_rain (h : resample c c.unitValue target = .ok buckets) {b : ℤ}
    (hb : (target.toNat : ℤ) ∣ b) : bucketRain buckets b = c.rainOn (bucketSeconds target b) := by
  obtain ⟨⟨hs, hle⟩, h⟩ := resample_ok h
  rw [(foldlM_spreadSlot hs hle h).1 b hb, bucketRain_empty, zero_add, c.rainOn_eq_wet]

/-- The buckets with rain are those that a slot with tips meets. -/
theorem mem_keys_resample (h : resample c c.unitValue target = .ok buckets) {t : Instant} :
    t ∈ buckets.keys ↔ t.nanos = 0 ∧ ∃ e ∈ c.wet, c.MeetsBucket target t.seconds e := by
  obtain ⟨⟨hs, hle⟩, h⟩ := resample_ok h
  rw [(foldlM_spreadSlot hs hle h).2]
  exact or_iff_right List.not_mem_nil

end WeatherStation
