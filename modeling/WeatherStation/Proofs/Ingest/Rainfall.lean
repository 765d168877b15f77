import WeatherStation.Proofs.Ingest.Delivery
import WeatherStation.Proofs.View.Rain

/-!
# Rainfall

Readings whose histograms lie within the days that can be truncated. Each of them touches the hours
and days that contain its instant or that its rain meets, and no others, so no rain is lost at the
borders of slots, hours and days: a stored histogram holds, slot by slot, the rain that the distinct
readings report for its seconds.

Results:
* `Reading.Concerns`: the hours and days that contain the instant of a reading or meet its rain.
* `Ingest.Touched.mem_iff`: the windows that a reading touches are those that it concerns.
* `WindowOutcome.Lists`: an outcome lists some keys, each of them once and in their order.
* `Ingest.deliver_rain`: the outcomes of all calls, and the stored histograms.
-/

namespace WeatherStation

/-- The seconds of an hour or a day, counted from 1970. -/
noncomputable def Granularity.windowSeconds (g : Granularity) (n : ℤ) : Finset ℤ :=
  Finset.Ico (n * g.seconds) ((n + 1) * g.seconds)

/-- The seconds of the days that lie as a whole in the range that 64 bits of nanoseconds hold: from
    22 September 1677 to 10 April 2262. -/
noncomputable def truncatableSeconds : Finset ℤ := Finset.Ico (-106751 * 86400) (106751 * 86400)

namespace Reading

/-- The hours and days that contain the instant of a reading, or have a second in common with one of
    its slots with tips. -/
def Concerns {α : Type} (r : Reading α) (g : Granularity) (n : ℤ) : Prop :=
  r.time.seconds ∈ g.windowSeconds n ∨
    ∃ c, r.rain = some c ∧ ∃ e ∈ c.wet, ¬ Disjoint (c.slotSeconds e.1) (g.windowSeconds n)

/-- All slots with tips lie within the days that can be truncated. -/
def RainTruncatable {α : Type} (r : Reading α) : Prop :=
  ∀ c, r.rain = some c → ∀ e ∈ c.wet, c.slotSeconds e.1 ⊆ truncatableSeconds

end Reading

/-! ## Windows and buckets -/

namespace Granularity

theorem mem_windowSeconds {g : Granularity} {n s : ℤ} :
    s ∈ g.windowSeconds n ↔ s / g.seconds = n := by
  have hpos : (0 : ℤ) < g.seconds := by have := g.seconds_pos; omega
  rw [windowSeconds, Finset.mem_Ico, ← Int.le_ediv_iff_mul_le hpos, ← Int.ediv_lt_iff_lt_mul hpos]
  omega

/-- A bucket does not reach over the end of the hour or day in which it starts. -/
theorem bucketSeconds_subset {g : Granularity} {target : UInt32}
    (ht : (target.toNat : ℤ) ∣ g.seconds) {b : ℤ} (hb : (target.toNat : ℤ) ∣ b) :
    bucketSeconds target b ⊆ g.windowSeconds (b / g.seconds) := by
  have hpos : (0 : ℤ) < g.seconds := by have := g.seconds_pos; omega
  have hlow := Int.ediv_mul_le b hpos.ne'
  have hhigh := Int.lt_ediv_add_one_mul_self b hpos
  have hle : (target.toNat : ℤ) ≤ (b / g.seconds + 1) * g.seconds - b :=
    Int.le_of_dvd (by omega) (dvd_sub (ht.mul_left _) hb)
  exact Finset.Ico_subset_Ico hlow (by omega)

/-- A bucket that starts within an hour or a day is that of one of its seconds. -/
theorem ediv_bucket {g : Granularity} {target : ℤ} (htarget : 0 < target)
    (ht : target ∣ g.seconds) (s : ℤ) : s / target * target / g.seconds = s / g.seconds := by
  have hpos : (0 : ℤ) < g.seconds := by have := g.seconds_pos; omega
  obtain ⟨m, hm⟩ := ht
  have hm' : 0 < m := by
    by_contra hneg
    have := mul_nonpos_of_nonneg_of_nonpos htarget.le (not_lt.1 hneg)
    omega
  rw [hm, ← Int.ediv_ediv_of_nonneg htarget.le, Int.mul_ediv_cancel _ htarget.ne',
    Int.ediv_ediv_of_nonneg htarget.le]

end Granularity

/-- The bucket of a second of a slot with tips is there, and its hour can be found. -/
theorem exists_bucket {c : RainCounts ℚ} {target : UInt32} {buckets : Buckets ℚ}
    (h : resample c c.unitValue target = .ok buckets) (ht : (target.toNat : ℤ) ∣ 86400)
    {e : UInt32 × UInt32} (he : e ∈ c.wet) {s : ℤ} (hs : s ∈ c.slotSeconds e.1)
    (hrange : s ∈ truncatableSeconds) :
    ∃ b ∈ buckets.keys, b.seconds = s / target.toNat * target.toNat ∧
      ∃ t, b.truncate? 3600 = some t := by
  obtain ⟨hpos, hle⟩ := (resample_ok h).1
  have hpos : (0 : ℤ) < target.toNat := by omega
  have hfloor := Int.ediv_mul_le s hpos.ne'
  have hceil := Int.lt_ediv_add_one_mul_self s hpos
  rw [add_one_mul] at hceil
  -- The bucket starts on the day of the second, because days consist of whole buckets.
  have hday : s / target.toNat * target.toNat / 86400 = s / 86400 :=
    Granularity.ediv_bucket (g := .daily) hpos ht s
  rw [truncatableSeconds, Finset.mem_Ico] at hrange
  generalize hb : s / (target.toNat : ℤ) * target.toNat = b at *
  have hcalendar : firstSecond ≤ b ∧ b ≤ lastSecond := by
    unfold firstSecond lastSecond firstDay lastDay
    omega
  obtain ⟨t, hsec, hnanos⟩ : ∃ t : Instant, t.seconds = b ∧ t.nanos = 0 :=
    ⟨⟨b, 0, hcalendar.1, hcalendar.2, by decide, by omega⟩, rfl, rfl⟩
  refine ⟨t, (mem_keys_resample h).2 ⟨hnanos, e, he, ?_, ?_⟩, hsec,
    Instant.exists_truncate? hnanos (by omega) (by omega) (by decide) (by decide)⟩
  · rw [hsec, ← hb]
    exact Dvd.intro_left _ rfl
  · rw [hsec]
    refine Finset.not_disjoint_iff.2 ⟨s, hs, Finset.mem_Ico.2 ?_⟩
    omega

namespace Ingest

variable {settings : IngestSettings} {g : Granularity} {r : Reading ℚ}
  {buckets : Option (Buckets ℚ)} {starts : List Instant}

/-- The windows that a reading touches come in the order of time. -/
theorem Touched.ascending {α : Type} [Quantity α] {r : Reading α} {buckets : Option (Buckets α)}
    (h : Touched settings g r buckets starts) : starts.Pairwise (· < ·) := by
  obtain ⟨-, set, -, rfl⟩ := h
  exact List.pairwise_map.2 (set.sorted.imp of_decide_eq_true)

/-- The hour of a bucket lies in the same hour or day as the bucket. -/
theorem ediv_of_truncate {b t : Instant} (hb : b.nanos = 0) (ht : b.truncate? 3600 = some t) :
    t.isLeap = false ∧ t.seconds / g.seconds = b.seconds / g.seconds := by
  have hl : b.isLeap = false := by simp [Instant.isLeap, hb]
  obtain ⟨hsec, hnanos⟩ := Instant.truncate?_spec hl ht
  refine ⟨by simp [Instant.isLeap, hnanos], ?_⟩
  rw [hsec]
  refine Granularity.ediv_bucket (by norm_num) ?_ _
  cases g <;> norm_num [Granularity.seconds]

/-- The windows that a reading touches are those of its instant and of its buckets. -/
theorem Touched.mem_iff_bucket (h : Touched settings g r buckets starts)
    (hl : r.time.isLeap = false) {n : ℤ} :
    (∃ start ∈ starts, start.seconds = n * g.seconds) ↔ r.time.seconds / g.seconds = n ∨
      ∃ map, buckets = some map ∧ ∃ b ∈ map.keys, b.seconds / g.seconds = n ∧
        ∃ t, b.truncate? 3600 = some t := by
  obtain ⟨hb, set, hset, rfl⟩ := h
  obtain ⟨first, hfirst, hset⟩ := bind_eq_ok.1 hset
  obtain ⟨hours, hhours, hset⟩ := bind_eq_ok.1 hset
  cases hset
  have hpos : (g.seconds : ℤ) ≠ 0 := by have := g.seconds_pos; omega
  have hwindow {t start : Instant} (ht : t.isLeap = false) (hs : g.start t = .ok start) :
      start.seconds = n * g.seconds ↔ t.seconds / g.seconds = n := by
    rw [(Granularity.start_spec ht hs).1, mul_left_inj' hpos]
  have hhour {t : Instant} : t ∈ ((buckets.map affectedHours).getD SortedMap.empty).keys ↔
      ∃ map, buckets = some map ∧ ∃ b ∈ map.keys, b.truncate? 3600 = some t := by
    cases buckets with
    | none => simp [SortedMap.keys, SortedMap.empty]
    | some map => simp [affectedHours, SortedSet.mem_keys_ofList]
  have hwhole {map : Buckets ℚ} (hmap : buckets = some map) {b : Instant} (hmem : b ∈ map.keys) :
      b.nanos = 0 := rainBuckets_keys (hmap ▸ hb) b hmem
  simp only [SortedSet.mem_keys_ofList, List.mem_cons]
  constructor
  · rintro ⟨start, rfl | hmem, hn⟩
    · exact .inl ((hwindow hl hfirst).1 hn)
    · obtain ⟨t, ht, hs⟩ := mem_of_mapM_ok hhours hmem
      obtain ⟨map, hmap, b, hb', htrunc⟩ := hhour.1 ht
      obtain ⟨htl, hsame⟩ := ediv_of_truncate (g := g) (hwhole hmap hb') htrunc
      exact .inr ⟨map, hmap, b, hb', hsame.symm.trans ((hwindow htl hs).1 hn), t, htrunc⟩
  · rintro (hn | ⟨map, hmap, b, hb', hn, t, htrunc⟩)
    · exact ⟨first, .inl rfl, (hwindow hl hfirst).2 hn⟩
    · obtain ⟨start, hmem, hs⟩ := ok_of_mapM_ok hhours (hhour.2 ⟨map, hmap, b, hb', htrunc⟩)
      obtain ⟨htl, hsame⟩ := ediv_of_truncate (g := g) (hwhole hmap hb') htrunc
      exact ⟨start, .inr hmem, (hwindow htl hs).2 (hsame.trans hn)⟩

/-- The windows that a reading touches are those that it concerns. -/
theorem Touched.mem_iff (h : Touched settings g r buckets starts) (hl : r.time.isLeap = false)
    (hv : settings.validate = .ok ()) (hr : r.RainTruncatable) {n : ℤ} :
    (∃ start ∈ starts, start.seconds = n * g.seconds) ↔ r.Concerns g n := by
  rw [h.mem_iff_bucket hl, Reading.Concerns, Granularity.mem_windowSeconds]
  refine or_congr_right ?_
  have htile : ((g.bucket settings).toNat : ℤ) ∣ g.seconds :=
    Int.natCast_dvd_natCast.2 (Dvd.intro_left _ (g.slots_mul_bucket hv).2)
  have hday : ((g.bucket settings).toNat : ℤ) ∣ 86400 := by
    refine htile.trans ?_
    cases g <;> norm_num [Granularity.seconds]
  rcases rainBuckets_ok h.1 with ⟨hnone, rfl⟩ | ⟨c, map, hc, rfl, hmap⟩
  · simp [hnone]
  · simp only [Option.some_inj, hc, exists_eq_left']
    constructor
    · rintro ⟨b, hb, hn, -⟩
      obtain ⟨-, e, he, hdvd, hmeets⟩ := (mem_keys_resample hmap).1 hb
      have hsub := Granularity.bucketSeconds_subset htile hdvd
      rw [hn] at hsub
      exact ⟨e, he, fun hdisjoint => hmeets (hdisjoint.mono_right hsub)⟩
    · rintro ⟨e, he, hmeets⟩
      obtain ⟨s, hs, hn⟩ := Finset.not_disjoint_iff.1 hmeets
      obtain ⟨b, hb, hsec, ht⟩ := exists_bucket hmap hday he hs (hr c hc e he hs)
      have hpos : (0 : ℤ) < (g.bucket settings).toNat := by
        have := (resample_ok hmap).1
        omega
      refine ⟨b, hb, ?_, ht⟩
      rw [hsec, Granularity.ediv_bucket hpos htile]
      exact Granularity.mem_windowSeconds.1 hn

end Ingest

/-! ## Outcomes -/

/-- The outcome lists some keys, each of them in one place, and in their order. -/
structure WindowOutcome.Lists (o : WindowOutcome) (keys : List String) : Prop where
  perm : (o.updated ++ o.duplicates ++ o.closed).Perm keys
  updated : o.updated.Sublist keys
  duplicates : o.duplicates.Sublist keys
  closed : o.closed.Sublist keys

theorem WindowOutcome.Lists.note {o : WindowOutcome} {keys : List String} (h : o.Lists keys)
    (key : String) (u : WindowUpdate) : (o.note key u).Lists (keys ++ [key]) := by
  have hkept {l : List String} (hl : l.Sublist keys) : l.Sublist (keys ++ [key]) :=
    hl.trans (List.sublist_append_left _ _)
  have hnew {l : List String} (hl : l.Sublist keys) : (l ++ [key]).Sublist (keys ++ [key]) :=
    hl.append (List.Sublist.refl _)
  have hperm : (o.updated ++ o.duplicates ++ o.closed ++ [key]).Perm (keys ++ [key]) :=
    h.perm.append_right _
  cases u with
  | updated =>
    refine ⟨List.Perm.trans ?_ hperm, hnew h.updated, hkept h.duplicates, hkept h.closed⟩
    simp only [WindowOutcome.note, List.append_assoc]
    refine List.Perm.append_left _ (List.perm_append_comm.trans ?_)
    simp
  | duplicate =>
    refine ⟨List.Perm.trans ?_ hperm, hkept h.updated, hnew h.duplicates, hkept h.closed⟩
    simp only [WindowOutcome.note, List.append_assoc]
    exact (List.perm_append_comm.append_left _).append_left _
  | isSealed =>
    refine ⟨List.Perm.trans ?_ hperm, hkept h.updated, hkept h.duplicates, hnew h.closed⟩
    simp [WindowOutcome.note]

namespace Ingest

/-- The outcome of some visits lists the keys of the visited windows. -/
theorem outcomeOf_lists (g : Granularity) (device : String)
    (visits : List (Instant × WindowUpdate)) :
    (outcomeOf g device visits .empty).Lists (visits.map fun v => (g.id device v.1).key) := by
  induction visits using List.reverseRecOn with
  | nil => exact ⟨.refl _, .slnil, .slnil, .slnil⟩
  | append_singleton visits v ih =>
    rw [outcomeOf, List.foldl_append, List.map_append]
    exact ih.note (g.id device v.1).key v.2

/-- The outcome of a reading lists the hours or days that it concerns, in the order of time. -/
def Accounts {α : Type} (g : Granularity) (r : Reading α) (o : WindowOutcome) : Prop :=
  ∃ starts : List Instant, starts.Pairwise (· < ·) ∧
    (∀ start ∈ starts, start.nanos = 0 ∧ (g.seconds : ℤ) ∣ start.seconds) ∧
    (∀ n, (∃ start ∈ starts, start.seconds = n * g.seconds) ↔ r.Concerns g n) ∧
    (starts.map fun start => (g.id r.device start).key).Nodup ∧
    o.Lists (starts.map fun start => (g.id r.device start).key)

section

variable {settings : IngestSettings} {rs : List (Reading ℚ)} {h : History (Reading ℚ) ℚ}
  {g : Granularity} {r : Reading ℚ}

theorem WalkedAll.accounts {T : Terms (Reading ℚ) ℚ} {o : WindowOutcome}
    (hw : WalkedAll T settings r g o h) (hl : r.time.isLeap = false)
    (hv : settings.validate = .ok ()) (hr : r.RainTruncatable) : Accounts g r o := by
  obtain ⟨h₁, buckets, visits, h₂, ht, -, -, rfl⟩ := hw
  refine ⟨visits.map Prod.fst, ht.ascending, fun start hs => ?_, fun n => ht.mem_iff hl hv hr,
    ht.nodup_keys hl, ?_⟩
  · obtain ⟨hsec, hnanos⟩ := ht.aligned hl hs
    exact ⟨hnanos, Dvd.intro_left _ hsec.symm⟩
  · rw [List.map_map]
    exact outcomeOf_lists g r.device visits

/-- Deliveries in two parts. -/
theorem deliver_append {α : Type} [Quantity α] {settings : IngestSettings}
    {now : Except Overflow Instant} {before after : List (Reading α)} {s₀ s : Store α}
    (hs : deliver settings now (before ++ after) s₀ = .ok s) :
    ∃ s₁, deliver settings now before s₀ = .ok s₁ ∧ deliver settings now after s₁ = .ok s := by
  rw [deliver, List.foldlM_append] at hs
  exact bind_eq_ok.1 hs

theorem deliver_cons {α : Type} [Quantity α] {settings : IngestSettings}
    {now : Except Overflow Instant} {r : Reading α} {rs : List (Reading α)} {s₀ s : Store α}
    (hs : deliver settings now (r :: rs) s₀ = .ok s) :
    ∃ o s₁, (apply settings r).alone now s₀ = (.ok o, s₁) ∧
      deliver settings now rs s₁ = .ok s := by
  rw [deliver, List.foldlM_cons] at hs
  obtain ⟨s₁, hr, hs⟩ := bind_eq_ok.1 hs
  split at hr
  · next o s' ho =>
    cases hr
    exact ⟨o, s₁, ho, hs⟩
  · cases hr

/-- Every call accounts for what it did. -/
theorem deliver_accounts {now : Except Overflow Instant} {before after : List (Reading ℚ)}
    {s : Store ℚ} (hs : deliver settings now (before ++ r :: after) Store.empty = .ok s)
    (hl : r.time.isLeap = false) (hv : settings.validate = .ok ()) (hr : r.RainTruncatable) :
    ∃ s₁ o s₂, deliver settings now before Store.empty = .ok s₁ ∧
      (apply settings r).alone now s₁ = (.ok o, s₂) ∧ deliver settings now after s₂ = .ok s ∧
      ∀ g, Accounts g r (o.windows g) := by
  obtain ⟨s₁, hbefore, hs⟩ := deliver_append hs
  obtain ⟨o, s₂, ho, hafter⟩ := deliver_cons hs
  refine ⟨s₁, o, s₂, hbefore, ho, hafter, fun g => ?_⟩
  obtain ⟨h, rfl, hi, -⟩ := deliver_recorded hbefore
  have hi' : Records settings id (before ++ [r]) h :=
    ⟨hi.folded, fun e he => ⟨List.mem_append_left _ (hi.due e he).1, (hi.due e he).2⟩⟩
  have hsafe :
      Client.Safe (deliveryTerms settings id (before ++ [r]) h.log r) _ (apply settings r) h :=
    apply_walked (List.mem_append_right _ (List.mem_singleton.2 rfl))
  obtain ⟨h', -, -, hpost⟩ := hsafe.run ⟨hi', List.prefix_refl _⟩ now
  exact (hpost o (congrArg Prod.fst ho) g).accounts hl hv hr

/-! ## Histograms -/

/-- A reading whose rain meets a window has written it. -/
theorem Records.mem_writers (hi : Records settings id rs h)
    (hd : ∀ r ∈ rs, ∀ g, Delivered settings id h r g) (hleap : ∀ r ∈ rs, r.time.isLeap = false)
    (hid : ∀ r ∈ rs, ∀ r' ∈ rs, r.device = r'.device → r.sourceId = r'.sourceId → r = r')
    (hv : settings.validate = .ok ()) (hr : r ∈ rs) (hrain : r.RainTruncatable) {t : Instant}
    (hc : r.Concerns g (t.seconds / g.seconds)) : r ∈ h.writers (g.id r.device t).key := by
  obtain ⟨buckets, starts, ht, hall⟩ := hd r hr g
  obtain ⟨start, hs, hsec⟩ := (ht.mem_iff (hleap r hr) hv hrain).2 hc
  obtain ⟨u, hu, huid⟩ := hall start hs
  have hpos : (g.seconds : ℤ) ≠ 0 := by have := g.seconds_pos; omega
  have hkey : (g.id r.device start).key = (g.id r.device t).key :=
    g.id_key_eq_iff.2 ⟨rfl, by rw [hsec, Int.mul_ediv_cancel _ hpos]⟩
  rw [hkey] at hu
  obtain ⟨hur, hdevice⟩ := hi.of_mem_writers hu
  obtain rfl := hid u hur r hr hdevice huid
  exact hu

/-- The slots of a stored histogram lie in its window. -/
theorem slotSeconds_subset {rain : RainWindow ℚ} {start : Instant} {us : List (Reading ℚ)}
    (hc : rain.Collects settings g start us) (hv : settings.validate = .ok ())
    (hs : (g.seconds : ℤ) ∣ start.seconds) {j : ℕ} (hj : j < g.slots settings) :
    rain.slotSeconds j ⊆ g.windowSeconds (start.seconds / g.seconds) := by
  have htile := (g.slots_mul_bucket hv).2
  have hend : (j + 1) * (g.bucket settings).toNat ≤ g.seconds := by
    rw [← htile]
    exact Nat.mul_le_mul_right _ hj
  have hend' : ((j : ℤ) + 1) * (g.bucket settings).toNat ≤ g.seconds := by exact_mod_cast hend
  have hstart : (0 : ℤ) ≤ j * (g.bucket settings).toNat := by positivity
  rw [RainWindow.slotSeconds, slotSeconds, Granularity.windowSeconds, hc.start, hc.interval,
    add_one_mul (start.seconds / (g.seconds : ℤ)), Int.ediv_mul_cancel hs]
  exact Finset.Ico_subset_Ico (by omega) (by omega)

/-- The slots of a stored histogram hold the rain that the distinct readings of the device report
    for their seconds: those that wrote the window report all of it. -/
theorem Records.rain [DecidableEq (Reading ℚ)] (hi : Records settings id rs h)
    (hd : ∀ r ∈ rs, ∀ g, Delivered settings id h r g) (hleap : ∀ r ∈ rs, r.time.isLeap = false)
    (hid : ∀ r ∈ rs, ∀ r' ∈ rs, r.device = r'.device → r.sourceId = r'.sourceId → r = r')
    (hv : settings.validate = .ok ()) (hsum : settings.windowMerge = .sum)
    (hrain : ∀ r ∈ rs, r.RainTruncatable) {key : String} {w : WindowView g ℚ}
    {rain : RainWindow ℚ} (hw : h.store.get? key = some (.ofWindow w)) (hwr : w.rain = some rain) :
    rain.start = w.start ∧ rain.interval = g.bucket settings ∧
      rain.values.length = g.slots settings ∧ ∀ j v, rain.values[j]? = some v →
        v = ∑ r ∈ rs.toFinset with r.device = w.device, r.rainOn (rain.slotSeconds j) := by
  obtain ⟨r₀, rest, buckets, starts, start, hus, ht, hstart, hfold⟩ := hi.folded.fold hw
  have hnodup := (hi.folded.once hw).of_map
  rw [List.map_id] at hus hfold
  generalize hwriters : h.writers key = us at hus hfold hnodup
  obtain ⟨hwid, hwdevice, hwstart, -, -⟩ := WindowView.foldlM_take_frame hfold
  have hkey : key = (g.id r₀.device start).key := by
    rw [← (hi.folded.sound.get?_recorded hw).1, View.key_ofWindow, show w.id = _ from hwid]
    rfl
  have hdevice : w.device = r₀.device := hwdevice
  have hstart' : w.start = start := hwstart
  have hr₀ : r₀ ∈ h.writers (g.id r₀.device start).key := by
    rw [← hkey, hwriters, hus]
    exact List.mem_cons_self
  obtain ⟨haligned, hnanos⟩ := ht.aligned (hleap r₀ (hi.of_mem_writers hr₀).1) hstart
  have hdvd : (g.seconds : ℤ) ∣ start.seconds := Dvd.intro_left _ haligned.symm
  have hempty : WindowView.RainOf settings [] (.empty r₀.device start : WindowView g ℚ) :=
    fun _ hr => by cases hr
  have hcollects : rain.Collects settings g start us := by
    have := WindowView.foldlM_take_rain hv hsum hnanos hdvd hempty hfold
    rw [List.nil_append, WindowView.RainOf, show (w.setVersion none).rain = _ from hwr] at this
    rwa [show (w.setVersion none).start = start from hstart'] at this
  refine ⟨hstart' ▸ hcollects.start, hcollects.interval, hcollects.length, fun j v hj => ?_⟩
  have hslot : j < g.slots settings := by
    rw [← hcollects.length]
    exact (List.getElem?_eq_some_iff.1 hj).1
  rw [hcollects.value j v hj, ← List.sum_toFinset _ hnodup]
  refine Finset.sum_subset (fun r hr => ?_) fun r hr hnot => ?_
  · rw [List.mem_toFinset, ← hwriters, hkey] at hr
    obtain ⟨hmem, hrd⟩ := hi.of_mem_writers hr
    exact Finset.mem_filter.2 ⟨List.mem_toFinset.2 hmem, hrd.trans hdevice.symm⟩
  · -- A reading that reports rain for the slot concerns the window, so it has written it.
    obtain ⟨hmem, hrd⟩ := Finset.mem_filter.1 hr
    rw [List.mem_toFinset] at hmem hnot
    cases hc : r.rain with
    | none => exact r.rainOn_of_none hc _
    | some c =>
      rw [Reading.rainOn, hc]
      refine RainCounts.rainOn_eq_zero fun e he => ?_
      by_contra hmeets
      refine hnot ?_
      rw [← hwriters, hkey, ← hdevice, ← hrd]
      refine hi.mem_writers hd hleap hid hv hmem (hrain r hmem) (.inr ⟨c, hc, e, he, ?_⟩)
      exact fun hdisjoint =>
        hmeets (hdisjoint.mono_right (slotSeconds_subset hcollects hv hdvd hslot))

end

/-- When every call succeeds, no reading lies in a leap second, the readings of a device are told
    apart by their deliveries and all rain lies within the days that can be truncated: every call
    lists the hours and days that its reading concerns, and every slot of a stored histogram holds
    the rain that the distinct readings of the device report for its seconds. -/
theorem deliver_rain {settings : IngestSettings} {now : Except Overflow Instant}
    {rs : List (Reading ℚ)} {s : Store ℚ} (hv : settings.validate = .ok ())
    (hsum : settings.windowMerge = .sum) (hs : deliver settings now rs Store.empty = .ok s)
    (hleap : ∀ r ∈ rs, r.time.isLeap = false)
    (hid : ∀ r ∈ rs, ∀ r' ∈ rs, r.device = r'.device → r.sourceId = r'.sourceId → r = r')
    (hrain : ∀ r ∈ rs, r.RainTruncatable) :
    (∀ before r after, rs = before ++ r :: after → ∃ s₁ o s₂,
      deliver settings now before Store.empty = .ok s₁ ∧
      (apply settings r).alone now s₁ = (.ok o, s₂) ∧ deliver settings now after s₂ = .ok s ∧
      ∀ g, Accounts g r (o.windows g)) ∧
    ∀ (g : Granularity) (key : String) (w : WindowView g ℚ) (rain : RainWindow ℚ),
      s.get? key = some (.ofWindow w) → w.rain = some rain →
      rain.start = w.start ∧ rain.interval = g.bucket settings ∧
      rain.values.length = g.slots settings ∧ ∀ j v, rain.values[j]? = some v →
        v = ∑ r ∈ rs.toFinset with r.device = w.device, r.rainOn (rain.slotSeconds j) := by
  constructor
  · rintro before r after rfl
    have hr : r ∈ before ++ r :: after := List.mem_append_right _ List.mem_cons_self
    exact deliver_accounts hs (hleap r hr) hv (hrain r hr)
  · obtain ⟨h, rfl, hi, hd⟩ := deliver_recorded hs
    exact fun g key w rain hw hwr => hi.rain hd hleap hid hv hsum hrain hw hwr

/-- A reading of 11 September 2025 at 15:40, with two tips from 15:57:30 to 16:02:30. -/
def shower : Reading ℚ where
  device := "dev"
  source := none
  time := (afternoon 2400 0).time
  values := .const none
  rain := some (.ofList [2] 300 (afternoon 3450 0).time (1 / 2))

theorem shower_truncatable : shower.RainTruncatable := by
  rintro c hc e he
  cases hc
  have hwet : (RainCounts.ofList [2] 300 (afternoon 3450 0).time (1 / 2 : ℚ)).wet = [(0, 2)] := by
    decide
  rw [hwet, List.mem_singleton] at he
  subst he
  have hstart : (afternoon 3450 0).time.seconds = 1757606250 := by decide
  rw [RainCounts.slotSeconds_eq]
  refine Finset.Ico_subset_Ico ?_ ?_
  · show -106751 * 86400 ≤ (afternoon 3450 0).time.seconds + 0 * 300
    omega
  · show (afternoon 3450 0).time.seconds + 0 * 300 + 300 ≤ 106751 * 86400
    omega

/-- The shower is delivered twice. Half of its rain falls into the last slot of its hour. -/
theorem deliver_rain_shower :
    ∃ (s : Store ℚ) (w : HourlyView ℚ) (rain : RainWindow ℚ),
      deliver .standard (.error .calendar) [shower, afternoon 60 20, shower] Store.empty = .ok s ∧
      s.get? (Granularity.hourly.id "dev" shower.time).key = some (.ofWindow w) ∧
      w.rain = some rain ∧ rain.values[11]? = some (1 / 2) ∧
      1 / 2 = ∑ r ∈ [shower, afternoon 60 20, shower].toFinset with r.device = w.device,
        r.rainOn (rain.slotSeconds 11) := by
  have hslot : (((deliver .standard (.error .calendar) [shower, afternoon 60 20, shower]
      Store.empty).toOption.bind fun s =>
        (s.get? (Granularity.hourly.id "dev" shower.time).key).bind (View.window? .hourly)).bind
          WindowView.rain).bind (·.values[11]?) = some (1 / 2) := by
    decide +kernel
  simp only [Option.bind_eq_some_iff] at hslot
  obtain ⟨rain, ⟨w, ⟨s, hs, v, hv, hw⟩, hrain⟩, hvalue⟩ := hslot
  have hs : deliver .standard (.error .calendar) [shower, afternoon 60 20, shower] Store.empty =
      .ok s := by
    revert hs
    cases deliver .standard (.error .calendar) [shower, afternoon 60 20, shower] Store.empty with
    | error e => exact fun h => by cases h
    | ok s' => exact fun h => congrArg Except.ok (Option.some_inj.1 h)
  have hv : s.get? (Granularity.hourly.id "dev" shower.time).key = some (.ofWindow w) := by
    rw [hv, View.eq_ofWindow_of_window? hw]
  refine ⟨s, w, rain, hs, hv, hrain, hvalue, ?_⟩
  refine ((deliver_rain (by decide) rfl hs (by decide) (by decide +kernel) ?_).2 .hourly _ w rain hv
    hrain).2.2.2 11 _ hvalue
  intro r hr
  simp only [List.mem_cons, List.not_mem_nil, or_false] at hr
  rcases hr with rfl | rfl | rfl
  · exact shower_truncatable
  · exact fun c hc => by cases hc
  · exact shower_truncatable

end Ingest

end WeatherStation
