import Mathlib.Tactic
import WeatherStation.Proofs.Ingest.Refusals
import WeatherStation.Proofs.Rain.Words

/-!
# What resampling comes to

A report is resampled unless a width is missing, the slots are wider than the buckets, or a slot
with tips lies where 64 bits or the calendar end. The rain of the buckets is that of the slots.

Results:
* `foldlM_isOk`: a fold succeeds if each of its steps does.
* `foldlM_spreadSlot_isOk`: slots are spread unless one of them meets a bucket outside the calendar.
* `resample_total`: no rain is lost, and none is counted twice.
* `RainCounts.OutOfRange`: a slot with tips that cannot be spread.
* `RainCounts.ResampledTo`, `resample_outcome`: when resampling fails, and what it comes to
  otherwise.
-/

namespace WeatherStation

/-- A fold whose steps succeed or fail regardless of what came before succeeds if all of them do. -/
theorem foldlM_isOk {ε β γ : Type} {f : β → γ → Except ε β} {p : γ → Prop}
    (hf : ∀ b x, (∃ b', f b x = .ok b') ↔ p x) {l : List γ} {b : β} :
    (∃ b', l.foldlM f b = .ok b') ↔ ∀ x ∈ l, p x := by
  induction l generalizing b with
  | nil => exact iff_of_true ⟨b, rfl⟩ fun x hx => by cases hx
  | cons x l ih =>
    rw [List.forall_mem_cons, ← hf b x]
    constructor
    · rintro ⟨b', h⟩
      rw [List.foldlM_cons] at h
      obtain ⟨c, hx, h⟩ := bind_eq_ok.1 h
      exact ⟨⟨c, hx⟩, ih.1 ⟨b', h⟩⟩
    · rintro ⟨⟨c, hx⟩, hl⟩
      obtain ⟨b', h⟩ := (ih (b := c)).2 hl
      refine ⟨b', ?_⟩
      rw [List.foldlM_cons, hx]
      exact h

/-! ## Buckets outside the calendar -/

theorem addRain_isOk (buckets : Buckets ℚ) (share : ℤ × ℚ) :
    (∃ buckets', addRain buckets share = .ok buckets') ↔ Instant.ofSeconds? share.1 ≠ none := by
  rw [addRain]
  cases Instant.ofSeconds? share.1 with
  | none => simp
  | some t => simp

variable {c : RainCounts ℚ} {target : UInt32}

/-- A slot is spread unless it meets a bucket outside the calendar. -/
theorem spreadSlot_isOk (hs : 0 < c.interval.toNat) (hle : c.interval.toNat ≤ target.toNat)
    (buckets : Buckets ℚ) (e : UInt32 × UInt32) :
    (∃ buckets', spreadSlot c c.unitValue target buckets e = .ok buckets') ↔
      ∀ b, c.MeetsBucket target b e → Instant.ofSeconds? b ≠ none := by
  have hs' : (0 : ℤ) < c.interval.toNat := by exact_mod_cast hs
  have hle' : (c.interval.toNat : ℤ) ≤ target.toNat := by exact_mod_cast hle
  have hmeets (b : ℤ) := mem_shares hs' hle' (c.start.seconds + e.1.toNat * c.interval.toNat)
    (Quantity.ofNat e.2.toNat * c.unitValue) (b := b)
  rw [spreadSlot, foldlM_isOk addRain_isOk, ← List.forall_mem_map (f := Prod.fst)
    (P := fun b => Instant.ofSeconds? b ≠ none)]
  refine forall_congr' fun b => imp_congr_left ?_
  rw [hmeets, RainCounts.MeetsBucket, c.slotSeconds_eq]
  rfl

/-- Slots are spread unless one of them meets a bucket outside the calendar. -/
theorem foldlM_spreadSlot_isOk (hs : 0 < c.interval.toNat) (hle : c.interval.toNat ≤ target.toNat)
    {es : List (UInt32 × UInt32)} {buckets : Buckets ℚ} :
    (∃ buckets', es.foldlM (spreadSlot c c.unitValue target) buckets = .ok buckets') ↔
      ∀ e ∈ es, ∀ b, c.MeetsBucket target b e → Instant.ofSeconds? b ≠ none :=
  foldlM_isOk (spreadSlot_isOk hs hle)

/-! ## The rain of all buckets -/

theorem sum_insert (k : Instant) (x : ℚ) (l : List (Instant × ℚ)) :
    ((Entries.insert k ((Entries.find? k l).getD 0 + x) l).map Prod.snd).sum =
      (l.map Prod.snd).sum + x := by
  induction l with
  | nil => simp [Entries.insert, Entries.find?]
  | cons e l ih =>
    rw [Entries.insert, Entries.find?]
    split_ifs
    · simp [add_comm]
    · rw [List.map_cons, List.sum_cons, ih, List.map_cons, List.sum_cons, add_assoc]
    · rw [List.map_cons, List.sum_cons, List.map_cons, List.sum_cons, Option.getD_some]
      ring

theorem addRain_total {buckets buckets' : Buckets ℚ} {share : ℤ × ℚ}
    (h : addRain buckets share = .ok buckets') :
    buckets'.values.sum = buckets.values.sum + share.2 := by
  rw [addRain] at h
  split at h
  · cases h
    exact sum_insert _ _ _
  · cases h

theorem foldlM_addRain_total {shares : List (ℤ × ℚ)} {buckets buckets' : Buckets ℚ}
    (h : shares.foldlM addRain buckets = .ok buckets') :
    buckets'.values.sum = buckets.values.sum + (shares.map Prod.snd).sum := by
  induction shares generalizing buckets with
  | nil =>
    cases h
    simp
  | cons share shares ih =>
    rw [List.foldlM_cons] at h
    obtain ⟨buckets₁, hshare, h⟩ := bind_eq_ok.1 h
    rw [ih h, addRain_total hshare, List.map_cons, List.sum_cons, add_assoc]

/-- The shares of a slot make up its rain. -/
theorem shares_total (source target start : ℤ) (rain : ℚ) :
    ((shares source target start rain).map Prod.snd).sum = rain := by
  simp only [shares]
  split_ifs
  · simp
  · simp only [List.map_cons, List.map_nil, List.sum_cons, List.sum_nil]
    ring

theorem foldlM_spreadSlot_total {u : ℚ} {es : List (UInt32 × UInt32)} {buckets buckets' : Buckets ℚ}
    (h : es.foldlM (spreadSlot c u target) buckets = .ok buckets') :
    buckets'.values.sum = buckets.values.sum + u * (es.map fun e => (e.2.toNat : ℚ)).sum := by
  induction es generalizing buckets with
  | nil =>
    cases h
    simp
  | cons e es ih =>
    rw [List.foldlM_cons] at h
    obtain ⟨buckets₁, he, h⟩ := bind_eq_ok.1 h
    have hcount : (Quantity.ofNat e.2.toNat : ℚ) = e.2.toNat := Int.cast_natCast _
    rw [ih h, foldlM_addRain_total he, shares_total, hcount, List.map_cons, List.sum_cons]
    ring

/-- The tips of the slots with tips are those of all slots. -/
theorem RainCounts.sum_wet (c : RainCounts ℚ) :
    (c.wet.map fun e => (e.2.toNat : ℚ)).sum = (c.counted.map fun e => (e.2.toNat : ℚ)).sum := by
  unfold wet
  induction c.counted with
  | nil => rfl
  | cons e es ih =>
    by_cases he : e.2 = 0
    · simpa [he] using ih
    · simpa [he] using ih

/-- No rain is lost, and none is counted twice. -/
theorem resample_total {buckets : Buckets ℚ} (h : resample c c.unitValue target = .ok buckets) :
    buckets.values.sum = c.unitValue * (c.counted.map fun e => (e.2.toNat : ℚ)).sum := by
  obtain ⟨-, h⟩ := resample_ok h
  rw [foldlM_spreadSlot_total h, c.sum_wet]
  exact zero_add _

/-! ## The outcome -/

/-- The end of the slot of an entry is beyond 64 bits, or the slot meets a bucket that starts
    outside the calendar. -/
def RainCounts.OutOfRange (c : RainCounts ℚ) (target : UInt32) (e : UInt32 × UInt32) : Prop :=
  ¬ Word.Fits (c.start.seconds + (e.1.toNat + 1) * c.interval.toNat) ∨
    ∃ b, c.MeetsBucket target b e ∧ Instant.ofSeconds? b = none

/-- A slot that ends beyond 64 bits meets a bucket outside the calendar. -/
theorem RainCounts.outOfRange_iff (hs : 0 < c.interval.toNat)
    (hle : c.interval.toNat ≤ target.toNat) (e : UInt32 × UInt32) :
    c.OutOfRange target e ↔ ∃ b, c.MeetsBucket target b e ∧ Instant.ofSeconds? b = none := by
  refine or_iff_right_of_imp fun hend => ?_
  have hs' : (0 : ℤ) < c.interval.toNat := by exact_mod_cast hs
  have hle' : (c.interval.toNat : ℤ) ≤ target.toNat := by exact_mod_cast hle
  have htarget := target.toNat_lt
  have hsource := c.interval.toNat_lt
  have hpos : (0 : ℤ) ≤ e.1.toNat * c.interval.toNat := by positivity
  have hfirst : -10000000000000 ≤ firstSecond := by decide
  have hlast : lastSecond ≤ 10000000000000 := by decide
  have hlow := c.start.first_le
  rw [add_one_mul, ← add_assoc, Word.Fits] at hend
  generalize hstart : c.start.seconds + e.1.toNat * c.interval.toNat = start at *
  -- The bucket that holds the start of the slot begins less than a width before it.
  have hbucket := Int.lt_ediv_add_one_mul_self start (by omega : (0 : ℤ) < target.toNat)
  rw [add_one_mul] at hbucket
  refine ⟨start / target.toNat * target.toNat, ?_, ?_⟩
  · have hmem := (mem_shares hs' hle' start 0 (b := start / target.toNat * target.toNat)).1
    rw [MeetsBucket, c.slotSeconds_eq, hstart]
    refine hmem ?_
    simp only [shares]
    split_ifs <;> simp
  · rw [Instant.ofSeconds?, Instant.ofParts?, dif_neg]
    omega

/-- What a report is resampled to, with a value for one tip: the buckets that a slot with tips meets
    get their parts of these slots, and all tips count. -/
structure RainCounts.ResampledTo (c : RainCounts ℚ) (u : ℚ) (target : UInt32)
    (buckets : Buckets ℚ) : Prop where
  keys : ∀ t, t ∈ buckets.keys ↔ t.nanos = 0 ∧ ∃ e ∈ c.wet, c.MeetsBucket target t.seconds e
  rain : ∀ t x, buckets.find? t = some x → x = (c.wet.map fun e =>
    e.2.toNat * u * (c.slotSeconds e.1 ∩ bucketSeconds target t.seconds).card /
      c.interval.toNat).sum
  total : buckets.values.sum = u * (c.counted.map fun e => (e.2.toNat : ℚ)).sum

theorem resample_of_missing {u : ℚ} (h : c.interval = 0 ∨ target = 0) :
    resample c u target = .error (.refused .invalidInterval) := by
  rw [resample, ensureSupported, if_pos h]
  rfl

theorem resample_of_wider {u : ℚ} (h : ¬ (c.interval = 0 ∨ target = 0))
    (hwider : c.interval > target) :
    resample c u target = .error (.refused (.unsupportedDownsampling c.interval target)) := by
  rw [resample, ensureSupported, if_neg h, if_pos hwider]
  rfl

theorem resample_of_supported {u : ℚ} {n : UInt32} (hn : c.slotCount = .ok n)
    (h : ¬ (c.interval = 0 ∨ target = 0)) (hwider : ¬ c.interval > target) :
    resample c u target =
      (c.wet.foldlM (spreadSlot c u target) SortedMap.empty).mapError .refused := by
  have hwet : c.wet = c.units.entries.filter fun s => s.1 < n ∧ s.2 ≠ 0 := by
    rw [RainCounts.wet, RainCounts.counted, hn, List.filter_filter]
    refine List.filter_congr fun e _ => ?_
    simp [Except.toOption, Bool.and_comm]
  rw [resample, ensureSupported, if_neg h, if_neg hwider, hn, hwet]
  rfl

/-- What comes out is the report resampled. -/
theorem resampledTo_of_resample {u : ℚ} {buckets : Buckets ℚ}
    (h : resample c u target = .ok buckets) : c.ResampledTo u target buckets := by
  let c' : RainCounts ℚ := { c with unitValue := u }
  have h : resample c' c'.unitValue target = .ok buckets := h
  have hkeys (t : Instant) : t ∈ buckets.keys ↔
      t.nanos = 0 ∧ ∃ e ∈ c'.wet, c'.MeetsBucket target t.seconds e := mem_keys_resample h
  refine ⟨hkeys, fun t x hx => ?_, resample_total h⟩
  obtain ⟨hnanos, e, -, hdvd, -⟩ := (hkeys t).1 (SortedMap.mem_keys_iff.2 ⟨x, hx⟩)
  have hrain := resample_rain h hdvd
  rw [bucketRain, Instant.ofSeconds?_eq_some.2 ⟨rfl, hnanos⟩, Option.bind_some, hx,
    c'.rainOn_eq_wet] at hrain
  exact hrain

/-- When a report is not resampled, and what it comes to otherwise. Words of 64 bits come to the
    same. -/
theorem resample_outcome (c : RainCounts ℚ) (u : ℚ) (target : UInt32) {n : UInt32}
    (hn : c.slotCount = .ok n) :
    (Word.resample c u target).run = .ok (resample c u target) ∧
    (resample c u target = .error (.refused .invalidInterval) ↔ c.interval = 0 ∨ target = 0) ∧
    (resample c u target = .error (.refused (.unsupportedDownsampling c.interval target)) ↔
      ¬ (c.interval = 0 ∨ target = 0) ∧ c.interval > target) ∧
    (resample c u target = .error (.refused .timestampOutOfRange) ↔
      ¬ (c.interval = 0 ∨ target = 0) ∧ ¬ c.interval > target ∧
        ∃ e ∈ c.wet, c.OutOfRange target e) ∧
    ((∃ buckets, resample c u target = .ok buckets ∧ c.ResampledTo u target buckets) ↔
      ¬ (c.interval = 0 ∨ target = 0) ∧ ¬ c.interval > target ∧
        ¬ ∃ e ∈ c.wet, c.OutOfRange target e) := by
  refine ⟨Word.resample_eq c u target, ?_⟩
  by_cases hmissing : c.interval = 0 ∨ target = 0
  · simp [resample_of_missing hmissing, hmissing]
  by_cases hwider : c.interval > target
  · simp [resample_of_wider hmissing hwider, hmissing, hwider]
  have hsupported : ensureSupported c.interval target = .ok () := by
    rw [ensureSupported, if_neg hmissing, if_neg hwider]
  obtain ⟨hs, hle⟩ := ensureSupported_ok hsupported
  let c' : RainCounts ℚ := { c with unitValue := u }
  have hspread : (∃ buckets, c.wet.foldlM (spreadSlot c u target) SortedMap.empty = .ok buckets) ↔
      ¬ ∃ e ∈ c.wet, c.OutOfRange target e := by
    refine (foldlM_spreadSlot_isOk (c := c') hs hle).trans ?_
    simp only [RainCounts.outOfRange_iff hs hle, not_exists, not_and]
    rfl
  have hresample := resample_of_supported (u := u) hn hmissing hwider
  simp only [hmissing, hwider, not_false_eq_true, true_and, and_false, iff_false]
  cases hfold : c.wet.foldlM (spreadSlot c u target) SortedMap.empty with
  | ok buckets =>
    rw [hfold] at hresample
    have hrange := hspread.1 ⟨buckets, hfold⟩
    have hok : resample c u target = .ok buckets := hresample
    simp [hok, hrange, resampledTo_of_resample hok]
  | error e =>
    rw [hfold] at hresample hspread
    have hrange : ∃ e ∈ c.wet, c.OutOfRange target e :=
      not_not.1 fun hno => by obtain ⟨_, hb⟩ := hspread.2 hno; cases hb
    obtain rfl : e = .timestampOutOfRange :=
      foldlM_error (p := (· = .timestampOutOfRange)) (fun _ _ _ _ => spreadSlot_error) hfold
    have herror : resample c u target = .error (.refused .timestampOutOfRange) := hresample
    simp [herror, hrange]

/-- The rain of twelve minutes from 15:18 on, in slots of two minutes. -/
def twelveMinutes : RainCounts ℚ :=
  .ofList [1, 0, 1, 2, 1, 0] 120 ((Instant.ofSeconds? 1755184680).get (by decide)) 5

/-- Twelve minutes in buckets of four. -/
theorem twelveMinutes_resampled :
    twelveMinutes.slotCount = .ok 6 ∧ ∃ buckets, resample twelveMinutes 5 240 = .ok buckets ∧
      twelveMinutes.ResampledTo 5 240 buckets ∧ buckets.values = [5, 5, 15] := by
  have hn : twelveMinutes.slotCount = .ok 6 := by decide +kernel
  obtain ⟨-, -, -, hrange, hok⟩ := resample_outcome twelveMinutes 5 240 hn
  have hmissing : ¬ (twelveMinutes.interval = 0 ∨ (240 : UInt32) = 0) := by decide
  have hwider : ¬ twelveMinutes.interval > 240 := by decide
  have hvalues : (resample twelveMinutes 5 240).map SortedMap.values = .ok [5, 5, 15] := by
    decide +kernel
  have hin : ¬ ∃ e ∈ twelveMinutes.wet, twelveMinutes.OutOfRange 240 e := fun hout => by
    rw [hrange.2 ⟨hmissing, hwider, hout⟩] at hvalues
    cases hvalues
  obtain ⟨buckets, hbuckets, hresampled⟩ := hok.2 ⟨hmissing, hwider, hin⟩
  rw [hbuckets] at hvalues
  exact ⟨hn, buckets, hbuckets, hresampled, Except.ok.inj hvalues⟩

end WeatherStation
