import WeatherStation.Proofs.Except
import WeatherStation.Proofs.Rain.Slots
import WeatherStation.Proofs.View.Rain

/-!
# Rain in 64-bit words

Rain is resampled and merged with numbers of 64 bits. The start and the end of a slot are checked
against their range, and everything after that is not: neither does it leave the range, nor does it
divide by zero. So the words compute what whole numbers without bounds do.

Results:
* `Word.Fits`, `Trap`: the range of a word, and what happens outside.
* `Word.resample_eq`: resampling.
* `Word.merge_eq`: merging buckets into a window.
-/

namespace WeatherStation

/-- What a computation with words cannot go on from. -/
inductive Trap where
  /-- A result that 64 bits do not hold. -/
  | overflow
  | divisionByZero
  deriving DecidableEq

namespace Word

/-- 64 bits hold the number. -/
def Fits (n : ℤ) : Prop := -9223372036854775808 ≤ n ∧ n ≤ 9223372036854775807

instance (n : ℤ) : Decidable (Fits n) := inferInstanceAs (Decidable (_ ∧ _))

/-- A result, if 64 bits hold it. -/
def hold (n : ℤ) : Except Trap ℤ := if Fits n then .ok n else .error .overflow

/-- The sum of two words. -/
def add (a b : ℤ) : Except Trap ℤ := hold (a + b)

/-- The difference of two words. -/
def sub (a b : ℤ) : Except Trap ℤ := hold (a - b)

/-- The product of two words. -/
def mul (a b : ℤ) : Except Trap ℤ := hold (a * b)

/-- The quotient of two words, rounded down where the divisor is positive. -/
def div (a b : ℤ) : Except Trap ℤ := if b = 0 then .error .divisionByZero else hold (a / b)

/-- The quotient of two words, rounded towards zero. -/
def quot (a b : ℤ) : Except Trap ℤ := if b = 0 then .error .divisionByZero else hold (a.tdiv b)

theorem hold_eq {n : ℤ} (h : Fits n) : hold n = .ok n := if_pos h

theorem hold_toOption {n m : ℤ} : (hold n).toOption = some m ↔ Fits n ∧ n = m := by
  rw [hold]
  split_ifs with h
  · simp [h, Except.toOption]
  · simp [h, Except.toOption]

theorem div_eq {a b : ℤ} (ha : Fits a) (hb : 0 < b) : div a b = .ok (a / b) := by
  rw [div, if_neg hb.ne']
  refine hold_eq ⟨Int.le_ediv_of_mul_le hb ?_, Int.ediv_le_of_le_mul hb ?_⟩
  · nlinarith [ha.1]
  · nlinarith [ha.2]

variable {α : Type} [Quantity α]

/-- The start and the end of a slot, if words hold them and the offset of the slot. -/
def slotTimes? (origin source slot : ℤ) : Option (ℤ × ℤ) := do
  let offset ← (mul slot source).toOption
  let start ← (add offset origin).toOption
  let stop ← (add start source).toOption
  return (start, stop)

/-- The buckets that a slot meets, computed with words. -/
def shares (source target start stop : ℤ) (rain : α) : Except Trap (List (ℤ × α)) := do
  let first ← div start target
  let last ← div (← sub stop 1) target
  if first = last then return [(← mul first target, rain)]
  let boundary ← mul last target
  let part := Quantity.ofInt (← sub boundary start) / Quantity.ofInt source
  return [(← mul first target, rain * part), (boundary, rain * (1 - part))]

/-- Spreads the rain of one slot, computed with words. -/
def spreadSlot (c : RainCounts α) (unitValue : α) (target : UInt32) (buckets : Buckets α)
    (slot : UInt32 × UInt32) : ExceptT ResampleError (Except Trap) (Buckets α) :=
  match slotTimes? c.start.seconds c.interval.toNat slot.1.toNat with
  | none => throw .timestampOutOfRange
  | some (start, stop) => .mk do
    let rain := Quantity.ofNat slot.2.toNat * unitValue
    return (← shares c.interval.toNat target.toNat start stop rain).foldlM addRain buckets

/-- The rain of a report in buckets, computed with words. -/
def resample (c : RainCounts α) (unitValue : α) (target : UInt32) :
    ExceptT (Failure ResampleError) (Except Trap) (Buckets α) := do
  ExceptT.mk (pure ((ensureSupported c.interval target).mapError .refused))
  let slots ← ExceptT.mk (pure (c.slotCount.mapError .overflow))
  let wet := c.units.entries.filter fun s => s.1 < slots ∧ s.2 ≠ 0
  (wet.foldlM (spreadSlot c unitValue target) SortedMap.empty).adapt .refused

theorem slotTimes?_eq_some {origin source slot start stop : ℤ}
    (h : slotTimes? origin source slot = some (start, stop)) :
    start = slot * source + origin ∧ stop = start + source ∧ Fits start ∧ Fits stop := by
  simp only [slotTimes?, mul, add, Option.bind_eq_bind, Option.bind_eq_some_iff, hold_toOption,
    Option.pure_def, Option.some.injEq, Prod.mk.injEq] at h
  obtain ⟨_, ⟨-, rfl⟩, _, ⟨hstart, rfl⟩, _, ⟨hstop, rfl⟩, rfl, rfl⟩ := h
  exact ⟨rfl, rfl, hstart, hstop⟩

/-- A slot whose times words do not hold starts far beyond the calendar. -/
theorem lt_of_slotTimes?_eq_none {t : Instant} {source slot : UInt32}
    (h : slotTimes? t.seconds source.toNat slot.toNat = none) :
    9000000000000000000 < t.seconds + slot.toNat * source.toNat := by
  have hsource := source.toNat_lt
  have hpos : (0 : ℤ) ≤ slot.toNat * source.toNat := by positivity
  have hfirst : -10000000000000 ≤ firstSecond := by decide
  have hlast : lastSecond ≤ 10000000000000 := by decide
  have hlow := t.first_le
  have hhigh := t.le_last
  by_contra hle
  have hoffset : Fits (slot.toNat * source.toNat) := ⟨by omega, by omega⟩
  have hstart : Fits (slot.toNat * source.toNat + t.seconds) := ⟨by omega, by omega⟩
  have hstop : Fits (slot.toNat * source.toNat + t.seconds + source.toNat) :=
    ⟨by omega, by omega⟩
  simp [slotTimes?, mul, add, hold_eq hoffset, hold_eq hstart, hold_eq hstop, Except.toOption] at h

/-- What follows the checks on the times of a slot stays in the range. -/
theorem shares_eq {source target start stop : ℤ} (hs : 0 < source) (hle : source ≤ target)
    (htarget : target < 4294967296) (hstop : stop = start + source)
    (hlow : -10000000000000 ≤ start) (hfits : Fits start) (hfits' : Fits stop) (rain : α) :
    shares source target start stop rain =
      .ok (WeatherStation.shares source target start rain) := by
  have ht : 0 < target := by omega
  obtain ⟨hmin, hmax⟩ := hfits
  obtain ⟨hmin', hmax'⟩ := hfits'
  have hfirst := Int.ediv_mul_le start ht.ne'
  have hfirst' := Int.lt_ediv_add_one_mul_self start ht
  have hlast := Int.ediv_mul_le (stop - 1) ht.ne'
  have hlast' := Int.lt_ediv_add_one_mul_self (stop - 1) ht
  rw [add_one_mul] at hfirst' hlast'
  have hbefore : Fits (stop - 1) := ⟨by omega, by omega⟩
  have hbucket : Fits (start / target * target) := ⟨by omega, by omega⟩
  have hboundary : Fits ((stop - 1) / target * target) := ⟨by omega, by omega⟩
  have hpart : Fits ((stop - 1) / target * target - start) := ⟨by omega, by omega⟩
  simp only [shares, WeatherStation.shares, div_eq ⟨hmin, hmax⟩ ht, sub, hold_eq hbefore,
    div_eq hbefore ht, mul, hold_eq hbucket, hold_eq hboundary, hold_eq hpart, bind, Except.bind,
    pure, Except.pure, ← hstop, mul_left_inj' ht.ne']
  split_ifs <;> rfl

theorem spreadSlot_eq {c : RainCounts α} {target : UInt32}
    (hs : ensureSupported c.interval target = .ok ()) (unitValue : α) (buckets : Buckets α)
    (slot : UInt32 × UInt32) :
    (spreadSlot c unitValue target buckets slot).run =
      .ok (WeatherStation.spreadSlot c unitValue target buckets slot) := by
  obtain ⟨hsource, hle⟩ := ensureSupported_ok hs
  have htarget := target.toNat_lt
  rw [spreadSlot, WeatherStation.spreadSlot]
  cases htimes : slotTimes? c.start.seconds c.interval.toNat slot.1.toNat with
  | none =>
    have hfar := lt_of_slotTimes?_eq_none htimes
    have hbucket := Int.lt_ediv_add_one_mul_self
      (c.start.seconds + slot.1.toNat * c.interval.toNat) (by omega : (0 : ℤ) < target.toNat)
    rw [add_one_mul] at hbucket
    have hnone : Instant.ofSeconds? ((c.start.seconds + slot.1.toNat * c.interval.toNat) /
        target.toNat * target.toNat) = none := by
      rw [Instant.ofSeconds?, Instant.ofParts?, dif_neg]
      have hlast : lastSecond ≤ 10000000000000 := by decide
      omega
    have hrefused (rain : α) (rest : List (ℤ × α)) :
        (((c.start.seconds + slot.1.toNat * c.interval.toNat) / target.toNat * target.toNat,
          rain) :: rest).foldlM addRain buckets = .error .timestampOutOfRange := by
      rw [List.foldlM_cons, addRain, hnone]
      rfl
    simp only [WeatherStation.shares]
    split_ifs <;> rw [hrefused] <;> rfl
  | some times =>
    obtain ⟨start, stop⟩ := times
    obtain ⟨hstart, hstop, hfits, hfits'⟩ := slotTimes?_eq_some htimes
    have hpos : (0 : ℤ) ≤ slot.1.toNat * c.interval.toNat := by positivity
    have hfirst : -10000000000000 ≤ firstSecond := by decide
    have hlow := c.start.first_le
    have hshares (rain : α) : shares c.interval.toNat target.toNat start stop rain =
        .ok (WeatherStation.shares c.interval.toNat target.toNat start rain) :=
      shares_eq (by omega) (by omega) (by omega) hstop (by omega) hfits hfits' rain
    simp only [ExceptT.run_mk, hshares]
    rw [hstart, add_comm]
    rfl

/-- Resampling with words comes to the same result. -/
theorem resample_eq (c : RainCounts α) (unitValue : α) (target : UInt32) :
    (resample c unitValue target).run = .ok (WeatherStation.resample c unitValue target) := by
  rw [resample, WeatherStation.resample]
  cases hs : ensureSupported c.interval target with
  | error e => rfl
  | ok _ =>
    cases c.slotCount with
    | error o => rfl
    | ok slots =>
      have hfold (wet : List (UInt32 × UInt32)) (buckets : Buckets α) :
          (wet.foldlM (spreadSlot c unitValue target) buckets).run =
            .ok (wet.foldlM (WeatherStation.spreadSlot c unitValue target) buckets) := by
        induction wet generalizing buckets with
        | nil => rfl
        | cons slot wet ih =>
          rw [List.foldlM_cons, List.foldlM_cons, ExceptT.run_bind, spreadSlot_eq hs]
          cases WeatherStation.spreadSlot c unitValue target buckets slot with
          | error e => rfl
          | ok buckets => exact ih buckets
      have hadapt (x : ExceptT ResampleError (Except Trap) (Buckets α)) :
          (x.adapt Failure.refused).run = x.run >>= fun y => pure (y.mapError .refused) := rfl
      refine (hadapt _).trans ?_
      rw [hfold]
      rfl

/-! ## Windows -/

/-- The slot of a window that an instant falls in, computed with words. -/
def slot (w : RainWindow α) (t : Instant) : Except Trap ℤ := do
  quot (← hold ((t.since w.start).tdiv 1000000000)) w.interval.toNat

/-- Folds the rain of a bucket into a window, computed with words. -/
def mergeBucket (mode : MergeMode) (w : RainWindow α) (bucket : Instant × α) :
    Except Trap (RainWindow α) := do
  if bucket.1 < w.start then return w
  let slot ← slot w bucket.1
  if slot < 0 then return w
  return { w with values := w.values.modify slot.toNat (mode.join · bucket.2) }

/-- Folds the rain of buckets into a window, computed with words. -/
def merge (mode : MergeMode) (w : RainWindow α) (buckets : Buckets α) :
    Except Trap (RainWindow α) :=
  if w.interval = 0 then .ok w else buckets.entries.foldlM (mergeBucket mode) w

/-- The seconds between two instants are far from the ends of the range. -/
theorem since_bounds (t start : Instant) :
    -100000000000000 ≤ (t.since start).tdiv 1000000000 ∧
      (t.since start).tdiv 1000000000 ≤ 100000000000000 := by
  have hfirst := t.first_le
  have hlast := t.le_last
  have hfirst' := start.first_le
  have hlast' := start.le_last
  have hnanos := t.nanos_lt
  have hnanos' := start.nanos_lt
  have hday := t.secondOfDay_lt
  have hday' := start.secondOfDay_lt
  have hcalendar : -10000000000000 ≤ firstSecond ∧ lastSecond ≤ 10000000000000 := by decide
  have hbounds : -100000000000000 * 1000000000 ≤ t.since start ∧
      t.since start ≤ 100000000000000 * 1000000000 := by
    simp only [Instant.since]
    split_ifs <;> omega
  rcases le_total 0 (t.since start) with hs | hs
  · rw [Int.tdiv_eq_ediv_of_nonneg hs]
    exact ⟨by omega, by omega⟩
  · obtain ⟨n, hn⟩ : ∃ n, t.since start = -n := ⟨_, (neg_neg _).symm⟩
    rw [hn, Int.neg_tdiv, Int.tdiv_eq_ediv_of_nonneg (by omega)]
    exact ⟨by omega, by omega⟩

omit [Quantity α] in
theorem slot_eq {w : RainWindow α} (hw : w.interval ≠ 0) (t : Instant) :
    slot w t = .ok (w.slot t) := by
  have hpos : (w.interval.toNat : ℤ) ≠ 0 := by
    rw [Ne, Nat.cast_eq_zero, ← UInt32.toNat_zero, UInt32.toNat_inj]
    exact hw
  obtain ⟨hlow, hhigh⟩ := since_bounds t w.start
  have hquot := Int.natAbs_tdiv_le_natAbs ((t.since w.start).tdiv 1000000000) w.interval.toNat
  have hfits : Fits (w.slot t) := by
    unfold RainWindow.slot
    exact ⟨by omega, by omega⟩
  have hseconds : Fits ((t.since w.start).tdiv 1000000000) := ⟨by omega, by omega⟩
  simp only [slot, hold_eq hseconds, quot, hpos, if_false, bind, Except.bind]
  exact hold_eq hfits

theorem mergeBucket_eq {w : RainWindow α} (hw : w.interval ≠ 0) (mode : MergeMode)
    (bucket : Instant × α) : mergeBucket mode w bucket = .ok (w.mergeBucket mode bucket) := by
  simp only [mergeBucket, RainWindow.mergeBucket, slot_eq hw]
  by_cases hbefore : bucket.1 < w.start
  · rw [if_pos hbefore, if_pos (.inl hbefore)]
    rfl
  rw [if_neg hbefore]
  by_cases hslot : w.slot bucket.1 < 0
  · rw [if_pos (.inr hslot)]
    simp only [bind, Except.bind, if_pos hslot]
    rfl
  · rw [if_neg (not_or.2 ⟨hbefore, hslot⟩)]
    simp only [bind, Except.bind, if_neg hslot]
    rfl

/-- Merging with words comes to the same window. -/
theorem merge_eq (mode : MergeMode) (w : RainWindow α) (buckets : Buckets α) :
    merge mode w buckets = .ok (w.merge mode buckets) := by
  rw [merge, RainWindow.merge]
  split_ifs with hw
  · rfl
  induction buckets.entries generalizing w with
  | nil => rfl
  | cons b entries ih =>
    rw [List.foldlM_cons, List.foldl_cons, mergeBucket_eq hw]
    exact ih (w.mergeBucket mode b) (by rwa [(w.mergeBucket_frame mode b).2.1])

end Word

end WeatherStation
