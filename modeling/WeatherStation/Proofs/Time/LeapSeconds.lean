import WeatherStation.Proofs.Time.Truncation
import WeatherStation.Proofs.View.Keys

/-!
# Windows and leap seconds

A leap second belongs to the minute that it ends, but it is truncated as if it were the second after
it. So an instant within a leap second that ends an hour or a day is not moved back at all, but only
to the start of the leap second. All other instants are truncated to the start of their hour or day.

Results:
* `Instant.truncate?_cases`: the truncated instant, for all instants.
* `Instant.truncate?_eq_none_iff`: which instants are not truncated.
* `Granularity.start_cases`: the start of a window, which lies in the window in any case.
* `WindowView.exists_contains`: a window can tell which instants it contains.
* `WindowView.contains_eq`: a window that begins with an hour or a day contains the instants of the
  hour or day.
* `WindowView.not_contains_eq`: a window that begins with a leap second does not.
-/

namespace WeatherStation

namespace Instant

/-- The parts of an instant within a leap second that is moved back. -/
theorem shiftedParts_neg_of_isLeap {t : Instant} (hl : t.isLeap = true) {back : ℤ}
    (hback : 0 ≤ back) : t.shiftedParts (-back) =
      if back < 1000000000 then (t.seconds, t.nanos - back)
      else (t.seconds + 1 - back / 1000000000 +
          (t.nanos - 1000000000 - back % 1000000000) / 1000000000,
        (t.nanos - 1000000000 - back % 1000000000) % 1000000000) := by
  have hnanos : 1000000000 ≤ t.nanos := by simpa [isLeap] using hl
  simp only [shiftedParts, hl, if_true, Int.neg_tdiv, Int.neg_tmod,
    Int.tdiv_eq_ediv_of_nonneg hback, Int.tmod_eq_emod_of_nonneg hback, ← sub_eq_add_neg]
  have hmod := Int.emod_nonneg back (by norm_num : (1000000000 : ℤ) ≠ 0)
  rw [if_neg (by omega)]
  by_cases hlt : back < 1000000000
  · rw [if_neg (by omega), if_pos hlt, Int.emod_eq_of_lt hback hlt]
  · rw [if_pos (by omega), if_neg hlt]

/-- An instant within a leap second, moved back: by less than a second it stays within the leap
    second, or else it moves as if it were in the second after it. -/
theorem shift_neg_of_isLeap {t s : Instant} (hl : t.isLeap = true) {back : ℤ} (hback : 0 ≤ back)
    (h : t.shift (-back) = .ok s) :
    (back < 1000000000 ∧ s.seconds = t.seconds ∧ (s.nanos : ℤ) = t.nanos - back) ∨
      (1000000000 ≤ back ∧ s.nanos < 1000000000 ∧
        s.seconds * 1000000000 + s.nanos = t.seconds * 1000000000 + t.nanos - back) := by
  have hnanos : 1000000000 ≤ t.nanos := by simpa [isLeap] using hl
  simp only [shift, shiftedParts_neg_of_isLeap hl hback] at h
  split at h
  · next s' hs =>
    cases h
    obtain ⟨hsec, hnan⟩ := ofParts?_spec hs
    split_ifs at hsec hnan with hlt
    · exact .inl ⟨hlt, hsec, by simp only at hnan; omega⟩
    · refine .inr ⟨by omega, ?_, ?_⟩ <;> simp only at hsec hnan <;> omega
  · cases h

theorem exists_ofParts? {seconds : ℤ} {nanos : ℕ} (hfirst : firstSecond ≤ seconds)
    (hlast : seconds ≤ lastSecond) (hnanos : nanos < 2000000000)
    (hleap : 1000000000 ≤ nanos → seconds % 60 = 59) : ∃ s, ofParts? seconds nanos = some s := by
  rw [ofParts?, dif_pos ⟨hfirst, hlast, hnanos, hleap⟩]
  exact ⟨_, rfl⟩

/-- An instant that is moved back stays in the calendar, if the calendar has one more second. -/
theorem exists_shift_neg {t : Instant} {back : ℤ} (hback : 0 ≤ back)
    (hroom : firstSecond < t.seconds - back / 1000000000) : ∃ s, t.shift (-back) = .ok s := by
  have hlast := t.le_last
  have hlt := t.nanos_lt
  have hparts : ∃ s, ofParts? (t.shiftedParts (-back)).1 (t.shiftedParts (-back)).2.toNat =
      some s := by
    cases hl : t.isLeap with
    | true =>
      have hnanos : 1000000000 ≤ t.nanos := by simpa [isLeap] using hl
      rw [shiftedParts_neg_of_isLeap hl hback]
      split_ifs
      · exact exists_ofParts? t.first_le hlast (by simp only; omega)
          fun _ => t.leap_ends_minute hnanos
      · exact exists_ofParts? (by simp only; omega) (by simp only; omega) (by simp only; omega)
          fun hn => by simp only at hn; omega
    | false =>
      have hnanos : t.nanos < 1000000000 := by simpa [isLeap] using hl
      simp only [shiftedParts, hl, Bool.false_eq_true, if_false, Int.neg_tdiv, Int.neg_tmod,
        Int.tdiv_eq_ediv_of_nonneg hback, Int.tmod_eq_emod_of_nonneg hback]
      exact exists_ofParts? (by omega) (by omega) (by omega) fun hn => by omega
  obtain ⟨s, hs⟩ := hparts
  exact ⟨s, by simp only [shift, hs]⟩

/-- An instant that is moved forward by seconds stays in the calendar, if the calendar has one more
    second. -/
theorem exists_shiftSeconds {t : Instant} {n : ℤ} (hn : 0 < n)
    (hroom : t.seconds + n < lastSecond) : ∃ s, t.shiftSeconds n = .ok s := by
  have hfirst := t.first_le
  have hlt := t.nanos_lt
  have hparts : ∃ s, ofParts? (t.shiftedParts (n * 1000000000)).1
      (t.shiftedParts (n * 1000000000)).2.toNat = some s := by
    simp only [shiftedParts, Int.mul_tdiv_cancel n (by norm_num : (1000000000 : ℤ) ≠ 0),
      Int.mul_tmod_left, gt_iff_lt, hn, true_or, if_true, add_zero]
    cases hl : t.isLeap with
    | true =>
      have hnanos : 1000000000 ≤ t.nanos := by simpa [isLeap] using hl
      simp only [if_true]
      exact exists_ofParts? (by omega) (by omega) (by omega) fun hn => by omega
    | false =>
      have hnanos : t.nanos < 1000000000 := by simpa [isLeap] using hl
      simp only [Bool.false_eq_true, if_false]
      exact exists_ofParts? (by omega) (by omega) (by omega) fun hn => by omega
  obtain ⟨s, hs⟩ := hparts
  exact ⟨s, by simp only [shiftSeconds, shift, hs]⟩

/-- Truncation gives up where 64 bits do not hold the nanoseconds, and for a width of zero. What it
    takes away never leads out of the calendar. -/
theorem truncate?_eq_none_iff {t : Instant} {width : UInt32} :
    t.truncate? width.toNat = none ↔ width = 0 ∨ t.nanoseconds? = none := by
  have hzero : width.toNat = 0 ↔ width = 0 := by
    rw [← UInt32.toNat_zero, UInt32.toNat_inj]
  have hlt := width.toNat_lt
  by_cases hw : width.toNat = 0
  · simp [truncate?, hzero.1 hw, guard]
  cases htotal : t.nanoseconds? with
  | none => simp [truncate?, htotal]
  | some total =>
    have hback := Int.emod_nonneg total (by omega : (width.toNat : ℤ) * 1000000000 ≠ 0)
    have hback' := Int.emod_lt_of_pos total (by omega : (0 : ℤ) < width.toNat * 1000000000)
    have hroom : firstSecond < t.seconds - total % (width.toNat * 1000000000) / 1000000000 := by
      have hnanos := t.nanos_lt
      simp only [nanoseconds?, Option.ite_none_right_eq_some, Option.some.injEq] at htotal
      unfold firstSecond firstDay
      omega
    obtain ⟨s, hs⟩ := exists_shift_neg hback hroom
    simp [truncate?, htotal, hs, guard, mt hzero.2 hw, hw, Except.toOption]

/-- The instant lies within a leap second that comes after the last second of a stretch of the given
    width. -/
def Surplus (width : ℕ) (t : Instant) : Prop :=
  t.isLeap = true ∧ (t.seconds + 1) % width = 0

instance (width : ℕ) (t : Instant) : Decidable (t.Surplus width) :=
  inferInstanceAs (Decidable (_ ∧ _))

/-- An instant in such a leap second is truncated to the start of the leap second, and every other
    one to the latest multiple of the width. -/
theorem truncate?_cases {t s : Instant} {width : ℕ} (h : t.truncate? width = some s) :
    if t.Surplus width then s.seconds = t.seconds ∧ s.nanos = 1000000000
    else s.seconds = t.seconds / width * width ∧ s.nanos = 0 := by
  cases hl : t.isLeap with
  | false =>
    rw [if_neg fun hs => by rw [hs.1] at hl; cases hl]
    exact truncate?_spec hl h
  | true =>
    obtain ⟨hw, -, -, hshift⟩ := truncate?_eq_some h
    have hnanos : 1000000000 ≤ t.nanos := by simpa [isLeap] using hl
    have hlt := t.nanos_lt
    -- A leap second is truncated as if it were the second after it.
    have htotal : t.seconds * 1000000000 + (t.nanos : ℤ) =
        (t.seconds + 1) * 1000000000 + (t.nanos - 1000000000) := by ring
    rw [htotal, emod_width (by omega) (by omega) hw] at hshift
    have hmod := Int.emod_nonneg (t.seconds + 1) (by exact_mod_cast hw : (width : ℤ) ≠ 0)
    have hsplit := Int.emod_add_ediv_mul (t.seconds + 1) width
    split_ifs with hs
    · rw [hs.2] at hshift
      rcases shift_neg_of_isLeap hl (by omega) hshift with ⟨-, hsec, hnan⟩ | ⟨hback, -, -⟩ <;> omega
    · have hpos : 0 < (t.seconds + 1) % (width : ℤ) :=
        lt_of_le_of_ne hmod fun he => hs ⟨hl, he.symm⟩
      have hlt' := Int.emod_lt_of_pos (t.seconds + 1) (by omega : (0 : ℤ) < width)
      have hquot : t.seconds / (width : ℤ) = (t.seconds + 1) / width := by
        refine ((Int.ediv_emod_unique (by omega : (0 : ℤ) < width)
          (r := (t.seconds + 1) % width - 1)).2 ⟨?_, by omega, by omega⟩).1
        rw [mul_comm]
        omega
      rw [hquot]
      rcases shift_neg_of_isLeap hl (by omega) hshift with ⟨hback, -, -⟩ | ⟨-, hnan, hsum⟩ <;> omega

end Instant

namespace Granularity

variable {g : Granularity} {t s : Instant}

/-- The instant is the first one of an hour or a day. -/
def Begins (g : Granularity) (s : Instant) : Prop := s.seconds % g.seconds = 0 ∧ s.nanos = 0

instance (g : Granularity) (s : Instant) : Decidable (g.Begins s) :=
  inferInstanceAs (Decidable (_ ∧ _))

theorem start_eq_ok (h : g.start t = .ok s) : t.truncate? g.seconds = some s := by
  rw [start] at h
  split at h
  · next s' hs =>
    cases h
    exact hs
  · cases h

/-- A window starts with its hour or day, unless its instant lies in a leap second at the end of
    them; it then starts with the leap second. -/
theorem start_cases (h : g.start t = .ok s) :
    if t.Surplus g.seconds then s.seconds = t.seconds ∧ s.nanos = 1000000000
    else s.seconds = t.seconds / g.seconds * g.seconds ∧ s.nanos = 0 :=
  Instant.truncate?_cases (start_eq_ok h)

theorem surplus_of_isLeap_start (h : g.start t = .ok s) (hl : s.isLeap = true) :
    t.Surplus g.seconds ∧ s.seconds = t.seconds := by
  have hcases := start_cases h
  split_ifs at hcases with ht
  · exact ⟨ht, hcases.1⟩
  · rw [Instant.isLeap, hcases.2] at hl
    cases hl

theorem begins_of_start (h : g.start t = .ok s) (hl : s.isLeap = false) : g.Begins s := by
  have hcases := start_cases h
  split_ifs at hcases with ht
  · rw [Instant.isLeap, hcases.2] at hl
    cases hl
  · exact ⟨by rw [hcases.1, Int.mul_emod_left], hcases.2⟩

/-- The starts of windows are those of 64-bit nanoseconds, so a window ends within the calendar. -/
theorem start_bounds (h : g.start t = .ok s) :
    -9223458437 ≤ s.seconds ∧ s.seconds ≤ 9223372036 := by
  obtain ⟨-, hfirst, hlast, -⟩ := Instant.truncate?_eq_some (start_eq_ok h)
  have hnanos := t.nanos_lt
  have hcases := start_cases h
  have hwidth : (g.seconds : ℤ) ≤ 86400 := by cases g <;> decide
  have hmod := Int.emod_add_ediv_mul t.seconds g.seconds
  have hpos : (0 : ℤ) < g.seconds := by exact_mod_cast g.seconds_pos
  have hlow := Int.emod_nonneg t.seconds hpos.ne'
  have hhigh := Int.emod_lt_of_pos t.seconds hpos
  split_ifs at hcases <;> omega

end Granularity

namespace WindowView

variable {g : Granularity} {α : Type} {w : WindowView g α}

/-- Which instants a window contains can be told, wherever it starts. -/
theorem exists_contains (hrange : w.start.seconds ≤ 9223372036) (t : Instant) :
    ∃ inside, w.contains t = .ok inside := by
  have hwidth : 0 < (g.seconds : ℤ) ∧ (g.seconds : ℤ) ≤ 86400 := by cases g <;> decide
  have hroom : w.start.seconds + g.seconds < lastSecond := by
    unfold lastSecond lastDay
    omega
  obtain ⟨stop, hstop⟩ := w.start.exists_shiftSeconds hwidth.1 hroom
  rw [contains]
  split_ifs
  · exact ⟨false, rfl⟩
  · exact ⟨decide (t < stop), by rw [hstop]; rfl⟩

/-- A window that begins with an hour or a day contains the instants of that hour or day. -/
theorem contains_eq (hb : g.Begins w.start)
    (hrange : -9223458437 ≤ w.start.seconds ∧ w.start.seconds ≤ 9223372036) (t : Instant) :
    w.contains t = .ok (decide (t.seconds / g.seconds = w.start.seconds / g.seconds)) := by
  have hmultiple : w.start.seconds = w.start.seconds / g.seconds * g.seconds := by
    have hmod := Int.emod_add_ediv_mul w.start.seconds g.seconds
    rw [hb.1] at hmod
    omega
  obtain ⟨inside, hinside⟩ := exists_contains hrange.2 t
  have hiff := (contains_spec hb.2 hmultiple hinside).trans decide_eq_true_iff.symm
  rw [hinside, Bool.eq_iff_iff.2 hiff]

/-- A window that begins with a leap second does not contain the second before it. -/
theorem not_contains_eq (hl : w.start.isLeap = true) :
    ∃ t : Instant, t.seconds = w.start.seconds ∧ w.contains t = .ok false := by
  have hnanos : 1000000000 ≤ w.start.nanos := by simpa [Instant.isLeap] using hl
  refine ⟨⟨w.start.seconds, 0, w.start.first_le, w.start.le_last, by norm_num, by norm_num⟩, rfl, ?_⟩
  rw [contains, if_pos]
  change Instant.rank _ < Instant.rank _
  simp only [Instant.rank]
  omega

end WindowView

end WeatherStation
