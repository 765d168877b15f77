import Mathlib.Tactic
import WeatherStation.View.Window

/-!
# Windows of time

Outside leap seconds an instant is truncated to a multiple of the width, and a window that starts
there contains exactly the instants of the same hour or day.

Results:
* `Instant.truncate?_spec`: the truncated instant.
* `Granularity.start_spec`: the start of the window of an instant.
* `WindowView.contains_spec`: which instants a window contains.
-/

namespace WeatherStation

namespace Instant

theorem ofParts?_spec {seconds : ℤ} {nanos : ℕ} {t : Instant}
    (h : ofParts? seconds nanos = some t) : t.seconds = seconds ∧ t.nanos = nanos := by
  rw [ofParts?] at h
  split_ifs at h
  cases h
  exact ⟨rfl, rfl⟩

/-- An instant outside a leap second, moved by whole nanoseconds. -/
theorem shift_spec {t s : Instant} (hl : t.isLeap = false) {offset : ℤ}
    (h : t.shift offset = .ok s) :
    s.seconds * 1000000000 + s.nanos = t.seconds * 1000000000 + t.nanos + offset ∧
      s.nanos < 1000000000 := by
  simp only [shift, shiftedParts, hl, Bool.false_eq_true, if_false] at h
  split at h
  · next s' hs =>
    cases h
    obtain ⟨hsec, hnanos⟩ := ofParts?_spec hs
    rw [hsec, hnanos]
    have hdiv := Int.tmod_add_mul_tdiv offset 1000000000
    omega
  · cases h

/-- What truncation takes away: the seconds since the last multiple of the width, and the
    nanoseconds. -/
theorem emod_width {seconds nanos : ℤ} (hn : 0 ≤ nanos) (hlt : nanos < 1000000000) {width : ℕ}
    (hw : width ≠ 0) : (seconds * 1000000000 + nanos) % ((width : ℤ) * 1000000000) =
      seconds % width * 1000000000 + nanos := by
  have hmod := Int.emod_nonneg seconds (by exact_mod_cast hw : (width : ℤ) ≠ 0)
  have hmod' := Int.emod_lt_of_pos seconds (by omega : (0 : ℤ) < width)
  have hsplit : seconds * 1000000000 + nanos = seconds % width * 1000000000 + nanos +
      (width : ℤ) * 1000000000 * (seconds / width) := by
    have h := Int.emod_add_mul_ediv seconds width
    linear_combination -1000000000 * h
  rw [hsplit, Int.add_mul_emod_self_left, Int.emod_eq_of_lt (by omega) (by omega)]

/-- What truncation does, if it can be done. -/
theorem truncate?_eq_some {t s : Instant} {width : ℕ} (h : t.truncate? width = some s) :
    width ≠ 0 ∧ -9223372036854775808 ≤ t.seconds * 1000000000 + t.nanos ∧
      t.seconds * 1000000000 + t.nanos ≤ 9223372036854775807 ∧
      t.shift (-((t.seconds * 1000000000 + t.nanos) % (width * 1000000000))) = .ok s := by
  simp only [truncate?, Option.bind_eq_bind, Option.bind_eq_some_iff, Option.guard_eq_some'] at h
  obtain ⟨-, hw, total, htotal, hs⟩ := h
  rw [nanoseconds?] at htotal
  simp only [Option.ite_none_right_eq_some, Option.some.injEq] at htotal
  obtain ⟨⟨hfirst, hlast⟩, rfl⟩ := htotal
  cases hshift : t.shift (-((t.seconds * 1000000000 + t.nanos) % (width * 1000000000))) with
  | error e =>
    rw [hshift] at hs
    cases hs
  | ok s' =>
    rw [hshift] at hs
    cases hs
    exact ⟨hw, hfirst, hlast, rfl⟩

/-- The truncated instant is the latest multiple of the width. -/
theorem truncate?_spec {t s : Instant} (hl : t.isLeap = false) {width : ℕ}
    (h : t.truncate? width = some s) :
    s.seconds = t.seconds / width * width ∧ s.nanos = 0 := by
  have hnanos : t.nanos < 1000000000 := by simpa [isLeap] using hl
  obtain ⟨hw, -, -, hshift⟩ := truncate?_eq_some h
  rw [emod_width (by omega) (by omega) hw] at hshift
  obtain ⟨hsum, hlt⟩ := shift_spec hl hshift
  have hmod := Int.emod_add_ediv_mul t.seconds width
  omega

/-- The start of a second can be truncated where 64 bits hold its nanoseconds. -/
theorem exists_truncate? {t : Instant} (hn : t.nanos = 0) (hfirst : -9223372036 ≤ t.seconds)
    (hlast : t.seconds ≤ 9223372036) {width : ℕ} (hw : width ≠ 0) (hday : width ≤ 86400) :
    ∃ s, t.truncate? width = some s := by
  have hmod := Int.emod_nonneg t.seconds (by exact_mod_cast hw : (width : ℤ) ≠ 0)
  have hmod' := Int.emod_lt_of_pos t.seconds (by omega : (0 : ℤ) < width)
  have hoffset : t.seconds * 1000000000 % ((width : ℤ) * 1000000000) =
      t.seconds % width * 1000000000 := by
    have h := @emod_width t.seconds 0 (le_refl 0) (by norm_num) width hw
    rwa [add_zero, add_zero] at h
  have hparts : t.shiftedParts (-(t.seconds % width * 1000000000)) =
      (t.seconds - t.seconds % width, 0) := by
    have hleap : t.isLeap = false := by simp [isLeap, hn]
    simp only [shiftedParts, hleap, Bool.false_eq_true, if_false, hn, Int.neg_tdiv, Int.neg_tmod,
      Int.mul_tdiv_cancel _ (by norm_num : (1000000000 : ℤ) ≠ 0), Int.mul_tmod_left]
    simp [sub_eq_add_neg]
  have hlow : firstSecond ≤ t.seconds - t.seconds % width := by
    unfold firstSecond firstDay
    omega
  have hhigh : t.seconds - t.seconds % width ≤ lastSecond := by
    unfold lastSecond lastDay
    omega
  simp only [truncate?, nanoseconds?, hn, Nat.cast_zero, add_zero]
  rw [if_pos (by omega)]
  simp [guard, hw, hoffset, shift, hparts, ofParts?, hlow, hhigh, Except.toOption]

theorem lt_iff {a b : Instant} (hb : b.nanos = 0) : a < b ↔ a.seconds < b.seconds := by
  have := a.nanos_lt
  change a.rank < b.rank ↔ _
  simp only [rank]
  omega

end Instant

namespace Granularity

theorem seconds_pos (g : Granularity) : 0 < g.seconds := by cases g <;> decide

/-- The start of the window of an instant outside leap seconds. -/
theorem start_spec {g : Granularity} {t s : Instant} (hl : t.isLeap = false)
    (h : g.start t = .ok s) : s.seconds = t.seconds / g.seconds * g.seconds ∧ s.nanos = 0 := by
  rw [start] at h
  split at h
  · next s' hs =>
    cases h
    exact Instant.truncate?_spec hl hs
  · cases h

/-- The start of a window lies in that window. -/
theorem seconds_start {g : Granularity} {t s : Instant} (hl : t.isLeap = false)
    (h : g.start t = .ok s) : s.seconds / g.seconds = t.seconds / g.seconds := by
  rw [(start_spec hl h).1]
  exact Int.mul_ediv_cancel _ (by have := g.seconds_pos; omega)

end Granularity

/-- A window that starts at a multiple of its width contains the instants of the same hour or
    day. -/
theorem WindowView.contains_spec {g : Granularity} {α : Type} {w : WindowView g α} {t : Instant}
    {inside : Bool} (hn : w.start.nanos = 0)
    (hs : w.start.seconds = w.start.seconds / g.seconds * g.seconds)
    (h : w.contains t = .ok inside) :
    inside = true ↔ t.seconds / g.seconds = w.start.seconds / g.seconds := by
  have hpos : (0 : ℤ) < g.seconds := by have := g.seconds_pos; omega
  have hlower : ¬ t < w.start ↔ w.start.seconds / g.seconds ≤ t.seconds / g.seconds := by
    rw [Instant.lt_iff hn, not_lt, Int.le_ediv_iff_mul_le hpos, ← hs]
  rw [contains] at h
  split at h
  · next hlt =>
    cases h
    have : ¬ w.start.seconds / g.seconds ≤ t.seconds / g.seconds := fun hle => hlower.2 hle hlt
    simp only [Bool.false_eq_true, false_iff]
    omega
  · next hlt =>
    have hle := hlower.1 hlt
    have hwl : w.start.isLeap = false := by simp [Instant.isLeap, hn]
    cases he : w.start.shiftSeconds g.seconds with
    | error o =>
      rw [he] at h
      cases h
    | ok stop =>
      rw [he] at h
      cases h
      obtain ⟨hsum, hlt'⟩ := Instant.shift_spec hwl he
      rw [hn] at hsum
      have hstop : stop.seconds = w.start.seconds + g.seconds ∧ stop.nanos = 0 := by omega
      have hupper : t < stop ↔ t.seconds / g.seconds < w.start.seconds / g.seconds + 1 := by
        rw [Instant.lt_iff hstop.2, hstop.1, Int.ediv_lt_iff_lt_mul hpos, add_mul, one_mul, ← hs]
      rw [decide_eq_true_iff, hupper]
      omega

end WeatherStation
