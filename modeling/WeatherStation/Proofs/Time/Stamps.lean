import Mathlib.Tactic
import WeatherStation.Time.Format

/-!
# Stamps name their dates

The numerals, dates, weeks and hours that keys are made of can be read back: equal stamps stand for
equal values.

Results:
* `Text.natText_inj`, `Text.padded_inj`, `yearText_inj`: numerals.
* `monthAndDay_spec`, `Date.civil_bounds`: the month and the day of the month of a date.
* `Date.civil_inj`: a date is determined by its year, month and day.
* `Date.stamp_inj`, `Date.monthStamp_inj`, `Instant.hourStamp_inj`: stamps of days, months and
  hours.
* `IsoWeek.eq_of_weekday`: an ISO week and a weekday determine the date.
-/

namespace WeatherStation

/-- A text is cut in only one way at the last place of a separator. -/
theorem append_cons_inj {α : Type} {c : α} {a b a' b' : List α} (hb : c ∉ b) (hb' : c ∉ b')
    (h : a ++ c :: b = a' ++ c :: b') : a = a' ∧ b = b' := by
  rcases List.append_eq_append_iff.1 h with ⟨l, rfl, hl⟩ | ⟨l, rfl, hl⟩
  · cases l with
    | nil => simpa using hl
    | cons x l =>
      obtain ⟨-, rfl⟩ := List.cons_eq_cons.1 hl
      simp at hb
  · cases l with
    | nil => simpa using hl.symm
    | cons x l =>
      obtain ⟨-, rfl⟩ := List.cons_eq_cons.1 hl
      simp at hb'

/-! ## Numerals -/

namespace Text

theorem toDigits_inj {n m : ℕ} (h : Nat.toDigits 10 n = Nat.toDigits 10 m) : n = m := by
  rw [← Nat.ofDigitChars_ten_toDigits (n := n), h, Nat.ofDigitChars_ten_toDigits]

@[simp] theorem toList_natText (n : ℕ) : (natText n).toList = Nat.toDigits 10 n := by
  simp [natText]

theorem natText_inj {n m : ℕ} (h : natText n = natText m) : n = m :=
  toDigits_inj (by rw [← toList_natText, h, toList_natText])

theorem toList_padded (width n : ℕ) :
    (padded width n).toList =
      List.replicate (width - (Nat.toDigits 10 n).length) '0' ++ Nat.toDigits 10 n := by
  simp [padded]

/-- Leading zeros do not change the value of a numeral. -/
theorem ofDigitChars_padded (width n : ℕ) : Nat.ofDigitChars 10 (padded width n).toList 0 = n := by
  rw [toList_padded, Nat.ofDigitChars_append, Nat.ofDigitChars_replicate_zero]
  simp

theorem padded_inj {width n m : ℕ} (h : padded width n = padded width m) : n = m := by
  rw [← ofDigitChars_padded width n, h, ofDigitChars_padded]

theorem isDigit_of_mem_padded {width n : ℕ} {c : Char} (h : c ∈ (padded width n).toList) :
    c.isDigit = true := by
  rw [toList_padded, List.mem_append] at h
  rcases h with h | h
  · rw [List.eq_of_mem_replicate h]
    decide
  · exact Nat.isDigit_of_mem_toDigits (by decide) (by decide) h

/-- A number that is not too long has exactly as many digits as it is filled up to. -/
theorem length_padded {width n : ℕ} (hw : 0 < width) (h : n < 10 ^ width) :
    (padded width n).toList.length = width := by
  have hle := (Nat.length_toDigits_le_iff (by decide : 1 < 10) hw).2 h
  rw [toList_padded, List.length_append, List.length_replicate]
  omega

/-- A text that begins with a character other than a digit is no numeral. -/
theorem append_ne_padded {sign : String} (hs : ∃ c ∈ sign.toList, c.isDigit = false) (s : String)
    (width n : ℕ) : sign ++ s ≠ padded width n := by
  obtain ⟨c, hc, hd⟩ := hs
  intro e
  have hmem : c ∈ (padded width n).toList := by rw [← e]; simp [hc]
  rw [isDigit_of_mem_padded hmem] at hd
  cases hd

theorem natText_eq_padded (n : ℕ) : natText n = padded 0 n := by
  simp [natText, padded]

theorem intText_inj {n m : ℤ} (h : intText n = intText m) : n = m := by
  have minus (s : String) (k : ℕ) : "-" ++ s ≠ natText k := by
    rw [natText_eq_padded]
    exact append_ne_padded ⟨'-', by simp, by decide⟩ s 0 k
  unfold intText at h
  split_ifs at h with hn hm hm
  · have := natText_inj (String.append_right_inj "-" |>.1 h)
    omega
  · exact absurd h (minus _ _)
  · exact absurd h.symm (minus _ _)
  · have := natText_inj h
    omega

end Text

open Text

/-- The three forms of a written year. -/
theorem yearText_cases (y : ℤ) :
    (0 ≤ y ∧ yearText y = padded 4 y.natAbs) ∨ (y < 0 ∧ yearText y = "-" ++ padded 4 y.natAbs) ∨
      (0 ≤ y ∧ yearText y = "+" ++ padded 4 y.natAbs) := by
  unfold yearText
  split_ifs with h₁ h₂
  · exact .inl ⟨h₁.1, rfl⟩
  · exact .inr (.inl ⟨h₂, rfl⟩)
  · exact .inr (.inr ⟨by omega, rfl⟩)

theorem yearText_inj {y z : ℤ} (h : yearText y = yearText z) : y = z := by
  have minus (s : String) (k : ℕ) : "-" ++ s ≠ padded 4 k :=
    append_ne_padded ⟨'-', by simp, by decide⟩ s 4 k
  have plus (s : String) (k : ℕ) : "+" ++ s ≠ padded 4 k :=
    append_ne_padded ⟨'+', by simp, by decide⟩ s 4 k
  have minus_plus (s t : String) : "-" ++ s ≠ "+" ++ t := by
    intro e
    have := congrArg String.toList e
    simp at this
  rcases yearText_cases y with ⟨hy, ey⟩ | ⟨hy, ey⟩ | ⟨hy, ey⟩ <;>
    rcases yearText_cases z with ⟨hz, ez⟩ | ⟨hz, ez⟩ | ⟨hz, ez⟩ <;> rw [ey, ez] at h
  · have := padded_inj h
    omega
  · exact absurd h.symm (minus _ _)
  · exact absurd h.symm (plus _ _)
  · exact absurd h (minus _ _)
  · have := padded_inj (String.append_right_inj "-" |>.1 h)
    omega
  · exact absurd h (minus_plus _ _)
  · exact absurd h (plus _ _)
  · exact absurd h.symm (minus_plus _ _)
  · have := padded_inj (String.append_right_inj "+" |>.1 h)
    omega

/-! ## Dates -/

/-- A year has as many days as its months together. -/
theorem yearStart_succ (y : ℤ) :
    yearStart (y + 1) = yearStart y + ((monthLengths (isLeapYear y)).sum : ℕ) := by
  cases h : isLeapYear y <;>
    simp only [isLeapYear, Bool.and_eq_true, Bool.or_eq_true, beq_iff_eq, bne_iff_ne,
      Bool.and_eq_false_iff, Bool.or_eq_false_iff, beq_eq_false_iff_ne,
      bne_eq_false_iff_eq] at h <;>
    simp [monthLengths, yearStart] <;> omega

theorem monthAndDay_cons (month len len' : ℕ) (rest : List ℕ) (n : ℕ) :
    monthAndDay month (len :: len' :: rest) n =
      if n < len then (month, n + 1) else monthAndDay (month + 1) (len' :: rest) (n - len) := rfl

theorem le_monthAndDay (ls : List ℕ) (month n : ℕ) : month ≤ (monthAndDay month ls n).1 := by
  induction ls generalizing month n with
  | nil => simp [monthAndDay]
  | cons len rest ih =>
    cases rest with
    | nil => simp [monthAndDay]
    | cons len' rest =>
      rw [monthAndDay_cons]
      split_ifs
      · exact le_rfl
      · exact Nat.le_of_succ_le (ih (month + 1) (n - len))

/-- The month of a day, the length of that month and the days before it. -/
theorem monthAndDay_spec {ls : List ℕ} (month : ℕ) {n : ℕ} (hn : n < ls.sum) :
    ∃ k len, (monthAndDay month ls n).1 = month + k ∧ ls[k]? = some len ∧
      1 ≤ (monthAndDay month ls n).2 ∧ (monthAndDay month ls n).2 ≤ len ∧
        (ls.take k).sum + ((monthAndDay month ls n).2 - 1) = n := by
  induction ls generalizing month n with
  | nil => cases hn
  | cons len rest ih =>
    cases rest with
    | nil =>
      have hlen : n < len := hn
      exact ⟨0, len, rfl, rfl, Nat.le_add_left 1 n, hlen, by simp [monthAndDay]⟩
    | cons len' rest =>
      rw [monthAndDay_cons]
      split_ifs with hlt
      · exact ⟨0, len, rfl, rfl, Nat.le_add_left 1 n, hlt, by simp⟩
      · rw [List.sum_cons] at hn
        obtain ⟨k, l, hmonth, hl, hone, hle, hsum⟩ := ih (month + 1) (n := n - len) (by omega)
        refine ⟨k + 1, l, by rw [hmonth]; omega, hl, hone, hle, ?_⟩
        rw [List.take_succ_cons, List.sum_cons]
        omega

theorem monthAndDay_inj (ls : List ℕ) (month : ℕ) {n m : ℕ}
    (h : monthAndDay month ls n = monthAndDay month ls m) : n = m := by
  induction ls generalizing month n m with
  | nil => simpa [monthAndDay] using h
  | cons len rest ih =>
    cases rest with
    | nil => simpa [monthAndDay] using h
    | cons len' rest =>
      have later (k : ℕ) : month < (monthAndDay (month + 1) (len' :: rest) k).1 :=
        le_monthAndDay _ (month + 1) k
      rw [monthAndDay_cons, monthAndDay_cons] at h
      split_ifs at h with hn hm hm
      · simpa using h
      · have := later (m - len)
        rw [← h] at this
        simp at this
      · have := later (n - len)
        rw [h] at this
        simp at this
      · have := ih (month + 1) h
        omega

namespace Date

theorem ordinal_spec (d : Date) : (d.ordinal : ℤ) = d.day - yearStart (yearOf d.day) := by
  have := (yearOf_spec d.day).1
  unfold ordinal
  omega

theorem ordinal_lt (d : Date) :
    d.ordinal < (monthLengths (isLeapYear (yearOf d.day))).sum := by
  have h := (yearOf_spec d.day).2
  have hs := d.ordinal_spec
  rw [yearStart_succ] at h
  omega

theorem ext_day {d e : Date} (h : d.day = e.day) : d = e := by
  cases d; cases e
  simpa using h

/-- The months of a year and the days of a month. -/
theorem civil_bounds (d : Date) :
    (1 ≤ d.civil.month ∧ d.civil.month ≤ 12) ∧ 1 ≤ d.civil.day ∧ d.civil.day ≤ 31 := by
  obtain ⟨k, len, hmonth, hlen, hone, hle, -⟩ := monthAndDay_spec 1 d.ordinal_lt
  have hk : k < 12 := (List.getElem?_eq_some_iff.1 hlen).1
  have hlengths : ∀ len ∈ monthLengths (isLeapYear (yearOf d.day)), len ≤ 31 := by
    cases isLeapYear (yearOf d.day) <;> decide
  have hlongest := hlengths len (List.mem_of_getElem? hlen)
  simp only [civil]
  omega

/-- A date is determined by its year, month and day of the month. -/
theorem civil_inj {d e : Date} (h : d.civil = e.civil) : d = e := by
  simp only [civil, CivilDate.mk.injEq] at h
  obtain ⟨hy, hm, hd⟩ := h
  rw [← hy] at hm hd
  have ho : d.ordinal = e.ordinal := monthAndDay_inj _ 1 (Prod.ext hm hd)
  refine ext_day ?_
  have h₁ := d.ordinal_spec
  have h₂ := e.ordinal_spec
  rw [hy] at h₁
  omega

end Date

/-! ## Stamps -/

/-- The stamp of a month is its year and the last three characters. -/
theorem Date.monthStamp_inj {d e : Date} (h : d.monthStamp = e.monthStamp) :
    d.civil.year = e.civil.year ∧ d.civil.month = e.civil.month := by
  have hl := congrArg String.toList h
  simp only [Date.monthStamp, String.toList_append] at hl
  obtain ⟨hy, hm⟩ := List.append_inj' hl
    (by rw [length_padded (by decide) (by have := d.civil_bounds; omega),
      length_padded (by decide) (by have := e.civil_bounds; omega)])
  obtain ⟨hy, -⟩ := List.append_inj' hy rfl
  exact ⟨yearText_inj (String.toList_injective hy), padded_inj (String.toList_injective hm)⟩

theorem Date.stamp_inj {d e : Date} (h : d.stamp = e.stamp) : d = e := by
  have hl := congrArg String.toList h
  simp only [Date.stamp, String.toList_append] at hl
  obtain ⟨hm, hd⟩ := List.append_inj' hl
    (by rw [length_padded (by decide) (by have := d.civil_bounds; omega),
      length_padded (by decide) (by have := e.civil_bounds; omega)])
  obtain ⟨hm, -⟩ := List.append_inj' hm rfl
  obtain ⟨hy, hm⟩ := Date.monthStamp_inj (String.toList_injective hm)
  have hd := padded_inj (String.toList_injective hd)
  refine Date.civil_inj ?_
  cases hc : d.civil
  cases he : e.civil
  simp only [hc, he] at hy hm hd
  rw [hy, hm, hd]

theorem Instant.hourStamp_inj {t u : Instant} (h : t.hourStamp = u.hourStamp) :
    t.date = u.date ∧ t.hour = u.hour := by
  have hl := congrArg String.toList h
  simp only [Instant.hourStamp, String.toList_append] at hl
  obtain ⟨hd, hh⟩ := List.append_inj' hl
    (by rw [length_padded (by decide) (by have := t.hour_lt; omega),
      length_padded (by decide) (by have := u.hour_lt; omega)])
  obtain ⟨hd, -⟩ := List.append_inj' hd rfl
  exact ⟨Date.stamp_inj (String.toList_injective hd), padded_inj (String.toList_injective hh)⟩

theorem notMem_padded {c : Char} (hc : c.isDigit = false) (width n : ℕ) :
    c ∉ (padded width n).toList := by
  intro h
  rw [isDigit_of_mem_padded h] at hc
  cases hc

theorem notMem_intText {c : Char} (hc : c.isDigit = false) (hs : c ≠ '-') (n : ℤ) :
    c ∉ (intText n).toList := by
  unfold intText
  rw [natText_eq_padded]
  split_ifs <;> simp [notMem_padded hc, hs]

theorem notMem_yearText {c : Char} (hc : c.isDigit = false) (hm : c ≠ '-') (hp : c ≠ '+') (y : ℤ) :
    c ∉ (yearText y).toList := by
  rcases yearText_cases y with ⟨-, e⟩ | ⟨-, e⟩ | ⟨-, e⟩ <;> rw [e] <;>
    simp [notMem_padded hc, hm, hp]

theorem Date.notMem_monthStamp {c : Char} (hc : c.isDigit = false) (hm : c ≠ '-') (hp : c ≠ '+')
    (d : Date) : c ∉ d.monthStamp.toList := by
  simp [Date.monthStamp, notMem_yearText hc hm hp, notMem_padded hc, hm]

theorem Date.notMem_stamp {c : Char} (hc : c.isDigit = false) (hm : c ≠ '-') (hp : c ≠ '+')
    (d : Date) : c ∉ d.stamp.toList := by
  simp [Date.stamp, notMem_padded hc, Date.notMem_monthStamp hc hm hp, hm]

/-! ## ISO weeks -/

namespace IsoWeek

theorem stamp_inj {v w : IsoWeek} (h : v.stamp = w.stamp) : v = w := by
  have cut (x : IsoWeek) : x.stamp.toList =
      ((intText x.year.toInt).toList ++ ['-']) ++ 'W' :: (padded 2 x.week.toNat).toList := by
    simp [IsoWeek.stamp]
  have hl := congrArg String.toList h
  rw [cut, cut] at hl
  obtain ⟨hy, hw⟩ := append_cons_inj (notMem_padded (by decide) _ _)
    (notMem_padded (by decide) _ _) hl
  have hy := intText_inj (String.toList_injective (List.append_cancel_right hy))
  have hw := padded_inj (String.toList_injective hw)
  obtain ⟨year, week⟩ := v
  rw [IsoWeek.mk.injEq]
  exact ⟨Int32.toInt_inj.1 hy, UInt32.toNat_inj.1 hw⟩

theorem notMem_stamp {c : Char} (hc : c.isDigit = false) (hm : c ≠ '-') (hW : c ≠ 'W')
    (w : IsoWeek) : c ∉ w.stamp.toList := by
  simp [IsoWeek.stamp, notMem_intText hc hm, notMem_padded hc, hm, hW]

/-- The Thursday of the ISO week of a date. -/
def thursday (d : Date) : ℤ := d.day - d.weekday + 3

theorem yearOf_bounds {day : ℤ} (h₁ : firstDay - 3 ≤ day) (h₂ : day ≤ lastDay + 3) :
    -2 ^ 31 ≤ yearOf day ∧ yearOf day < 2 ^ 31 := by
  have h := yearOf_spec day
  simp only [yearStart, firstDay, lastDay] at *
  omega

theorem thursday_bounds (d : Date) : firstDay - 3 ≤ thursday d ∧ thursday d ≤ lastDay + 3 := by
  have := d.weekday_lt
  have h₁ := d.first_le
  have h₂ := d.le_last
  unfold thursday
  omega

theorem toInt_year_of (d : Date) : (IsoWeek.of d).year.toInt = yearOf (thursday d) := by
  have h := thursday_bounds d
  have hb := yearOf_bounds h.1 h.2
  exact Int32.toInt_ofInt_of_le hb.1 hb.2

theorem toNat_week_of (d : Date) :
    ((IsoWeek.of d).week.toNat : ℤ) = (thursday d - yearStart (yearOf (thursday d))) / 7 + 1 := by
  have h := yearOf_spec (thursday d)
  rw [yearStart_succ] at h
  have hs : (monthLengths (isLeapYear (yearOf (thursday d)))).sum ≤ 366 := by
    cases isLeapYear (yearOf (thursday d)) <;> decide
  have : (IsoWeek.of d).week =
      UInt32.ofNat (((thursday d - yearStart (yearOf (thursday d))) / 7).toNat + 1) := rfl
  rw [this, UInt32.toNat_ofNat_of_lt' (by simp only [UInt32.size]; omega)]
  omega

/-- A date is determined by its ISO week and its weekday. -/
theorem eq_of_weekday {d e : Date} (hw : IsoWeek.of d = IsoWeek.of e)
    (hd : d.weekday = e.weekday) : d = e := by
  have hy : yearOf (thursday d) = yearOf (thursday e) := by
    rw [← toInt_year_of, ← toInt_year_of, hw]
  have hn : (thursday d - yearStart (yearOf (thursday d))) / 7 =
      (thursday e - yearStart (yearOf (thursday e))) / 7 := by
    have h₁ := toNat_week_of d
    have h₂ := toNat_week_of e
    rw [hw] at h₁
    omega
  rw [hy] at hn
  -- Thursdays are seven days apart, so the number of the week leaves one of them.
  refine Date.ext_day ?_
  simp only [thursday, Date.weekday] at hn hd hy
  omega

end IsoWeek

end WeatherStation
