import WeatherStation.Proofs.Time.Stamps
import WeatherStation.Time.Grammar

/-!
# Reading what was written

The written forms of dates and instants are read back: the grammar of timestamps accepts the text of
every instant, leap seconds and years of more than four digits included, and gives the instant.

Results:
* `Text.Scan.Takes`, `Text.Scan.Takes.bind`: what a step of reading takes, and one step after the
  other.
* `Text.Scan.takes_digits`, `Time.takes_number`, `Time.takes_year`: numerals.
* `Date.ofCivil?_civil`: the date of a year, month and day.
* `Time.takes_date`, `Time.takes_fraction`, `Time.takes_timestamp`: the parts of a timestamp.
* `Instant.ofText?_text`: whole timestamps.
* `Date.ofStamp?_stamp`, `Date.ofText?_stamp`, `Instant.ofHourStamp?_hourStamp`: the stamps of days
  and hours.
* `IsoWeek.ofParts_of`: the week of a date, from its year and its number.
-/

namespace WeatherStation

open Text

/-! ## Steps of reading -/

namespace Text

theorem isSome_digit? (c : Char) : (digit? c).isSome = c.isDigit := by
  have hiff : ('0' ≤ c ∧ c ≤ '9') ↔ c.isDigit = true := by
    simp only [Char.isDigit, Bool.and_eq_true, decide_eq_true_eq]
    exact Iff.rfl
  rw [digit?]
  split_ifs with h
  · rw [hiff.1 h]
    rfl
  · rw [Bool.eq_false_iff.2 (mt hiff.2 h)]
    rfl

theorem digit?_of_isDigit {c : Char} (h : c.isDigit = true) :
    digit? c = some (c.toNat - '0'.toNat) := by
  have hsome : (digit? c).isSome = true := by rw [isSome_digit?, h]
  rw [digit?] at hsome ⊢
  split_ifs at hsome ⊢
  · rfl
  · cases hsome

theorem isBlank_of_isDigit {c : Char} (h : c.isDigit = true) : isBlank c = false := by
  have hrange : 48 ≤ c.toNat ∧ c.toNat ≤ 57 := by
    simp only [Char.isDigit, Bool.and_eq_true, decide_eq_true_eq] at h
    exact ⟨UInt32.le_iff_toNat_le.1 h.1, UInt32.le_iff_toNat_le.1 h.2⟩
  have hnone (r : ℕ × ℕ) (hr : r ∈ blankRanges) : r.2 < 48 ∨ 57 < r.1 := by
    revert r
    decide
  refine Bool.eq_false_iff.2 fun hany => ?_
  obtain ⟨r, hr, hc⟩ := List.any_eq_true.1 hany
  simp only [Bool.and_eq_true, decide_eq_true_eq] at hc
  have := hnone r hr
  omega

namespace Scan

variable {β γ : Type}

/-- A step of reading takes characters off the front of a text and gives a value. -/
def Takes (x : Scan β) (s : List Char) (b : β) (rest : List Char) : Prop :=
  StateT.run x s = some (b, rest)

variable {x : Scan β} {s s' s'' : List Char} {b : β}

/-- One step after the other. -/
theorem Takes.bind {f : β → Scan γ} {c : γ} (hx : Takes x s b s') (hf : Takes (f b) s' c s'') :
    Takes (x >>= f) s c s'' := by
  rw [Takes, StateT.run_bind, hx]
  exact hf

/-- The value of a whole reading. -/
theorem Takes.run' (h : Takes x s b s') : StateT.run' x s = some b :=
  congrArg (Option.map Prod.fst) h

theorem takes_pure (b : β) (s : List Char) : Takes (pure b) s b s := rfl

theorem takes_get (s : List Char) : Takes get s s s := rfl

theorem takes_modify (f : List Char → List Char) (s : List Char) :
    Takes (modify f) s () (f s) := rfl

theorem takes_guard {p : Prop} [Decidable p] (h : p) (s : List Char) :
    Takes (guard p : Scan Unit) s () s := by
  rw [guard, if_pos h]
  rfl

theorem takes_blanks {c : Char} (h : isBlank c = false) (s : List Char) :
    Takes blanks (c :: s) () (c :: s) := by
  have hskip : skipBlanks (c :: s) = c :: s := List.dropWhile_cons_of_neg (by simp [h])
  show some ((), skipBlanks (c :: s)) = _
  rw [hskip]

theorem takes_char {p : Char → Bool} {c : Char} (h : p c = true) (s : List Char) :
    Takes (char p) (c :: s) c s :=
  (takes_get (c :: s)).bind ((takes_guard h _).bind rfl)

theorem takes_char? (p : Char → Bool) (c : Char) (s : List Char) :
    Takes (char? p) (c :: s) (p c) (if p c then s else c :: s) := by
  refine (takes_get (c :: s)).bind ?_
  dsimp only
  cases p c <;> rfl

theorem takes_discard {p : Char → Bool} {c : Char} (h : p c = true) (s : List Char) :
    Takes (discard (char p)) (c :: s) () s := by
  have hchar := takes_char h s
  show (StateT.run (char p) (c :: s) >>= fun r => some ((), r.2)) = _
  rw [hchar]
  rfl

/-- A value that is there takes nothing. -/
theorem takes_lift {o : Option β} (h : o = some b) (s : List Char) :
    Takes (StateT.lift o) s b s := by
  rw [h]
  rfl

theorem takes_finish : Takes finish [] () [] := rfl

theorem takes_literal (c : Char) (s : List Char) : Takes (literal [c]) (c :: s) () s :=
  (takes_discard (p := (· == c)) (by simp) s).bind (takes_pure () s)

/-- Digits, as far as there is room for them or as far as they go. -/
theorem takes_digits {width : ℕ} {ds : List Char} (hds : ∀ c ∈ ds, c.isDigit = true)
    (hne : ds ≠ []) (hle : ds.length ≤ width) {s : List Char}
    (hs : ds.length = width ∨ ∀ c ∈ s.head?, c.isDigit = false) :
    Takes (digits width) (ds ++ s) ds s := by
  have hrest : (s.take (width - ds.length)).takeWhile (fun c => (digit? c).isSome) = [] := by
    rcases hs with hfull | hs
    · rw [hfull, Nat.sub_self, List.take_zero, List.takeWhile_nil]
    · cases s with
      | nil => rw [List.take_nil, List.takeWhile_nil]
      | cons c s =>
        cases width - ds.length with
        | zero => rfl
        | succ k =>
          rw [List.take_succ_cons, List.takeWhile_cons_of_neg]
          rw [isSome_digit?, hs c rfl]
          decide
  have hrun : ((ds ++ s).take width).takeWhile (fun c => (digit? c).isSome) = ds := by
    rw [List.take_append, List.take_of_length_le hle,
      List.takeWhile_append_of_pos fun c hc => by rw [isSome_digit?, hds c hc], hrest,
      List.append_nil]
  refine (takes_get (ds ++ s)).bind ?_
  dsimp only
  rw [hrun]
  refine (takes_guard (by simp [hne]) _).bind ?_
  show some (ds, (ds ++ s).drop ds.length) = _
  rw [List.drop_left]

theorem value_eq {ds : List Char} (hds : ∀ c ∈ ds, c.isDigit = true) :
    value ds = Nat.ofDigitChars 10 ds 0 := by
  rw [value, Nat.ofDigitChars]
  refine List.foldl_ext _ _ _ fun n c hc => ?_
  rw [digit?_of_isDigit (hds c hc), Option.getD_some]

/-- A numeral with leading zeros has the value of its number. -/
theorem value_padded (width n : ℕ) : value (padded width n).toList = n := by
  rw [value_eq fun c hc => isDigit_of_mem_padded hc, ofDigitChars_padded]

theorem padded_ne_nil (width n : ℕ) : (padded width n).toList ≠ [] := by
  rw [toList_padded]
  exact List.append_ne_nil_of_right_ne_nil _ (Nat.toDigits_ne_nil)

/-- The digits of a numeral. -/
theorem takes_padded {width most n : ℕ} {s : List Char}
    (hle : (padded width n).toList.length ≤ most)
    (hs : (padded width n).toList.length = most ∨ ∀ c ∈ s.head?, c.isDigit = false) :
    Takes (digits most) ((padded width n).toList ++ s) (padded width n).toList s :=
  takes_digits (fun _ hc => isDigit_of_mem_padded hc) (padded_ne_nil width n) hle hs

/-- Nothing is skipped before a numeral. -/
theorem takes_blanks_padded (width n : ℕ) (s : List Char) :
    Takes blanks ((padded width n).toList ++ s) () ((padded width n).toList ++ s) := by
  cases hds : (padded width n).toList with
  | nil => exact absurd hds (padded_ne_nil width n)
  | cons c ds =>
    have hc : c ∈ (padded width n).toList := by
      rw [hds]
      exact List.mem_cons_self
    exact takes_blanks (isBlank_of_isDigit (isDigit_of_mem_padded hc)) _

end Scan

end Text

/-! ## Dates -/

/-- A date has the year, the month and the day that it is written with. -/
theorem Date.ofCivil?_civil (d : Date) :
    ofCivil? d.civil.year d.civil.month d.civil.day = some d := by
  obtain ⟨k, len, hmonth, hlen, hone, hle, hsum⟩ := monthAndDay_spec 1 d.ordinal_lt
  have hordinal := d.ordinal_spec
  have hindex : d.civil.month - 1 = k := by
    simp only [civil]
    omega
  have hbefore : ((monthLengths (isLeapYear (yearOf d.day))).take k).foldl (· + ·) 0 =
      ((monthLengths (isLeapYear (yearOf d.day))).take k).sum := List.sum_eq_foldl.symm
  have hday : yearStart d.civil.year + ((((monthLengths (isLeapYear d.civil.year)).take
      (d.civil.month - 1)).foldl (· + ·) 0 : ℕ) : ℤ) + ((d.civil.day : ℤ) - 1) = d.day := by
    rw [hindex]
    simp only [civil]
    rw [hbefore]
    omega
  have hlengths : (monthLengths (isLeapYear d.civil.year))[d.civil.month - 1]? = some len := by
    rw [hindex]
    exact hlen
  have hfirst : 1 ≤ d.civil.month := by
    simp only [civil]
    omega
  have hdays : 1 ≤ d.civil.day ∧ d.civil.day ≤ len := ⟨hone, hle⟩
  rw [ofCivil?, guard, if_pos hfirst]
  show (monthLengths (isLeapYear d.civil.year))[d.civil.month - 1]?.bind _ = some d
  rw [hlengths, Option.bind_some, guard, if_pos hdays]
  show ofDay? _ = some d
  rw [hday]
  exact dif_pos ⟨d.first_le, d.le_last⟩

namespace Time

open Text.Scan

/-! ## Written times -/

/-- A number of two digits. -/
theorem takes_number {n least greatest : ℕ} (hn : n < 100) (hb : least ≤ n ∧ n ≤ greatest)
    (s : List Char) : Takes (number 2 least greatest) ((padded 2 n).toList ++ s) n s := by
  have hlen := length_padded (by decide : 0 < 2) hn
  refine (takes_blanks_padded 2 n s).bind ((takes_padded hlen.le (.inl hlen)).bind ?_)
  rw [value_padded]
  exact (takes_guard hb s).bind (takes_pure n s)

/-- A year, with its sign if it has one. -/
theorem takes_year (y : ℤ) (s : List Char) :
    Takes year ((yearText y).toList ++ '-' :: s) y ('-' :: s) := by
  have hdash : ∀ c ∈ ('-' :: s).head?, c.isDigit = false := fun c hc => by
    obtain rfl := Option.some.inj hc
    decide
  rw [yearText]
  split_ifs with hshort hneg
  · -- Without a sign there are exactly four digits.
    have hlen : (padded 4 y.natAbs).toList.length = 4 := length_padded (by decide) (by omega)
    have hvalue : ((value (padded 4 y.natAbs).toList : ℕ) : ℤ) = y := by
      rw [value_padded]
      omega
    refine (takes_blanks_padded 4 y.natAbs _).bind ((takes_get _).bind ?_)
    have hdigits : Takes (digits 4) ((padded 4 y.natAbs).toList ++ '-' :: s)
        (padded 4 y.natAbs).toList ('-' :: s) := takes_padded hlen.le (.inl hlen)
    cases hds : (padded 4 y.natAbs).toList with
    | nil => exact absurd hds (padded_ne_nil _ _)
    | cons c ds =>
      have hmem : c ∈ (padded 4 y.natAbs).toList := by
        rw [hds]
        exact List.mem_cons_self
      have hc := isDigit_of_mem_padded hmem
      have hsign (sign : Char) (hs : sign.isDigit = false) : (c == sign) = false := by
        refine beq_eq_false_iff_ne.2 fun he => ?_
        rw [he, hs] at hc
        cases hc
      rw [hds] at hdigits hvalue
      have hminus := takes_char? (· == '-') c (ds ++ '-' :: s)
      have hplus := takes_char? (· == '+') c (ds ++ '-' :: s)
      rw [hsign '-' (by decide)] at hminus
      rw [hsign '+' (by decide)] at hplus
      refine hminus.bind (hplus.bind (hdigits.bind ?_))
      rw [hvalue]
      exact takes_pure _ _
  · have hvalue : -((value (padded 4 y.natAbs).toList : ℕ) : ℤ) = y := by
      rw [value_padded]
      omega
    have htext : ("-" ++ padded 4 y.natAbs).toList ++ '-' :: s =
        '-' :: ((padded 4 y.natAbs).toList ++ '-' :: s) := by
      rw [String.toList_append]
      rfl
    rw [htext]
    refine (takes_blanks (by decide) _).bind ((takes_get _).bind
      ((takes_char? (· == '-') '-' _).bind ((takes_padded (by simp; omega) (.inr hdash)).bind ?_)))
    rw [hvalue]
    exact takes_pure _ _
  · have hvalue : ((value (padded 4 y.natAbs).toList : ℕ) : ℤ) = y := by
      rw [value_padded]
      omega
    have htext : ("+" ++ padded 4 y.natAbs).toList ++ '-' :: s =
        '+' :: ((padded 4 y.natAbs).toList ++ '-' :: s) := by
      rw [String.toList_append]
      rfl
    rw [htext]
    refine (takes_blanks (by decide) _).bind ((takes_get _).bind
      ((takes_char? (· == '-') '+' _).bind ((takes_char? (· == '+') '+' _).bind
        ((takes_padded (by simp; omega) (.inr hdash)).bind ?_))))
    rw [hvalue]
    exact takes_pure _ _

/-- A date, whether or not white space may stand in it. -/
theorem takes_date (loose : Bool) (d : Date) (s : List Char) :
    Takes (date loose) (d.stamp.toList ++ s) d s := by
  have hseparator (s : List Char) :
      Takes (if loose then do blanks; literal ['-'] else literal ['-']) ('-' :: s) () s := by
    cases loose
    · exact takes_literal '-' s
    · exact (takes_blanks (by decide) s).bind (takes_literal '-' s)
  have htext : d.stamp.toList ++ s = (yearText d.civil.year).toList ++
      '-' :: ((padded 2 d.civil.month).toList ++ '-' :: ((padded 2 d.civil.day).toList ++ s)) := by
    simp [Date.stamp, Date.monthStamp]
  obtain ⟨hmonth, hday⟩ := d.civil_bounds
  rw [htext]
  refine (takes_year d.civil.year _).bind ((hseparator _).bind ?_)
  refine (takes_number (by omega) hmonth _).bind ((hseparator _).bind ?_)
  exact (takes_number (by omega) hday _).bind (takes_lift d.ofCivil?_civil s)

/-- A fraction of a second of up to nine digits. -/
theorem takes_decimals {width n nanos : ℕ} (hw : 0 < width) (hle : width ≤ 9) (hn : n < 10 ^ width)
    (hnanos : n * 10 ^ (9 - width) = nanos) (s : List Char) :
    Takes fraction (("." ++ padded width n).toList ++ 'Z' :: s) nanos ('Z' :: s) := by
  have hlen := length_padded hw hn
  have hZ : ∀ c ∈ ('Z' :: s).head?, c.isDigit = false := fun c hc => by
    obtain rfl := Option.some.inj hc
    decide
  have htext : ("." ++ padded width n).toList ++ 'Z' :: s =
      '.' :: ((padded width n).toList ++ 'Z' :: s) := by
    rw [String.toList_append]
    rfl
  rw [htext, ← hnanos]
  refine (takes_char? (· == '.') '.' _).bind ?_
  refine (takes_padded (by omega) (.inr hZ)).bind ((takes_modify _ ('Z' :: s)).bind ?_)
  rw [value_padded, hlen]
  exact takes_pure _ _

/-- A fraction of a second in the fewest digits. -/
theorem takes_fraction {n : ℕ} (hn : n < 1000000000) (s : List Char) :
    Takes fraction ((fractionText n).toList ++ 'Z' :: s) n ('Z' :: s) := by
  rw [fractionText]
  split_ifs with hzero hmilli hmicro
  · rw [hzero]
    exact (takes_char? (· == '.') 'Z' s).bind (takes_pure 0 _)
  · exact takes_decimals (by decide) (by decide) (by omega) (by omega) s
  · exact takes_decimals (by decide) (by decide) (by omega) (by omega) s
  · exact takes_decimals (by decide) (by decide) (by omega) (by omega) s

/-- UTC. -/
theorem takes_zone : Takes zone ['Z'] 0 [] := by
  rfl

/-- A timestamp in UTC. -/
theorem takes_timestamp {d : Date} {hour minute second nanos : ℕ} {t : Instant}
    (hhour : hour < 24) (hminute : minute < 60) (hsecond : second ≤ 60)
    (hnanos : nanos < 1000000000)
    (ht : Instant.ofParts? (d.day * 86400 + hour * 3600 + minute * 60 + min second 59)
      (if second = 60 then nanos + 1000000000 else nanos) = some t) :
    Takes timestamp (d.stamp ++ "T" ++ padded 2 hour ++ ":" ++ padded 2 minute ++ ":" ++
      padded 2 second ++ fractionText nanos ++ "Z").toList t [] := by
  have hcolon (s : List Char) : Takes (do blanks; literal [':']) (':' :: s) () s :=
    (takes_blanks (by decide) s).bind (takes_literal ':' s)
  have htext : (d.stamp ++ "T" ++ padded 2 hour ++ ":" ++ padded 2 minute ++ ":" ++
      padded 2 second ++ fractionText nanos ++ "Z").toList =
      d.stamp.toList ++ 'T' :: ((padded 2 hour).toList ++ ':' :: ((padded 2 minute).toList ++
        ':' :: ((padded 2 second).toList ++ ((fractionText nanos).toList ++ ['Z'])))) := by
    simp
  rw [htext]
  refine (takes_date true d _).bind ((takes_discard (by decide) _).bind ?_)
  refine (takes_number (by omega) ⟨by omega, by omega⟩ _).bind ((hcolon _).bind ?_)
  refine (takes_number (by omega) ⟨by omega, by omega⟩ _).bind ((hcolon _).bind ?_)
  refine (takes_number (by omega) ⟨by omega, by omega⟩ _).bind ((takes_fraction hnanos []).bind ?_)
  refine takes_zone.bind ((takes_modify skipBlanks []).bind (takes_finish.bind ?_))
  refine takes_lift ?_ []
  rw [sub_zero]
  exact ht

end Time

/-- The parts of an instant give it back. -/
theorem Instant.ofParts?_self (t : Instant) : ofParts? t.seconds t.nanos = some t :=
  dif_pos ⟨t.first_le, t.le_last, t.nanos_lt, t.leap_ends_minute⟩

/-- The text of an instant is a timestamp of it. -/
theorem Instant.ofText?_text (t : Instant) : ofText? t.text = some t := by
  have hclock : (t.secondOfDay : ℤ) = t.seconds % 86400 := by
    rw [secondOfDay]
    omega
  have hday : t.date.day = t.seconds / 86400 := rfl
  have hhour : t.hour = t.secondOfDay / 3600 := rfl
  have hlt := t.nanos_lt
  have hread (second nanos : ℕ) (hsecond : second ≤ 60) (hnanos : nanos < 1000000000)
      (hwhole : min second 59 = t.secondOfDay % 60)
      (hpart : (if second = 60 then nanos + 1000000000 else nanos) = t.nanos)
      (htext : t.text = t.hourStamp ++ ":" ++ padded 2 (t.secondOfDay / 60 % 60) ++ ":" ++
        padded 2 second ++ fractionText nanos ++ "Z") : ofText? t.text = some t := by
    have hseconds : t.date.day * 86400 + (t.hour : ℤ) * 3600 +
        ((t.secondOfDay / 60 % 60 : ℕ) : ℤ) * 60 + ((min second 59 : ℕ) : ℤ) = t.seconds := by
      omega
    have hparts := t.ofParts?_self
    rw [← hseconds, ← hpart] at hparts
    have htakes := Time.takes_timestamp t.hour_lt (by omega) hsecond hnanos hparts
    rw [ofText?, htext]
    exact htakes.run'
  cases hleap : t.isLeap with
  | true =>
    have hnanos : 1000000000 ≤ t.nanos := of_decide_eq_true hleap
    have hlast := t.leap_ends_minute hnanos
    have hsixty : t.secondOfDay % 60 + 1 = 60 := by omega
    refine hread (t.secondOfDay % 60 + 1) (t.nanos - 1000000000) hsixty.le (by omega)
      (by omega) ?_ (by rw [text, hleap]; rfl)
    rw [if_pos hsixty]
    omega
  | false =>
    have hnanos : t.nanos < 1000000000 := not_le.1 (of_decide_eq_false hleap)
    have hsixty : t.secondOfDay % 60 ≠ 60 := by omega
    exact hread (t.secondOfDay % 60) t.nanos (by omega) hnanos (by omega)
      (if_neg hsixty) (by rw [text, hleap]; rfl)

/-! ## Stamps -/

/-- The stamp of a date, as it stands in a path. -/
theorem Date.ofStamp?_stamp (d : Date) : ofStamp? d.stamp = some d := by
  have htakes := Time.takes_date false d []
  rw [List.append_nil] at htakes
  exact (htakes.bind (Scan.takes_finish.bind (Scan.takes_pure d []))).run'

/-- The stamp of a date, as it stands in a query. -/
theorem Date.ofText?_stamp (d : Date) : ofText? d.stamp = some d := by
  have htakes := Time.takes_date true d []
  rw [List.append_nil] at htakes
  exact (htakes.bind ((Scan.takes_modify skipBlanks []).bind
    (Scan.takes_finish.bind (Scan.takes_pure d [])))).run'

/-- The stamp of an hour gives an instant of the hour. -/
theorem Instant.ofHourStamp?_hourStamp (t : Instant) :
    ∃ s, ofHourStamp? t.hourStamp = some s ∧ s.hourStamp = t.hourStamp := by
  have hhour := t.hour_lt
  have hfirst := t.date.first_le
  have hlast := t.date.le_last
  obtain ⟨s, hs, hseconds⟩ : ∃ s, ofParts? (t.date.day * 86400 + (t.hour : ℤ) * 3600) 0 = some s ∧
      s.seconds = t.date.day * 86400 + t.hour * 3600 := by
    refine ⟨_, dif_pos ⟨?_, ?_, by decide, fun h => absurd h (by decide)⟩, rfl⟩
    · unfold firstSecond
      omega
    · unfold lastSecond
      omega
  have htakes := Time.takes_number (by omega) ⟨t.hour.zero_le, Nat.le_of_lt_succ hhour⟩ []
  rw [List.append_nil] at htakes
  have htext : t.hourStamp.toList = t.date.stamp.toList ++ 'T' :: (padded 2 t.hour).toList := by
    simp [hourStamp]
  have hdate : s.date = t.date := by
    refine Date.ext_day ?_
    show s.seconds / 86400 = t.date.day
    omega
  have hsame : s.hour = t.hour := by
    rw [hour, secondOfDay, hseconds]
    omega
  refine ⟨s, ?_, by rw [hourStamp, hourStamp, hdate, hsame]⟩
  rw [ofHourStamp?, htext]
  refine (?_ : Scan.Takes _ _ _ []).run'
  refine (Time.takes_date false t.date _).bind ((Scan.takes_literal 'T' _).bind ?_)
  exact htakes.bind (Scan.takes_finish.bind (Scan.takes_lift hs []))

namespace IsoWeek

/-- The Monday of the week of a date. -/
theorem monday_of (d : Date) : (of d).monday = d.day - d.weekday := by
  have hyear := yearOf_spec (thursday d)
  have hweek := toNat_week_of d
  have hweekday : (d.weekday : ℤ) = (d.day + 3) % 7 := by
    unfold Date.weekday
    omega
  simp only [monday, toInt_year_of, hweek]
  generalize yearStart (yearOf (thursday d)) = first at hyear ⊢
  unfold thursday at hyear ⊢
  omega

/-- A date that is not among the first ones of the calendar has a week that can be named. -/
theorem ofParts_of {d : Date} (hd : firstDay + 6 ≤ d.day) :
    ofParts (of d).year (of d).week = .ok (some (of d)) := by
  have hyear := yearOf_spec (thursday d)
  have hmonday := monday_of d
  have hlt := d.weekday_lt
  have hlast := d.le_last
  have hthursday : (of d).monday + 3 = thursday d := by
    rw [hmonday]
    rfl
  have hweek : 1 ≤ (of d).week.toNat := by
    have hnumber := toNat_week_of d
    have hnonneg : 0 ≤ (thursday d - yearStart (yearOf (thursday d))) / 7 := by omega
    omega
  have hbounds : -2 ^ 31 ≤ yearOf (of d).monday ∧ yearOf (of d).monday < 2 ^ 31 :=
    yearOf_bounds (by omega) (by omega)
  have hmin : Int32.minValue.toInt = -2 ^ 31 := by decide
  show (if 1 ≤ (of d).week.toNat ∧ yearStart (of d).year.toInt ≤ (of d).monday + 3 ∧
      (of d).monday + 3 < yearStart ((of d).year.toInt + 1) then
    if yearOf (of d).monday < Int32.minValue.toInt then Except.error Overflow.year
    else .ok (if firstDay ≤ (of d).monday ∧ (of d).monday ≤ lastDay then some (of d) else none)
    else .ok none) = .ok (some (of d))
  rw [hthursday, toInt_year_of, if_pos ⟨hweek, hyear⟩, if_neg (by omega),
    if_pos ⟨by omega, by omega⟩]

end IsoWeek

end WeatherStation
