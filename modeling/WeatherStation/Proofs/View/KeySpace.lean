import WeatherStation.Proofs.Time.LeapSeconds

/-!
# The space of keys

All keys that are made name a kind of view, a device and a stretch of time, and no two of them are
the same unless all three are. The device may have any name: what follows it holds no bar but those
before the kind and the stamp, so a key is cut from its right end.

Results:
* `KeySource.key_eq`: what a key consists of.
* `KeySource.stretch_eq_iff`: kind and stamp of a key stand for a stretch of time.
* `KeySource.key_eq_iff`: keys are the same iff device and stretch of time are.
* `Granularity.key_start`: the window of an instant has the key that is made from the instant.
* `KeySource.keys_name_views`: all of this, and how the years in keys are written.
* `KeySource.week_of_99_short`: the year of a week may have fewer than four digits.
-/

namespace WeatherStation

/-- A time on a clock that is `offset` seconds ahead of UTC. -/
structure ClockTime where
  /-- What the clock shows, in seconds since it showed the beginning of 1970. -/
  shown : ℤ
  nanos : ℕ
  offset : ℤ
  utc : Instant
  utc_eq : Instant.ofParts? (shown - offset) nanos = some utc

theorem ClockTime.utc_seconds (t : ClockTime) : t.utc.seconds = t.shown - t.offset :=
  (Instant.ofParts?_spec t.utc_eq).1

/-- What a key is made from, apart from the device. -/
inductive KeySource where
  | latest
  | hourly (t : ClockTime)
  | daily (t : ClockTime)
  | weekly (t : ClockTime)
  | week (w : IsoWeek)
  | monthly (t : ClockTime)

/-- Stretches of time in UTC. Hours and days are counted from 1970. -/
inductive Stretch where
  | always
  | hour (n : ℤ)
  | day (n : ℤ)
  | week (year : ℤ) (number : ℕ)
  | month (year : ℤ) (number : ℕ)
  deriving DecidableEq

namespace KeySource

/-- The id of the view of a device. -/
def id (device : String) : KeySource → ViewId
  | latest => ViewId.latest device
  | hourly t => ViewId.hourly device t.utc
  | daily t => ViewId.daily device t.utc.date
  | weekly t => ViewId.weekly device (IsoWeek.of t.utc.date)
  | week w => ViewId.weekly device w
  | monthly t => ViewId.monthly device t.utc.date

/-- The stretch of time that the view is about. -/
def stretch : KeySource → Stretch
  | latest => .always
  | hourly t => .hour ((t.shown - t.offset) / 3600)
  | daily t => .day ((t.shown - t.offset) / 86400)
  | weekly t => .week (IsoWeek.of t.utc.date).year.toInt (IsoWeek.of t.utc.date).week.toNat
  | week w => .week w.year.toInt w.week.toNat
  | monthly t => .month t.utc.date.civil.year t.utc.date.civil.month

/-- The kind of view that a key names. -/
def kind : KeySource → String
  | latest => "latest"
  | hourly _ => "hourly"
  | daily _ => "daily"
  | weekly _ => "weekly"
  | week _ => "weekly"
  | monthly _ => "monthly"

/-- The stamp at the end of a key. -/
def stamp? : KeySource → Option String
  | latest => none
  | hourly t => some t.utc.hourStamp
  | daily t => some t.utc.date.stamp
  | weekly t => some (IsoWeek.of t.utc.date).stamp
  | week w => some w.stamp
  | monthly t => some t.utc.date.monthStamp

/-- The key made from a window of some width around a time. -/
def ofWindow : Granularity → ClockTime → KeySource
  | .hourly, t => hourly t
  | .daily, t => daily t

end KeySource

/-! ## Stamps -/

theorem Date.monthStamp_eq_iff {d e : Date} :
    d.monthStamp = e.monthStamp ↔ d.civil.year = e.civil.year ∧ d.civil.month = e.civil.month := by
  refine ⟨Date.monthStamp_inj, ?_⟩
  rintro ⟨hy, hm⟩
  rw [Date.monthStamp, Date.monthStamp, hy, hm]

theorem IsoWeek.stamp_eq_iff {v w : IsoWeek} :
    v.stamp = w.stamp ↔ v.year.toInt = w.year.toInt ∧ v.week.toNat = w.week.toNat := by
  constructor
  · intro h
    rw [IsoWeek.stamp_inj h]
    exact ⟨rfl, rfl⟩
  · rintro ⟨hy, hw⟩
    rw [IsoWeek.stamp, IsoWeek.stamp, hy, hw]

namespace KeySource

theorem bar_notMem_kind (s : KeySource) : '|' ∉ s.kind.toList := by
  cases s <;> simp [kind]

theorem bar_notMem_stamp {s : KeySource} {x : String} (h : s.stamp? = some x) :
    '|' ∉ x.toList := by
  cases s with
  | latest => cases h
  | hourly t =>
    cases h
    exact Granularity.bar_notMem_stamp .hourly t.utc
  | daily t =>
    cases h
    exact Granularity.bar_notMem_stamp .daily t.utc
  | weekly t | week w =>
    cases h
    exact IsoWeek.notMem_stamp (by decide) (by decide) (by decide) _
  | monthly t =>
    cases h
    exact Date.notMem_monthStamp (by decide) (by decide) (by decide) _

/-- Every stamp has a `-` in it, so it is not the name of a kind. -/
theorem stamp_ne_kind {s s' : KeySource} {x : String} (h : s.stamp? = some x) : x ≠ s'.kind := by
  have hx : '-' ∈ x.toList := by
    cases s <;> cases h <;> simp [Instant.hourStamp, Date.stamp, Date.monthStamp, IsoWeek.stamp]
  have hk : '-' ∉ s'.kind.toList := by cases s' <;> simp [kind]
  rintro rfl
  exact hk hx

/-- Kind and stamp stand for a stretch of time. -/
theorem stretch_eq_iff {s s' : KeySource} :
    s.stretch = s'.stretch ↔ s.kind = s'.kind ∧ s.stamp? = s'.stamp? := by
  have hours (t u : ClockTime) : t.utc.hourStamp = u.utc.hourStamp ↔
      (t.shown - t.offset) / 3600 = (u.shown - u.offset) / 3600 := by
    rw [← t.utc_seconds, ← u.utc_seconds]
    exact Granularity.stamp_eq_iff .hourly
  have days (t u : ClockTime) : t.utc.date.stamp = u.utc.date.stamp ↔
      (t.shown - t.offset) / 86400 = (u.shown - u.offset) / 86400 := by
    rw [← t.utc_seconds, ← u.utc_seconds]
    exact Granularity.stamp_eq_iff .daily
  cases s <;> cases s' <;>
    simp [stretch, kind, stamp?, hours, days, IsoWeek.stamp_eq_iff, Date.monthStamp_eq_iff]

/-! ## Keys -/

/-- A key consists of the device, the kind and the stamp, if there is one. -/
theorem key_eq (device : String) (s : KeySource) :
    (s.id device).key = match s.stamp? with
      | none => device ++ "|" ++ s.kind
      | some x => stampedKey device s.kind x := by
  cases s with
  | latest => exact ViewId.latest_key device
  | hourly t => exact ViewId.hourly_key device t.utc
  | daily t => exact ViewId.daily_key device t.utc.date
  | weekly t => exact ViewId.weekly_key device _
  | week w => exact ViewId.weekly_key device w
  | monthly t => simp [id, ViewId.monthly, kind, stamp?, stampedKey, String.append_assoc]

/-- Only the latest view of a device has a key without a stamp. -/
theorem eq_latest_of_stamp? {s : KeySource} (h : s.stamp? = none) : s = .latest := by
  cases s with
  | latest => rfl
  | _ => cases h

theorem eq_of_key {d d' : String} {s s' : KeySource} (h : (s.id d).key = (s'.id d').key) :
    d = d' ∧ s.kind = s'.kind ∧ s.stamp? = s'.stamp? := by
  have hkeys := h
  rw [key_eq, key_eq] at hkeys
  cases hs : s.stamp? with
  | none =>
    cases hs' : s'.stamp? with
    | none =>
      obtain rfl := eq_latest_of_stamp? hs
      obtain rfl := eq_latest_of_stamp? hs'
      exact ⟨ViewId.latest_key_inj h, rfl, rfl⟩
    | some x =>
      simp only [hs, hs'] at hkeys
      exact absurd hkeys.symm (stampedKey_ne s.bar_notMem_kind (bar_notMem_stamp hs')
        (stamp_ne_kind hs'))
  | some x =>
    cases hs' : s'.stamp? with
    | none =>
      simp only [hs, hs'] at hkeys
      exact absurd hkeys (stampedKey_ne s'.bar_notMem_kind (bar_notMem_stamp hs) (stamp_ne_kind hs))
    | some y =>
      simp only [hs, hs'] at hkeys
      obtain ⟨hd, hk, rfl⟩ := stampedKey_inj s.bar_notMem_kind s'.bar_notMem_kind
        (bar_notMem_stamp hs) (bar_notMem_stamp hs') hkeys
      exact ⟨hd, hk, rfl⟩

/-- Two keys are the same iff they name one device and one stretch of time. -/
theorem key_eq_iff {d d' : String} {s s' : KeySource} :
    (s.id d).key = (s'.id d').key ↔ d = d' ∧ s.stretch = s'.stretch := by
  rw [stretch_eq_iff]
  refine ⟨eq_of_key, ?_⟩
  rintro ⟨rfl, hk, hs⟩
  rw [key_eq, key_eq, hk, hs]

end KeySource

/-- The window of an instant has the key that is made from the instant, within leap seconds too. -/
theorem Granularity.key_start {g : Granularity} {t start : Instant} (h : g.start t = .ok start)
    (device : String) : (g.id device start).key = (g.id device t).key := by
  rw [g.id_key_eq_iff]
  refine ⟨rfl, ?_⟩
  have hcases := start_cases h
  split_ifs at hcases
  · rw [hcases.1]
  · rw [hcases.1, Int.mul_ediv_cancel _ (by exact_mod_cast g.seconds_pos.ne')]

/-! ## Years -/

/-- A whole number as text: a sign, then digits, as few as there can be but at least `width`. -/
def Numeral (sign : List Char) (width : ℕ) (n : ℤ) (text : String) : Prop :=
  ∃ digits, text.toList = sign ++ digits ∧ (∀ c ∈ digits, c.isDigit = true) ∧
    Nat.ofDigitChars 10 digits 0 = n.natAbs ∧
      digits.length = max width (Nat.toDigits 10 n.natAbs).length

/-- A year of at least four digits, with a sign outside 0 to 9999. -/
def LongYear (y : ℤ) (text : String) : Prop :=
  Numeral (if y < 0 then ['-'] else if 9999 < y then ['+'] else []) 4 y text

/-- A year without leading zeros, with a sign before 0. -/
def PlainYear (y : ℤ) (text : String) : Prop := Numeral (if y < 0 then ['-'] else []) 1 y text

theorem numeral_padded (sign : String) (width : ℕ) (n : ℤ) :
    Numeral sign.toList width n (sign ++ Text.padded width n.natAbs) := by
  refine ⟨(Text.padded width n.natAbs).toList, by simp,
    fun c hc => Text.isDigit_of_mem_padded hc, Text.ofDigitChars_padded width n.natAbs, ?_⟩
  rw [Text.toList_padded, List.length_append, List.length_replicate]
  omega

theorem longYear_yearText (y : ℤ) : LongYear y (yearText y) := by
  unfold LongYear yearText
  rcases lt_or_ge y 0 with hy | hy
  · rw [if_pos hy, if_neg (by omega), if_pos hy]
    exact numeral_padded "-" 4 y
  rw [if_neg hy.not_gt]
  rcases lt_or_ge 9999 y with hy' | hy'
  · rw [if_pos hy', if_neg (by omega), if_neg hy.not_gt]
    exact numeral_padded "+" 4 y
  · rw [if_neg hy'.not_gt, if_pos ⟨hy, hy'⟩]
    simpa using numeral_padded "" 4 y

theorem plainYear_intText (y : ℤ) : PlainYear y (Text.intText y) := by
  have hwidth : Text.natText y.natAbs = Text.padded 1 y.natAbs := by
    have hpos : 0 < (Nat.toDigits 10 y.natAbs).length := Nat.length_toDigits_pos
    simp [Text.natText, Text.padded, Nat.sub_eq_zero_of_le hpos]
  unfold PlainYear Text.intText
  rw [hwidth]
  split_ifs
  · exact numeral_padded "-" 1 y
  · simpa using numeral_padded "" 1 y

namespace KeySource

/-- The year in a key, which is the ISO year for a week. -/
def year? : KeySource → Option ℤ
  | latest => none
  | hourly t | daily t | monthly t => some t.utc.date.civil.year
  | weekly t => some (IsoWeek.of t.utc.date).year.toInt
  | week w => some w.year.toInt

/-- How the year in a key is written. -/
def yearForm : KeySource → ℤ → String → Prop
  | weekly _ | week _ => PlainYear
  | _ => LongYear

/-- The stamp in the key of a device begins with a year in some form. -/
def BeginsWithYear (device : String) (s : KeySource) (y : ℤ) (form : ℤ → String → Prop) : Prop :=
  ∃ year rest, (s.id device).key = stampedKey device s.kind (year ++ ("-" ++ rest)) ∧ form y year

theorem beginsWithYear {s : KeySource} {y : ℤ} (h : s.year? = some y) (device : String) :
    s.BeginsWithYear device y s.yearForm := by
  have hkey := s.key_eq device
  have month (d : Date) :
      d.monthStamp = yearText d.civil.year ++ ("-" ++ Text.padded 2 d.civil.month) :=
    String.append_assoc
  have week (w : IsoWeek) : w.stamp =
      Text.intText w.year.toInt ++ ("-" ++ ("W" ++ Text.padded 2 w.week.toNat)) := by
    apply String.toList_injective
    simp [IsoWeek.stamp]
  cases s with
  | latest => cases h
  | hourly t =>
    cases h
    refine ⟨_, Text.padded 2 t.utc.date.civil.month ++ ("-" ++
      (Text.padded 2 t.utc.date.civil.day ++ ("T" ++ Text.padded 2 t.utc.hour))),
      hkey.trans ?_, longYear_yearText _⟩
    simp only [stamp?, Instant.hourStamp, Date.stamp, month, String.append_assoc]
  | daily t =>
    cases h
    refine ⟨_, Text.padded 2 t.utc.date.civil.month ++ ("-" ++ Text.padded 2 t.utc.date.civil.day),
      hkey.trans ?_, longYear_yearText _⟩
    simp only [stamp?, Date.stamp, month, String.append_assoc]
  | monthly t =>
    cases h
    refine ⟨_, Text.padded 2 t.utc.date.civil.month, hkey.trans ?_, longYear_yearText _⟩
    simp only [stamp?, month]
  | weekly t =>
    cases h
    refine ⟨_, "W" ++ Text.padded 2 (IsoWeek.of t.utc.date).week.toNat, hkey.trans ?_,
      plainYear_intText _⟩
    simp only [stamp?, week]
  | week w =>
    cases h
    refine ⟨_, "W" ++ Text.padded 2 w.week.toNat, hkey.trans ?_, plainYear_intText _⟩
    simp only [stamp?, week]

/-- Keys are the same iff they name one kind of view, one device and one stretch of time. A window
    has the key of any instant in it. The years in keys have at least four digits, and a sign
    outside 0 to 9999, except that the years of weeks are plain numbers. -/
theorem keys_name_views :
    (∀ (d d' : String) (s s' : KeySource),
      (s.id d).key = (s'.id d').key ↔ d = d' ∧ s.stretch = s'.stretch) ∧
    (∀ (g : Granularity) (d : String) (t : ClockTime) (start : Instant),
      g.start t.utc = .ok start → (g.id d start).key = ((ofWindow g t).id d).key) ∧
    ∀ (d : String) (s : KeySource) (y : ℤ), s.year? = some y → s.BeginsWithYear d y s.yearForm := by
  refine ⟨fun d d' s s' => key_eq_iff, fun g d t start h => ?_, fun d s y h => beginsWithYear h d⟩
  rw [Granularity.key_start h]
  cases g <;> rfl

/-- A quarter to two in the morning of 11 September 2025, on a clock two hours ahead of UTC. -/
def aheadOfUtc : ClockTime where
  shown := 1757555100
  nanos := 0
  offset := 7200
  utc := (Instant.ofSeconds? 1757547900).get (by decide)
  utc_eq := by decide

/-- The clock shows the next day already, but the key of the day is that of the evening in UTC. -/
theorem key_ahead_of_utc :
    ∃ start, Granularity.daily.start aheadOfUtc.utc = .ok start ∧
      (Granularity.daily.id "a|daily" start).key = "a|daily|daily|2025-09-10" ∧
      ((daily aheadOfUtc).id "a|daily").key = "a|daily|daily|2025-09-10" ∧
      (daily aheadOfUtc).BeginsWithYear "a|daily" 2025 LongYear := by
  have hstart : Granularity.daily.start aheadOfUtc.utc =
      .ok ((Instant.ofSeconds? 1757462400).get (by decide)) := by decide +kernel
  have hkey : (Granularity.daily.id "a|daily"
      ((Instant.ofSeconds? 1757462400).get (by decide))).key = "a|daily|daily|2025-09-10" := by
    decide +kernel
  exact ⟨_, hstart, hkey,
    (keys_name_views.2.1 .daily "a|daily" aheadOfUtc _ hstart).symm.trans hkey,
    keys_name_views.2.2 "a|daily" (daily aheadOfUtc) 2025 (by decide +kernel)⟩

/-- Noon of 5 June 99 in UTC. -/
def juneOf99 : ClockTime where
  shown := -59029560000
  nanos := 0
  offset := 0
  utc := (Instant.ofSeconds? (-59029560000)).get (by decide)
  utc_eq := by decide

/-- The key of a week of the year 99 has only the two digits of its year. -/
theorem week_of_99_short :
    ¬ ∀ (d : String) (s : KeySource) (y : ℤ), s.year? = some y → s.BeginsWithYear d y LongYear := by
  intro h
  obtain ⟨year, rest, hkey, digits, hyear, hdigits, -, hlength⟩ :=
    h "dev" (weekly juneOf99) 99 (by decide +kernel)
  have hcut : ((weekly juneOf99).id "dev").key = stampedKey "dev" "weekly" "99-W23" := by
    decide +kernel
  have hstamp : ['9', '9', '-', 'W', '2', '3'] = digits ++ '-' :: rest.toList := by
    simpa [stampedKey, kind, hyear] using congrArg String.toList (hcut.symm.trans hkey)
  -- The third character of a year of four digits is a digit, but that of the stamp is not.
  have hthird : some '-' = (digits ++ '-' :: rest.toList)[2]? := congrArg (·[2]?) hstamp
  have hlong : 2 < digits.length := by
    rw [hlength]
    exact lt_max_of_lt_left (by decide)
  rw [List.getElem?_append_left hlong] at hthird
  exact absurd (hdigits '-' (List.mem_of_getElem? hthird.symm)) (by decide)

end KeySource

end WeatherStation
