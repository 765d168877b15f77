import WeatherStation.Proofs.Time.Stamps
import WeatherStation.View.Basic

/-!
# Keys name their views

A key is read from its right end: no stamp holds a bar, so the last bars of a key separate device,
kind and stamp, whatever the device is called.

Results:
* `Granularity.id_key_eq_iff`: two windows of one width share a key iff they belong to one device
  and lie in one hour or day.
* `ViewId.latest_key_inj`, `ViewId.daily_key_inj`, `ViewId.weekly_key_inj`: the same for devices,
  dates and weeks.
* `Granularity.eq_of_id_key_eq`, `ViewId.weekly_key_ne_window`, `ViewId.latest_key_ne_window`,
  `ViewId.latest_key_ne_weekly`: views of different kinds never share a key.
-/

namespace WeatherStation

/-! ## Reading a key from its end -/

/-- A key that ends in a kind and a stamp. -/
def stampedKey (device kind stamp : String) : String := device ++ "|" ++ kind ++ "|" ++ stamp

theorem stampedKey_inj {d d' k k' s s' : String} (hk : '|' ∉ k.toList) (hk' : '|' ∉ k'.toList)
    (hs : '|' ∉ s.toList) (hs' : '|' ∉ s'.toList) (h : stampedKey d k s = stampedKey d' k' s') :
    d = d' ∧ k = k' ∧ s = s' := by
  have cut (a b c : String) : (stampedKey a b c).toList =
      (a.toList ++ '|' :: b.toList) ++ '|' :: c.toList := by simp [stampedKey]
  have hl := congrArg String.toList h
  rw [cut, cut] at hl
  obtain ⟨hl, hc⟩ := append_cons_inj hs hs' hl
  obtain ⟨ha, hb⟩ := append_cons_inj hk hk' hl
  exact ⟨String.toList_injective ha, String.toList_injective hb, String.toList_injective hc⟩

/-- A key without a stamp ends in its kind. -/
theorem stampedKey_ne {d d' k k' s : String} (hk : '|' ∉ k.toList) (hs : '|' ∉ s.toList)
    (hne : s ≠ k) : stampedKey d' k' s ≠ d ++ "|" ++ k := by
  intro h
  have hl := congrArg String.toList h
  have cut : (stampedKey d' k' s).toList = (d'.toList ++ '|' :: k'.toList) ++ '|' :: s.toList := by
    simp [stampedKey]
  have cut' : (d ++ "|" ++ k).toList = d.toList ++ '|' :: k.toList := by simp
  rw [cut, cut'] at hl
  exact hne (String.toList_injective (append_cons_inj hs hk hl).2)

namespace ViewId

theorem latest_key (device : String) : (latest device).key = device ++ "|" ++ "latest" := by
  simp [latest, String.append_assoc]

theorem hourly_key (device : String) (t : Instant) :
    (hourly device t).key = stampedKey device "hourly" t.hourStamp := by
  simp [hourly, stampedKey, String.append_assoc]

theorem daily_key (device : String) (d : Date) :
    (daily device d).key = stampedKey device "daily" d.stamp := by
  simp [daily, stampedKey, String.append_assoc]

theorem weekly_key (device : String) (w : IsoWeek) :
    (weekly device w).key = stampedKey device "weekly" w.stamp := by
  simp [weekly, stampedKey, String.append_assoc]

theorem latest_key_inj {d d' : String} (h : (latest d).key = (latest d').key) : d = d' := by
  have hl := congrArg String.toList h
  simp only [latest, String.toList_append] at hl
  exact String.toList_injective (List.append_cancel_right hl)

end ViewId

/-! ## Windows -/

theorem Instant.date_eq_iff {t u : Instant} :
    t.date = u.date ↔ t.seconds / 86400 = u.seconds / 86400 := by
  simp [Instant.date]

theorem Instant.hour_eq (t : Instant) :
    (t.hour : ℤ) = t.seconds / 3600 - 24 * (t.seconds / 86400) := by
  simp only [Instant.hour, Instant.secondOfDay]
  omega

theorem Instant.notMem_hourStamp {c : Char} (hc : c.isDigit = false) (hm : c ≠ '-') (hp : c ≠ '+')
    (hT : c ≠ 'T') (t : Instant) : c ∉ t.hourStamp.toList := by
  simp [Instant.hourStamp, Date.notMem_stamp hc hm hp, notMem_padded hc, hT]

namespace Granularity

/-- Two instants lie in one hour iff they lie in the same hour of one day. -/
theorem same_hour_iff {t u : Instant} :
    t.seconds / hourly.seconds = u.seconds / hourly.seconds ↔
      t.seconds / daily.seconds = u.seconds / daily.seconds ∧
        t.hour = u.hour := by
  have ht := t.hour_eq
  have hu := u.hour_eq
  simp only [seconds]
  push_cast
  omega

/-- The stamp of a window in its key. -/
def stamp (t : Instant) : Granularity → String
  | .hourly => t.hourStamp
  | .daily => t.date.stamp

theorem id_key (g : Granularity) (device : String) (t : Instant) :
    (g.id device t).key = stampedKey device g.name (g.stamp t) := by
  cases g
  · exact ViewId.hourly_key device t
  · exact ViewId.daily_key device t.date

theorem bar_notMem_name (g : Granularity) : '|' ∉ g.name.toList := by cases g <;> decide

theorem bar_notMem_stamp (g : Granularity) (t : Instant) : '|' ∉ (g.stamp t).toList := by
  cases g
  · exact Instant.notMem_hourStamp (by decide) (by decide) (by decide) (by decide) t
  · exact Date.notMem_stamp (by decide) (by decide) (by decide) t.date

theorem name_inj {g g' : Granularity} (h : g.name = g'.name) : g = g' := by
  cases g <;> cases g' <;> first | rfl | exact absurd h (by decide)

theorem stamp_eq_iff (g : Granularity) {t u : Instant} :
    g.stamp t = g.stamp u ↔ t.seconds / g.seconds = u.seconds / g.seconds := by
  cases g with
  | hourly =>
    simp only [stamp, seconds]
    constructor
    · intro h
      obtain ⟨hd, hh⟩ := Instant.hourStamp_inj h
      have hd := Instant.date_eq_iff.1 hd
      have h₁ := t.hour_eq
      have h₂ := u.hour_eq
      push_cast
      omega
    · intro h
      push_cast at h
      have hd : t.date = u.date := Instant.date_eq_iff.2 (by omega)
      have hh : t.hour = u.hour := by
        have h₁ := t.hour_eq
        have h₂ := u.hour_eq
        omega
      rw [Instant.hourStamp, Instant.hourStamp, hd, hh]
  | daily =>
    simp only [stamp, seconds]
    constructor
    · exact fun h => Instant.date_eq_iff.1 (Date.stamp_inj h)
    · exact fun h => congrArg Date.stamp (Instant.date_eq_iff.2 h)

/-- Two windows of one width share a key iff they belong to one device and lie in one hour or
    day. -/
theorem id_key_eq_iff (g : Granularity) {d d' : String} {t u : Instant} :
    (g.id d t).key = (g.id d' u).key ↔ d = d' ∧ t.seconds / g.seconds = u.seconds / g.seconds := by
  rw [id_key, id_key, ← g.stamp_eq_iff]
  constructor
  · intro h
    obtain ⟨hd, -, hs⟩ := stampedKey_inj g.bar_notMem_name g.bar_notMem_name
      (g.bar_notMem_stamp t) (g.bar_notMem_stamp u) h
    exact ⟨hd, hs⟩
  · rintro ⟨rfl, hs⟩
    rw [hs]

/-- Hours and days never share a key. -/
theorem eq_of_id_key_eq {g g' : Granularity} {d d' : String} {t u : Instant}
    (h : (g.id d t).key = (g'.id d' u).key) : g = g' := by
  rw [id_key, id_key] at h
  exact name_inj (stampedKey_inj g.bar_notMem_name g'.bar_notMem_name
    (g.bar_notMem_stamp t) (g'.bar_notMem_stamp u) h).2.1

theorem stamp_ne_latest (g : Granularity) (t : Instant) : g.stamp t ≠ "latest" := by
  intro h
  have hmem : '-' ∈ (g.stamp t).toList := by
    cases g <;> simp [stamp, Instant.hourStamp, Date.stamp]
  rw [h] at hmem
  exact absurd hmem (by decide)

end Granularity

namespace ViewId

theorem daily_key_inj {d d' : String} {t t' : Date} (h : (daily d t).key = (daily d' t').key) :
    d = d' ∧ t = t' := by
  rw [daily_key, daily_key] at h
  have bar (t : Date) : '|' ∉ t.stamp.toList :=
    Date.notMem_stamp (by decide) (by decide) (by decide) t
  obtain ⟨hd, -, ht⟩ := stampedKey_inj (by decide) (by decide) (bar t) (bar t') h
  exact ⟨hd, Date.stamp_inj ht⟩

theorem weekly_key_inj {d d' : String} {w w' : IsoWeek}
    (h : (weekly d w).key = (weekly d' w').key) : d = d' ∧ w = w' := by
  rw [weekly_key, weekly_key] at h
  have bar (w : IsoWeek) : '|' ∉ w.stamp.toList :=
    IsoWeek.notMem_stamp (by decide) (by decide) (by decide) w
  obtain ⟨hd, -, hw⟩ := stampedKey_inj (by decide) (by decide) (bar w) (bar w') h
  exact ⟨hd, IsoWeek.stamp_inj hw⟩

theorem weekly_key_ne_window (d d' : String) (w : IsoWeek) (g : Granularity) (t : Instant) :
    (weekly d w).key ≠ (g.id d' t).key := by
  rw [weekly_key, Granularity.id_key]
  intro h
  have hk := (stampedKey_inj (by decide) g.bar_notMem_name
    (IsoWeek.notMem_stamp (by decide) (by decide) (by decide) w) (g.bar_notMem_stamp t) h).2.1
  cases g <;> exact absurd hk (by decide)

theorem latest_key_ne_window (d d' : String) (g : Granularity) (t : Instant) :
    (latest d).key ≠ (g.id d' t).key := by
  rw [latest_key, Granularity.id_key]
  exact (stampedKey_ne (by decide) (g.bar_notMem_stamp t) (g.stamp_ne_latest t)).symm

theorem latest_key_ne_weekly (d d' : String) (w : IsoWeek) :
    (latest d).key ≠ (weekly d' w).key := by
  rw [latest_key, weekly_key]
  refine (stampedKey_ne (by decide)
    (IsoWeek.notMem_stamp (by decide) (by decide) (by decide) w) fun h => ?_).symm
  have hmem : '-' ∈ w.stamp.toList := by simp [IsoWeek.stamp]
  rw [h] at hmem
  exact absurd hmem (by decide)

end ViewId

end WeatherStation
