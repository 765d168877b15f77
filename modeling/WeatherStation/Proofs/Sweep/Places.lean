import WeatherStation.Proofs.Store.Pages
import WeatherStation.Proofs.Sweep.Orderly

/-!
# Places of days in stored weeks

Which days a stored week agrees with, and what the writes of a sweep change about that: the write of
a week gives its days their places and leaves the places of all other days alone, and the write of a
day leaves all places alone.

Results:
* `History.InWeek`: the stored week of a day agrees with the day.
* `History.WrittenWeek`: the stored week of a day agrees with an earlier state of the day.
* `History.InWeek.iff_sameSummaries`: the states that a stored week agrees with.
* `History.Orderly.put_week`: the write of a week.
* `History.inWeek_put_day`: the write of a day.
* `History.RolledUp`: what is known of all stored days that are sealed.
* `Ingest.apply_safe_of_settled`: readings leave weeks and sealed days alone.
-/

namespace WeatherStation

variable {ι α : Type}

theorem View.Named.weekly_key_ne {d : DailyView α} (hd : (View.daily d).Named) (device : String)
    (week : IsoWeek) : (ViewId.weekly device week).key ≠ (View.daily d).key := by
  have hd : d.id = Granularity.daily.id d.device d.start := hd
  have hkey : (View.daily d).key = (Granularity.daily.id d.device d.start).key :=
    congrArg ViewId.key hd
  rw [hkey]
  exact ViewId.weekly_key_ne_window device d.device week .daily d.start

variable [Quantity α]

/-- Two states of a day that look the same in a week. -/
def DailyView.SameSummaries (c d : DailyView α) : Prop :=
  (∀ m, (c.tallies.get m).mapM Tally.summary = (d.tallies.get m).mapM Tally.summary) ∧
    c.rainSummary = d.rainSummary

/-- A closed day has the name of the open one. -/
theorem DailyView.named_of_close {d c : DailyView α} (h : close.result d = .ok c)
    (hd : (View.daily d).Named) : (View.daily c).Named := by
  have hsame := (close_frame h).2
  change c.id = Granularity.daily.id c.device c.start
  rw [hsame.id, hsame.device, hsame.start]
  exact hd

namespace History

/-- The week of a day is stored, and the place of the day in it holds the summaries of the day. -/
def InWeek (h : History ι α) (d : DailyView α) : Prop :=
  ∃ w, h.store.get? d.weekKey = some (.weekly w) ∧ w.Agrees d

/-- The day is what closing makes of a day that was written. -/
def ClosedFrom (h : History ι α) (c : DailyView α) : Prop :=
  ∃ d, h.Recorded (.daily d) ∧ DailyView.close.result d = .ok c

/-- The week of a day is stored, and the place of the day in it holds the summaries of some state in
    which the day was written. -/
def WrittenWeek (h : History ι α) (d : DailyView α) : Prop :=
  ∃ c, h.ClosedFrom c ∧ c.device = d.device ∧ c.start.date = d.start.date ∧ h.InWeek c

variable {h h' : History ι α} {i : ι} {c c' d : DailyView α} {cutoff : Instant}

theorem Closing.named (hc : h.Closing cutoff c) (ho : h.Orderly) : (View.daily c).Named := by
  obtain ⟨d, hd, hdc⟩ := hc
  exact DailyView.named_of_close hdc (ho.get?_named hd.stored).1

theorem Closing.closedFrom (hc : h.Closing cutoff c) (hs : h.Sound) : h.ClosedFrom c := by
  obtain ⟨d, hd, hdc⟩ := hc
  exact ⟨d, (hs.get?_recorded hd.stored).2, hdc⟩

/-- Days of one week have places of their own. -/
theorem Closing.eq_of_place (hc : h.Closing cutoff c) (hc' : h.Closing cutoff c') (ho : h.Orderly)
    (howner : c.owner = c'.owner)
    (hp : WeeklyView.place c.start.date = WeeklyView.place c'.start.date) : c = c' := by
  obtain ⟨hdevice, hdate⟩ := DailyView.date_of_owner howner hp
  exact hc.eq_of_key hc' ((hc.named ho).key_of_same_day (hc'.named ho) hdevice hdate)

theorem ClosedFrom.mono (hc : h.ClosedFrom c) (hp : h.log <+: h'.log) : h'.ClosedFrom c := by
  obtain ⟨d, hd, hdc⟩ := hc
  exact ⟨d, hd.mono hp, hdc⟩

theorem inWeek_of_eq (hk : h.store.get? d.weekKey = h'.store.get? d.weekKey) :
    h.InWeek d ↔ h'.InWeek d := by
  rw [InWeek, InWeek, hk]

theorem InWeek.of_sameSettled (hd : h.InWeek d) (hs : SameSettled h h') : h'.InWeek d := by
  obtain ⟨w, hw, ha⟩ := hd
  exact ⟨w, (hs d.weekKey (.weekly w) trivial).1 hw, ha⟩

/-- What is stored of a week agrees with all states of a day that have the same summaries, and with
    no others. -/
theorem InWeek.iff_sameSummaries (hc : h.InWeek c) (hdevice : c.device = d.device)
    (hdate : c.start.date = d.start.date) : h.InWeek d ↔ c.SameSummaries d := by
  have hkey : c.weekKey = d.weekKey := by
    rw [DailyView.weekKey, DailyView.weekKey, DailyView.owner, DailyView.owner, hdevice, hdate]
  obtain ⟨w, hw, hmetrics, hrain⟩ := hc
  rw [hdate] at hmetrics hrain
  constructor
  · rintro ⟨w', hw', hmetrics', hrain'⟩
    rw [hkey, hw'] at hw
    cases hw
    refine ⟨fun m => (hmetrics m).trans (hmetrics' m).symm, ?_⟩
    rw [hrain'] at hrain
    exact (Option.some_inj.1 hrain).symm
  · rintro ⟨hsame, hsame'⟩
    refine ⟨w, hkey ▸ hw, fun m => (hsame m).symm.trans (hmetrics m), ?_⟩
    rw [hrain, hsame']

/-- The write of a day leaves all weeks alone. -/
theorem inWeek_put_day (hc : (View.daily c).Named) :
    (h.put i (.daily c)).InWeek d ↔ h.InWeek d := by
  have hk : d.weekKey ≠ (View.daily c).key := hc.weekly_key_ne _ _
  exact inWeek_of_eq (by rw [get?_put, if_neg hk])

theorem WrittenWeek.of_inWeek (hd : h.WrittenWeek d) (hp : h.log <+: h'.log)
    (hw : ∀ c, h.InWeek c → h'.InWeek c) : h'.WrittenWeek d := by
  obtain ⟨c, hc, hdevice, hdate, hin⟩ := hd
  exact ⟨c, hc.mono hp, hdevice, hdate, hw c hin⟩

/-- The write of a week into which some days were written: the days get their places, and other days
    keep theirs. -/
theorem Orderly.put_week (ho : h.Orderly) {o : String × IsoWeek} {days : List (DailyView α)}
    {w w' : WeeklyView α} (hw : h.store.week? o.1 o.2 = some w)
    (hdays : ∀ d ∈ days, d.owner = o ∧ (View.daily d).Named)
    (huniq : ∀ d ∈ days, ∀ d' ∈ days, d.id.key = d'.id.key → d = d')
    (happly : Rollup.applyDays days w = .ok w') :
    (View.weekly w').key = (ViewId.weekly o.1 o.2).key ∧ (h.put i (.weekly w')).Orderly ∧
      (∀ d ∈ days, (h.put i (.weekly w')).InWeek d) ∧
      ∀ c, h.InWeek c → (∀ d ∈ days, d.device = c.device → d.start.date ≠ c.start.date) →
        (h.put i (.weekly w')).InWeek c := by
  have hsame := WeeklyView.applyDays_sameWeek happly
  have hplace {d d' : DailyView α} (hd : d.owner = o) (hd' : d'.owner = o)
      (hp : WeeklyView.place d.start.date = WeeklyView.place d'.start.date) :
      d.device = d'.device ∧ d.start.date = d'.start.date :=
    DailyView.date_of_owner (hd.trans hd'.symm) hp
  obtain ⟨hagrees, hkept⟩ := WeeklyView.applyDays_spec happly fun d hd d' hd' hp =>
    huniq d hd d' hd' ((hdays d hd).2.key_of_same_day (hdays d' hd').2
      (hplace (hdays d hd).1 (hdays d' hd').1 hp).1 (hplace (hdays d hd).1 (hdays d' hd').1 hp).2)
  have hweek := ho.week?_named hw
  have hid : w'.id = ViewId.weekly o.1 o.2 := by
    rw [hsame.id, hweek.2.2, hweek.1, hweek.2.1]
  have hkey : (View.weekly w').key = (ViewId.weekly o.1 o.2).key := congrArg ViewId.key hid
  have hstored {d : DailyView α} (hd : d.owner = o) (ha : w'.Agrees d) :
      (h.put i (.weekly w')).InWeek d := by
    refine ⟨{ w' with version := some h.store.freshVersion }, ?_, ha⟩
    rw [get?_put, hkey, if_pos (DailyView.weekKey_eq_iff.2 hd)]
    rfl
  refine ⟨hkey, ho.put ?_, fun d hd => hstored (hdays d hd).1 (hagrees d hd), fun c hc hne => ?_⟩
  · change w'.id = ViewId.weekly w'.device w'.week
    rw [hid, hsame.device, hsame.week, hweek.1, hweek.2.1]
  · by_cases hco : c.owner = o
    · obtain ⟨w₀, hw₀, ha⟩ := hc
      rw [DailyView.weekKey_eq_iff.2 hco] at hw₀
      rw [Store.week?_of_some hw₀] at hw
      cases hw
      refine hstored hco (ha.of_samePlace (hkept _ fun d hd hp => ?_))
      obtain ⟨hdevice, hdate⟩ := hplace (hdays d hd).1 hco hp
      exact hne d hd hdevice hdate
    · refine (inWeek_of_eq ?_).1 hc
      rw [get?_put, hkey, if_neg fun hk => hco (DailyView.weekKey_eq_iff.1 hk)]

/-! ## Sealed days -/

/-- Every stored day that is sealed has the property. -/
structure RolledUp (P : History ι α → DailyView α → Prop) (h : History ι α) : Prop where
  orderly : h.Orderly
  sealed_days : ∀ {key d}, h.store.get? key = some (.daily d) → d.isSealed = true → P h d

variable {P : History ι α → DailyView α → Prop}

omit [Quantity α] in
theorem rolledUp_empty : RolledUp P (empty : History ι α) :=
  ⟨orderly_empty, fun hd => by cases hd⟩

omit [Quantity α] in
/-- A write that leaves weeks and sealed days alone. -/
theorem RolledUp.of_sameSettled (hr : h.RolledUp P) (ho : h'.Orderly) (hs : SameSettled h h')
    (hp : ∀ d, P h d → P h' d) : h'.RolledUp P :=
  ⟨ho, fun {key d} hd hsealed => hp d (hr.sealed_days ((hs key (.daily d) hsealed).2 hd) hsealed)⟩

omit [Quantity α] in
/-- The write of a view: what is new has the property, and the days that stay keep it. -/
theorem RolledUp.put (hr : h.RolledUp P) {v : View α} (ho : (h.put i v).Orderly)
    (hnew : ∀ d, v.withVersion (some h.store.freshVersion) = .daily d → P (h.put i v) d)
    (hold : ∀ d, h.store.get? d.id.key = some (.daily d) → d.isSealed = true → P h d →
      P (h.put i v) d) : (h.put i v).RolledUp P := by
  refine ⟨ho, fun {key d} hd hsealed => ?_⟩
  rw [get?_put] at hd
  split_ifs at hd
  · exact hnew d (Option.some_inj.1 hd)
  · have hkey : d.id.key = key := (hr.orderly.get?_named hd).2
    exact hold d (hkey ▸ hd) hsealed (hr.sealed_days hd hsealed)

end History

/-- A reading on a store where writes are allowed that leave weeks and sealed days alone. -/
theorem Ingest.apply_safe_of_settled {T : Terms ι α} (horderly : ∀ {h}, T.inv h → h.Orderly)
    (hgrows : ∀ {h h'}, T.rely h h' → h.log <+: h'.log)
    (hwrite : ∀ {h v}, T.inv h → (h.put T.client v).Orderly → h.SameSettled (h.put T.client v) →
      T.inv (h.put T.client v) ∧ T.grant h (h.put T.client v))
    (settings : IngestSettings) (r : Reading α) (h : History ι α) :
    Client.Safe T (fun x h' => ∀ o, x = .ok o → ∀ g, WalkedAll T settings r g (o.windows g) h')
      (apply settings r) h := by
  refine apply_safe hgrows (fun hi hv => ?_)
    fun g buckets starts _ start _ => ⟨fun hi => (horderly hi).sound, hgrows, fun hi hf => ?_⟩
  · exact hwrite hi ((horderly hi).put_latest hv).1 ((horderly hi).put_latest hv).2
  · exact hwrite hi ((horderly hi).put_window hf).1 ((horderly hi).put_window hf).2

end WeatherStation
