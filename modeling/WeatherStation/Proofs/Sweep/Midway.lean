import WeatherStation.Proofs.Sweep.Exclusive
import WeatherStation.Proofs.Traffic.Weather
import WeatherStation.Proofs.View.Closing

/-!
# Sweeps that break off

Sweeps up to one cutoff, one after the other, have a store to themselves. Each may break off at any
of its requests. All that they do is to seal the days that were due in the beginning, and to write
these days into their weeks before. So what they leave behind is known up to two things: which days
they have got to, and which of the other days they have already written into weeks.

Results:
* `Sweep.Midway`: what such sweeps leave behind.
* `Sweep.Midway.window_cases`: what has become of a window.
* `Sweep.Midway.put_week`, `Sweep.Midway.put_day`: the writes of a sweep.
* `Sweep.maySweep_midway`: the terms of such sweeps.
* `Sweep.Midway.week_of_swept`: the weeks when no days are left over.
* `Sweep.Midway.sameViews`: two stores hold the same views if no days are left over in them.
-/

namespace WeatherStation

variable {ι α : Type}

/-- Two stores that hold the same views, whatever their versions are. -/
def Store.SameViews (s s' : Store α) : Prop :=
  ∀ key, (s.get? key).map (View.withVersion none) = (s'.get? key).map (View.withVersion none)

namespace History

/-- What is stored under some keys is the same. -/
def SameAt (p : String → Prop) (h h' : History ι α) : Prop :=
  ∀ key, p key → h'.store.get? key = h.store.get? key

theorem SameAt.refl (p : String → Prop) (h : History ι α) : SameAt p h h := fun _ _ => rfl

theorem SameAt.trans {p : String → Prop} {h h' h'' : History ι α} (hs : SameAt p h h')
    (hs' : SameAt p h' h'') : SameAt p h h'' :=
  fun key hk => (hs' key hk).trans (hs key hk)

end History

variable [Quantity α]

namespace Sweep

open History WeeklyView

/-! ## Weeks and days in between -/

/-- Every place of the week holds what it held in the beginning, or one of the days that were due
    then. -/
def FilledFrom (h₀ : History ι α) (cutoff : Instant) (o : String × IsoWeek) (w : WeeklyView α) :
    Prop :=
  ∃ w₀, h₀.store.week? o.1 o.2 = some w₀ ∧ ∀ p, SamePlace p w₀ w ∨
    ∃ c, h₀.Closing cutoff c ∧ c.owner = o ∧ place c.start.date = p ∧ w.Agrees c

/-- The week of a day was written with it, and holds nothing but days that were due in the
    beginning and what it held then. -/
def InFilled (h₀ : History ι α) (cutoff : Instant) (c : DailyView α) (h : History ι α) : Prop :=
  ∃ w, h.store.get? c.weekKey = some (.weekly w) ∧ FilledFrom h₀ cutoff c.owner w ∧
    w.Recomputed ∧ w.Agrees c

/-- A store that began as `h₀`, after some of the days that were due up to a cutoff were written into
    their weeks, and some of these were sealed. -/
structure Midway (h₀ : History ι α) (cutoff : Instant) (h : History ι α) : Prop where
  began : h₀.Orderly
  orderly : h.Orderly
  others : ∀ {key}, (∀ c, h₀.Closing cutoff c → key ≠ c.id.key ∧ key ≠ c.weekKey) →
    h.store.get? key = h₀.store.get? key
  weeks : ∀ {c w}, h₀.Closing cutoff c → h.store.week? c.owner.1 c.owner.2 = some w →
    FilledFrom h₀ cutoff c.owner w
  days : ∀ {c}, h₀.Closing cutoff c → h.store.get? c.id.key = h₀.store.get? c.id.key ∨
    (∃ t, h.store.get? c.id.key = some (.daily { c with version := t })) ∧
      InFilled h₀ cutoff c h

variable {h₀ h h' : History ι α} {cutoff : Instant} {i : ι} {c d : DailyView α}

theorem InFilled.of_eq (hc : InFilled h₀ cutoff c h)
    (hk : h'.store.get? c.weekKey = h.store.get? c.weekKey) : InFilled h₀ cutoff c h' := by
  rw [InFilled, hk]
  exact hc

/-- Days that are due are written into their week. The days that it agreed with stay. -/
theorem FilledFrom.applyDays {o : String × IsoWeek} {days : List (DailyView α)}
    {w w' : WeeklyView α} (hw : FilledFrom h₀ cutoff o w) (h₀_orderly : h₀.Orderly)
    (hdays : ∀ d ∈ days, d.owner = o ∧ h₀.Closing cutoff d)
    (happly : Rollup.applyDays days w = .ok w') :
    FilledFrom h₀ cutoff o w' ∧ (∀ d ∈ days, w'.Agrees d) ∧
      ∀ {c}, h₀.Closing cutoff c → c.owner = o → w.Agrees c → w'.Agrees c := by
  have huniq {c d : DailyView α} (hd : d ∈ days) (hc : h₀.Closing cutoff c) (hco : c.owner = o)
      (hp : place d.start.date = place c.start.date) : d = c :=
    (hdays d hd).2.eq_of_place hc h₀_orderly ((hdays d hd).1.trans hco.symm) hp
  obtain ⟨hagrees, hkept⟩ := applyDays_spec happly fun d hd d' hd' =>
    huniq hd (hdays d' hd').2 (hdays d' hd').1
  have hagrees' {c : DailyView α} (hc : h₀.Closing cutoff c) (hco : c.owner = o)
      (ha : w.Agrees c) : w'.Agrees c := by
    by_cases hp : ∃ d ∈ days, place d.start.date = place c.start.date
    · obtain ⟨d, hd, hp⟩ := hp
      rw [← huniq hd hc hco hp]
      exact hagrees d hd
    · exact ha.of_samePlace (hkept _ fun d hd hp' => hp ⟨d, hd, hp'⟩)
  refine ⟨?_, hagrees, hagrees'⟩
  obtain ⟨w₀, hw₀, hplaces⟩ := hw
  refine ⟨w₀, hw₀, fun p => ?_⟩
  by_cases hp : ∃ d ∈ days, place d.start.date = p
  · obtain ⟨d, hd, hp⟩ := hp
    exact .inr ⟨d, (hdays d hd).2, (hdays d hd).1, hp, hagrees d hd⟩
  · rcases hplaces p with hsame | ⟨c, hc, hco, hcp, ha⟩
    · exact .inl (hsame.trans (hkept p fun d hd hp' => hp ⟨d, hd, hp'⟩))
    · exact .inr ⟨c, hc, hco, hcp, hagrees' hc hco ha⟩

/-- In the beginning nothing was written. -/
theorem midway_refl (ho : h₀.Orderly) (cutoff : Instant) : Midway h₀ cutoff h₀ where
  began := ho
  orderly := ho
  others _ := rfl
  weeks _ hw := ⟨_, hw, fun _ => .inl ⟨fun _ => rfl, rfl⟩⟩
  days _ := .inl rfl

namespace Midway

/-- A day that is due has been due from the beginning. -/
theorem due (hm : Midway h₀ cutoff h) (hd : h.Due cutoff d) : h₀.Due cutoff d := by
  refine ⟨?_, hd.isOpen, hd.start_lt⟩
  have hstored := hd.stored
  by_cases hkey : ∃ c, h₀.Closing cutoff c ∧ d.id.key = c.id.key
  · obtain ⟨c, hc, hkey⟩ := hkey
    rw [hkey] at hstored ⊢
    rcases hm.days hc with hsame | ⟨⟨t, ht⟩, -⟩
    · rw [← hsame, hstored]
    · rw [ht] at hstored
      cases hstored
      exact absurd (hc.isSealed.symm.trans hd.isOpen) (by decide)
  · rw [← hm.others fun c hc => ⟨fun he => hkey ⟨c, hc, he⟩, fun he => ?_⟩]
    · exact hstored
    · exact (hm.orderly.get?_named hstored).1.weekly_key_ne _ _ he.symm

theorem closing (hm : Midway h₀ cutoff h) (hc : h.Closing cutoff c) : h₀.Closing cutoff c := by
  obtain ⟨d, hd, hdc⟩ := hc
  exact ⟨d, hm.due hd, hdc⟩

/-- Whatever is new is a week or a sealed day. -/
theorem settled_of_new (hm : Midway h₀ cutoff h) {key : String} {v : View α}
    (hv : h.store.get? key = some v) : h₀.store.get? key = some v ∨ v.Settled := by
  by_cases hday : ∃ c, h₀.Closing cutoff c ∧ key = c.id.key
  · obtain ⟨c, hc, rfl⟩ := hday
    rcases hm.days hc with hsame | ⟨⟨t, ht⟩, -⟩
    · exact .inl (hsame ▸ hv)
    · rw [ht] at hv
      cases hv
      exact .inr hc.isSealed
  by_cases hweek : ∃ c, h₀.Closing cutoff c ∧ key = c.weekKey
  · obtain ⟨c, -, rfl⟩ := hweek
    obtain ⟨hnamed, hkey⟩ := hm.orderly.get?_named hv
    obtain ⟨w, rfl, -⟩ := hnamed.eq_weekly hkey
    exact .inr trivial
  · rw [hm.others fun c hc => ⟨fun he => hday ⟨c, hc, he⟩, fun he => hweek ⟨c, hc, he⟩⟩] at hv
    exact .inl hv

/-- A window is as it was in the beginning, or it is a day that is sealed now. -/
theorem window_cases (hm : Midway h₀ cutoff h) (g : Granularity) (device : String) (t : Instant) :
    h.store.get? (g.id device t).key = h₀.store.get? (g.id device t).key ∨
      g = .daily ∧ ∃ d, h.store.get? (g.id device t).key = some (.daily d) ∧ d.isSealed = true := by
  by_cases hday : ∃ c, h₀.Closing cutoff c ∧ (g.id device t).key = c.id.key
  · obtain ⟨c, hc, hkey⟩ := hday
    rw [hkey]
    refine (hm.days hc).imp_right fun hsealed => ?_
    obtain ⟨⟨version, hd⟩, -⟩ := hsealed
    have hid : c.id = Granularity.daily.id c.device c.start := hc.named hm.began
    rw [hid] at hkey
    exact ⟨Granularity.eq_of_id_key_eq hkey, _, hd, hc.isSealed⟩
  · exact .inl (hm.others fun c hc =>
      ⟨fun he => hday ⟨c, hc, he⟩, (ViewId.weekly_key_ne_window _ _ _ g t).symm⟩)

/-- A sealed day is written back. -/
theorem put_day (hm : Midway h₀ cutoff h) (hc : h₀.Closing cutoff c)
    (hin : InFilled h₀ cutoff c h) : Midway h₀ cutoff (h.put i (.daily c)) := by
  have hnamed := hc.named hm.began
  have hweek (d : DailyView α) : (h.put i (.daily c)).store.get? d.weekKey =
      h.store.get? d.weekKey := h.get?_put_ne i (hnamed.weekly_key_ne _ _)
  refine ⟨hm.began, hm.orderly.put hnamed, fun {key} hkey => ?_, fun {c' w} hc' hw => ?_,
    fun {c'} hc' => ?_⟩
  · rw [← hm.others hkey]
    exact h.get?_put_ne i (hkey c hc).1
  · rw [Store.week?, ← DailyView.weekKey, hweek] at hw
    exact hm.weeks hc' hw
  · by_cases hkey : c'.id.key = c.id.key
    · obtain rfl := hc'.eq_of_key hc hkey
      exact .inr ⟨⟨_, h.get?_put_self i (.daily c')⟩, hin.of_eq (hweek c')⟩
    · have hsame : (h.put i (.daily c)).store.get? c'.id.key = h.store.get? c'.id.key :=
        h.get?_put_ne i hkey
      rw [hsame]
      exact (hm.days hc').imp_right fun hin' => ⟨hin'.1, hin'.2.of_eq (hweek c')⟩

/-- Some of the days that are due are written into their week. -/
theorem put_week (hm : Midway h₀ cutoff h) {o : String × IsoWeek} {days : List (DailyView α)}
    {w w' : WeeklyView α} (hne : days ≠ [])
    (hdays : ∀ d ∈ days, d.owner = o ∧ h₀.Closing cutoff d)
    (hw : h.store.week? o.1 o.2 = some w) (happly : Rollup.applyDays days w = .ok w') :
    (View.weekly w').key = (ViewId.weekly o.1 o.2).key ∧
      Midway h₀ cutoff (h.put i (.weekly w')) ∧
      ∀ d ∈ days, InFilled h₀ cutoff d (h.put i (.weekly w')) := by
  obtain ⟨hkey, ho, -, -⟩ := hm.orderly.put_week (i := i) hw
    (fun d hd => ⟨(hdays d hd).1, (hdays d hd).2.named hm.began⟩)
    (fun d hd d' hd' => (hdays d hd).2.eq_of_key (hdays d' hd').2) happly
  obtain ⟨d₀, hd₀⟩ := List.exists_mem_of_ne_nil days hne
  have hold : FilledFrom h₀ cutoff o w := by
    obtain ⟨rfl, hc⟩ := hdays d₀ hd₀
    exact hm.weeks hc hw
  obtain ⟨hfilled, hagrees, hkept⟩ := hold.applyDays hm.began hdays happly
  have hrecomputed := recomputed_applyDays happly hne
  have hstored {c : DailyView α} (hco : c.owner = o) : (h.put i (.weekly w')).store.get? c.weekKey =
      some (.weekly { w' with version := some h.store.freshVersion }) := by
    rw [DailyView.weekKey_eq_iff.2 hco, ← hkey]
    exact h.get?_put_self i (.weekly w')
  have hother {c : DailyView α} (hco : c.owner ≠ o) : (h.put i (.weekly w')).store.get? c.weekKey =
      h.store.get? c.weekKey :=
    h.get?_put_ne i fun he => hco (DailyView.weekKey_eq_iff.1 (he.trans hkey))
  have hin {c : DailyView α} (hco : c.owner = o) (ha : w'.Agrees c) :
      InFilled h₀ cutoff c (h.put i (.weekly w')) := by
    subst hco
    exact ⟨_, hstored rfl, hfilled, ⟨hrecomputed.metrics, hrecomputed.rain⟩, ha⟩
  refine ⟨hkey, ⟨hm.began, ho, fun {key} hk => ?_, fun {c w''} hc hw'' => ?_, fun {c} hc => ?_⟩,
    fun d hd => hin (hdays d hd).1 (hagrees d hd)⟩
  · rw [← hm.others hk]
    refine h.get?_put_ne i fun he => (hk d₀ (hdays d₀ hd₀).2).2 ?_
    rw [he, hkey, DailyView.weekKey_eq_iff.2 (hdays d₀ hd₀).1]
  · by_cases hco : c.owner = o
    · rw [Store.week?_of_some (hstored hco)] at hw''
      cases hw''
      subst hco
      exact hfilled
    · rw [Store.week?, ← DailyView.weekKey, hother hco] at hw''
      exact hm.weeks hc hw''
  · have hsame : (h.put i (.weekly w')).store.get? c.id.key = h.store.get? c.id.key := by
      refine h.get?_put_ne i fun he => ?_
      exact (hc.named hm.began).weekly_key_ne o.1 o.2 (hkey.symm.trans he.symm)
    rw [hsame]
    refine (hm.days hc).imp_right (And.imp_right fun hc' => ?_)
    by_cases hco : c.owner = o
    · obtain ⟨w₁, hw₁, -, -, ha⟩ := hc'
      rw [DailyView.weekKey_eq_iff.2 hco] at hw₁
      rw [Store.week?_of_some hw₁] at hw
      cases hw
      exact hin hco (hkept hc hco ha)
    · exact hc'.of_eq (hother hco)

end Midway

/-! ## When no days are left over -/

/-- No stored day is left that is due and can be closed. -/
def Swept (h : History ι α) (cutoff : Instant) : Prop := ∀ c, ¬ h.Closing cutoff c

namespace Midway

/-- All days that were due in the beginning are sealed in the end. -/
theorem sealed_of_swept (hm : Midway h₀ cutoff h) (hs : Swept h cutoff)
    (hc : h₀.Closing cutoff c) :
    (∃ t, h.store.get? c.id.key = some (.daily { c with version := t })) ∧
      InFilled h₀ cutoff c h :=
  (hm.days hc).resolve_left fun hsame => hs c (hc.of_eq hsame)

/-- A closed day fits into the week of its owner. -/
theorem takes_of_closing {w : WeeklyView α} (hc : h₀.Closing cutoff d)
    (hdevice : w.device = d.owner.1) (hweek : w.week = d.owner.2) : w.Takes d := by
  refine ⟨hdevice.symm, hweek.symm, hc.isSealed, ?_⟩
  obtain ⟨d', -, hdc⟩ := hc
  exact DailyView.summary_of_close hdc

/-- A week that owns days which were due has all of them in the end, as if they had been written into
    it in order. -/
theorem week_of_swept (hm : Midway h₀ cutoff h) (hs : Swept h cutoff) (hc : h₀.Closing cutoff c) :
    ∃ w₀ w t, h₀.store.week? c.owner.1 c.owner.2 = some w₀ ∧
      Rollup.applyDays ((h₀.closings cutoff).filter fun d => d.owner = c.owner) w₀ = .ok w ∧
      h.store.get? c.weekKey = some (.weekly { w with version := t }) := by
  have hmem {d : DailyView α} : d ∈ (h₀.closings cutoff).filter (fun d => d.owner = c.owner) ↔
      h₀.Closing cutoff d ∧ d.owner = c.owner := by
    rw [List.mem_filter, hm.began.sound.mem_closings, decide_eq_true_iff]
  obtain ⟨-, w', hw', ⟨w₀, hw₀, hplaces⟩, hrecomputed', -⟩ := hm.sealed_of_swept hs hc
  obtain ⟨hdevice, hweek, hid⟩ := hm.began.week?_named hw₀
  -- Closed days of the owner fit into its week.
  obtain ⟨w, hw⟩ : ∃ w, Rollup.applyDays
      ((h₀.closings cutoff).filter fun d => d.owner = c.owner) w₀ = .ok w := by
    refine exists_applyDays fun d hd => ?_
    obtain ⟨hclosing, ho⟩ := hmem.1 hd
    exact takes_of_closing hclosing (ho ▸ hdevice) (ho ▸ hweek)
  obtain ⟨hagrees, hkept⟩ := applyDays_spec hw fun d hd d' hd' =>
    (hmem.1 hd).1.eq_of_place (hmem.1 hd').1 hm.began ((hmem.1 hd).2.trans (hmem.1 hd').2.symm)
  have hsame := applyDays_sameWeek hw
  have hrecomputed := recomputed_applyDays hw (List.ne_nil_of_mem (hmem.2 ⟨hc, rfl⟩))
  have hplace (p : Fin 7) : SamePlace p w w' := by
    by_cases hp : ∃ d, h₀.Closing cutoff d ∧ d.owner = c.owner ∧ place d.start.date = p
    · obtain ⟨d, hd, ho, rfl⟩ := hp
      obtain ⟨-, w₁, hw₁, -, -, ha⟩ := hm.sealed_of_swept hs hd
      rw [DailyView.weekKey_eq_iff.2 ho, ← DailyView.weekKey, hw'] at hw₁
      cases hw₁
      exact (hagrees d (hmem.2 ⟨hd, ho⟩)).samePlace ha
    · have hold : SamePlace p w₀ w' := by
        refine (hplaces p).resolve_right ?_
        rintro ⟨d, hd, ho, hdp, -⟩
        exact hp ⟨d, hd, ho, hdp⟩
      exact (hkept p fun d hd hdp => hp ⟨d, (hmem.1 hd).1, (hmem.1 hd).2, hdp⟩).symm.trans hold
  refine ⟨w₀, w, w'.version, hw₀, hw, ?_⟩
  obtain ⟨hdevice', hweek', hid'⟩ := hm.orderly.week?_named (Store.week?_of_some hw')
  rw [hw']
  refine congrArg (fun w => some (View.weekly w)) (eq_of_samePlace ⟨?_, ?_, ?_, rfl⟩ hplace
    ⟨hrecomputed.metrics, hrecomputed.rain⟩ hrecomputed')
  · show w'.id = w.id
    rw [hid', hsame.id, hid, hdevice, hdevice', hweek, hweek']
  · exact hdevice'.trans (hsame.device.trans hdevice).symm
  · exact hweek'.trans (hsame.week.trans hweek).symm

/-- When no days are left over, the views are the same, whatever the order of the writes was. -/
theorem sameViews (hm : Midway h₀ cutoff h) (hs : Swept h cutoff) (hm' : Midway h₀ cutoff h')
    (hs' : Swept h' cutoff) : h.store.SameViews h'.store := by
  intro key
  by_cases hday : ∃ c, h₀.Closing cutoff c ∧ key = c.id.key
  · obtain ⟨c, hc, rfl⟩ := hday
    obtain ⟨⟨t, ht⟩, -⟩ := hm.sealed_of_swept hs hc
    obtain ⟨⟨t', ht'⟩, -⟩ := hm'.sealed_of_swept hs' hc
    rw [ht, ht']
    rfl
  by_cases hweek : ∃ c, h₀.Closing cutoff c ∧ key = c.weekKey
  · obtain ⟨c, hc, rfl⟩ := hweek
    obtain ⟨w₀, w, t, hw₀, hw, ht⟩ := hm.week_of_swept hs hc
    obtain ⟨w₀', w', t', hw₀', hw', ht'⟩ := hm'.week_of_swept hs' hc
    rw [hw₀, Option.some_inj] at hw₀'
    subst hw₀'
    rw [hw, Except.ok.injEq] at hw'
    subst hw'
    rw [ht, ht']
    rfl
  · have hkey (c : DailyView α) (hc : h₀.Closing cutoff c) : key ≠ c.id.key ∧ key ≠ c.weekKey :=
      ⟨fun he => hday ⟨c, hc, he⟩, fun he => hweek ⟨c, hc, he⟩⟩
    rw [hm.others hkey, hm'.others hkey]

end Midway

/-! ## Terms -/

/-- The terms of the writer of one week in a sweep that has the store to itself: it leaves everything
    else alone, and so do the others with its week. -/
def partTerms (i : ι) (inv : History ι α → Prop) (faulty : Prop) (o : String × IsoWeek) :
    Terms ι α where
  client := i
  inv := inv
  rely h h' := h.log <+: h'.log ∧ SameAt (NotOther o) h h'
  grant h h' := h.log <+: h'.log ∧ SameAt (· ≠ (ViewId.weekly o.1 o.2).key) h h'
  faulty := faulty
  rely_refl h := ⟨List.prefix_refl _, .refl _ h⟩
  rely_trans h₁ h₂ := ⟨h₁.1.trans h₂.1, h₁.2.trans h₂.2⟩
  grant_refl h := ⟨List.prefix_refl _, .refl _ h⟩

variable {inv : History ι α → Prop} {faulty : Prop}

omit [Quantity α] in
theorem partTerms_fits (o : String × IsoWeek) :
    (partTerms i inv faulty o).Fits (Terms.lone i inv faulty) :=
  ⟨rfl, rfl, fun hr => hr ▸ ⟨List.prefix_refl _, .refl _ _⟩, fun _ => trivial, id⟩

omit [Quantity α] in
theorem partTerms_apart {o o' : String × IsoWeek} (ho : o ≠ o') :
    (partTerms i inv faulty o).Apart (partTerms i inv faulty o') :=
  ⟨fun _ _ hg => ⟨hg.1, fun key hk => hg.2 key (hk o ho)⟩,
    fun _ _ hg => ⟨hg.1, fun key hk => hg.2 key (hk o' ho.symm)⟩⟩

omit [Quantity α] in
theorem notOther_weekKey (d : DailyView α) : NotOther d.owner d.weekKey :=
  fun _ ho he => ho (DailyView.weekKey_eq_iff.1 he).symm

/-- A sweep that has the store to itself, after others that may have broken off. -/
theorem maySweep_midway (i : ι) (h₀ : History ι α) (cutoff : Instant) (faulty : Prop) :
    MaySweep (Terms.lone i (Midway h₀ cutoff) faulty) (partTerms i (Midway h₀ cutoff) faulty)
      (fun c _ => h₀.Closing cutoff c) (fun c h => h₀.Closing cutoff c ∧ InFilled h₀ cutoff c h)
      cutoff where
  fits := partTerms_fits
  apart := partTerms_apart
  sound hi := hi.orderly.sound
  grows hr := hr.1
  known_rely _ _ hc := hc
  ready_rely {d} _ _ _ hr hc := ⟨hc.1, hc.2.of_eq (hr.2 _ (notOther_weekKey d))⟩
  write {h days w w' o} hi hne hdays _ hw happly := by
    obtain ⟨hkey, hm, hin⟩ := hi.put_week (i := i) hne hdays hw happly
    exact ⟨hm, ⟨List.prefix_append _ _, fun key hk => h.get?_put_ne i fun he => hk (he.trans hkey)⟩,
      fun d hd => ⟨(hdays d hd).2, hin d hd⟩⟩
  read hi hc := hi.closing hc
  write_day {h c} hi hc _ := by
    refine ⟨hi.put_day hc.1 hc.2, trivial, fun c' hc' => ⟨hc'.1, hc'.2.of_eq ?_⟩⟩
    exact h.get?_put_ne i ((hc.1.named hi.began).weekly_key_ne _ _)

end Sweep

end WeatherStation
