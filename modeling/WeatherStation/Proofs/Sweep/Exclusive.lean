import WeatherStation.Proofs.Sweep.Places
import WeatherStation.Proofs.Sweep.Portions

/-!
# Sweeps that do not overlap

While a sweep is under way, readings may change open days, but nobody else seals a day or writes a
week. So a day that the sweep still finds in the state in which it has read it has its place in its
week. What is known of the sealed days is a property `P` that follows from this.

Results:
* `Sweep.FollowsWeek`: the properties that may be known of sealed days.
* `Sweep.readingTerms`, `Sweep.sweepTerms`: the terms of readings and of sweeps.
* `Sweep.apply_safe_alone`: readings keep theirs.
* `Sweep.execute_safe_alone`: sweeps keep theirs.
-/

namespace WeatherStation

variable {ι α : Type}

namespace History

/-- Weeks and sealed days under some keys are the same. -/
def SameSettledAt (p : String → Prop) (h h' : History ι α) : Prop :=
  ∀ key, p key → ∀ v, v.Settled → (h.store.get? key = some v ↔ h'.store.get? key = some v)

theorem SameSettledAt.refl (p : String → Prop) (h : History ι α) : SameSettledAt p h h :=
  fun _ _ _ _ => Iff.rfl

theorem SameSettledAt.trans {p : String → Prop} {h h' h'' : History ι α}
    (hs : SameSettledAt p h h') (hs' : SameSettledAt p h' h'') : SameSettledAt p h h'' :=
  fun key hk v hv => (hs key hk v hv).trans (hs' key hk v hv)

theorem SameSettledAt.mono {p q : String → Prop} {h h' : History ι α} (hs : SameSettledAt p h h')
    (hpq : ∀ key, q key → p key) : SameSettledAt q h h' := fun key hk => hs key (hpq key hk)

theorem SameSettled.at {h h' : History ι α} (hs : SameSettled h h') (p : String → Prop) :
    SameSettledAt p h h' := fun key _ => hs key

theorem sameSettledAt_put (h : History ι α) (i : ι) {v : View α} {p : String → Prop}
    (hp : ¬ p v.key) : SameSettledAt p h (h.put i v) := by
  intro key hk u _
  have hne : key ≠ v.key := fun he => hp (he ▸ hk)
  rw [get?_put, if_neg hne]

end History

variable [Quantity α]

namespace Sweep

open History

/-- A property that follows from the agreement of a day with its week, and is lost only with it. -/
structure FollowsWeek (P : History ι α → DailyView α → Prop) : Prop where
  of_inWeek : ∀ {h d}, h.InWeek d → P h d
  keep : ∀ {h h' d}, (h.InWeek d → h'.InWeek d) → P h d → P h' d

theorem followsWeek_inWeek : FollowsWeek (InWeek (ι := ι) (α := α)) := ⟨id, fun h => h⟩

variable (P : History ι α → DailyView α → Prop)

/-- A reading leaves weeks and sealed days alone. -/
def readingTerms (i : ι) : Terms ι α where
  client := i
  inv := RolledUp P
  rely h h' := h.log <+: h'.log
  grant h h' := h.log <+: h'.log ∧ h.SameSettled h'
  rely_refl := History.grows_refl
  rely_trans := @History.grows_trans ι α
  grant_refl h := ⟨List.prefix_refl _, .refl h⟩

/-- A sweep relies on nobody else writing weeks or sealing days. -/
def sweepTerms (i : ι) : Terms ι α where
  client := i
  inv := RolledUp P
  rely h h' := h.log <+: h'.log ∧ h.SameSettled h'
  grant h h' := h.log <+: h'.log
  rely_refl h := ⟨List.prefix_refl _, .refl h⟩
  rely_trans h₁ h₂ := ⟨h₁.1.trans h₂.1, h₁.2.trans h₂.2⟩
  grant_refl := History.grows_refl

/-- The key is not that of any week but one. -/
def NotOther (o : String × IsoWeek) (key : String) : Prop :=
  ∀ o' ≠ o, key ≠ (ViewId.weekly o'.1 o'.2).key

/-- The writer of one week leaves everything else alone that is a week or a sealed day. -/
def weekTerms (i : ι) (o : String × IsoWeek) : Terms ι α where
  client := i
  inv := RolledUp P
  rely h h' := h.log <+: h'.log ∧ SameSettledAt (NotOther o) h h'
  grant h h' := h.log <+: h'.log ∧ SameSettledAt (· ≠ (ViewId.weekly o.1 o.2).key) h h'
  rely_refl h := ⟨List.prefix_refl _, .refl _ h⟩
  rely_trans h₁ h₂ := ⟨h₁.1.trans h₂.1, h₁.2.trans h₂.2⟩
  grant_refl h := ⟨List.prefix_refl _, .refl _ h⟩

variable {P}

omit [Quantity α] in
theorem weekTerms_apart (i : ι) {o o' : String × IsoWeek} (ho : o ≠ o') :
    (weekTerms P i o).Apart (weekTerms P i o') :=
  ⟨fun _ _ hg => ⟨hg.1, hg.2.mono fun _ hk => hk o ho⟩,
    fun _ _ hg => ⟨hg.1, hg.2.mono fun _ hk => hk o' ho.symm⟩⟩

theorem apply_safe_alone (hP : FollowsWeek P) (i : ι) (settings : IngestSettings) (r : Reading α)
    (h : History ι α) :
    Client.Safe (readingTerms P i) (fun _ _ => True) (Ingest.apply settings r) h := by
  refine Program.Safe.mono (Ingest.apply_safe_of_settled RolledUp.orderly id
    (fun {h v} hi ho hs => ?_) settings r h) fun _ _ _ _ => trivial
  exact ⟨RolledUp.of_sameSettled hi ho hs fun _ hd => hP.keep (fun hin => hin.of_sameSettled hs) hd,
    List.prefix_append _ _, hs⟩

/-- A day that the sweep has sealed in memory, and that is open in the store. -/
def PendingDay (c : DailyView α) (h : History ι α) : Prop :=
  (View.daily c).Named ∧ ∀ d, h.store.get? c.id.key = some (.daily d) → d.isSealed = false

/-- A day whose week agrees with it. -/
def ReadyDay (c : DailyView α) (h : History ι α) : Prop := (View.daily c).Named ∧ h.InWeek c

omit [Quantity α] in
theorem PendingDay.of_sameSettledAt {o : String × IsoWeek} {c : DailyView α} {h h' : History ι α}
    (hc : PendingDay c h) (hs : SameSettledAt (NotOther o) h h') : PendingDay c h' := by
  refine ⟨hc.1, fun d hd => Bool.eq_false_iff.2 fun hsealed => ?_⟩
  have hkey : NotOther o c.id.key := fun o' _ he => hc.1.weekly_key_ne o'.1 o'.2 he.symm
  have hsealed' := hc.2 d ((hs c.id.key hkey (.daily d) hsealed).2 hd)
  rw [hsealed'] at hsealed
  cases hsealed

theorem ReadyDay.of_sameSettledAt {c : DailyView α} {h h' : History ι α} (hc : ReadyDay c h)
    (hs : SameSettledAt (NotOther c.owner) h h') : ReadyDay c h' := by
  obtain ⟨hnamed, w, hw, ha⟩ := hc
  have hkey : NotOther c.owner c.weekKey := fun o' ho' he =>
    ho' (DailyView.weekKey_eq_iff.1 he).symm
  exact ⟨hnamed, w, (hs c.weekKey hkey (.weekly w) trivial).1 hw, ha⟩

theorem maySweep_alone (hP : FollowsWeek P) (i : ι) (cutoff : Instant) :
    MaySweep (α := α) (sweepTerms P i) (weekTerms P i) PendingDay ReadyDay cutoff where
  fits o := ⟨rfl, rfl, fun hr => ⟨hr.1, hr.2.at _⟩, fun hg => hg.1, id⟩
  apart ho := weekTerms_apart i ho
  sound hi := hi.orderly.sound
  grows hr := hr.1
  known_rely _ hr hd := hd.of_sameSettledAt hr.2
  ready_rely _ hr hd := hd.of_sameSettledAt hr.2
  write {h days w w' o} hi _ hdays huniq hw happly := by
    obtain ⟨hkey, ho, hnew, hkept⟩ := hi.orderly.put_week (i := i) hw
      (fun d hd => ⟨(hdays d hd).1, (hdays d hd).2.1⟩) huniq happly
    refine ⟨hi.put ho (fun d hd => by cases hd) fun d hd hsealed hd' =>
        hP.keep (fun hin => hkept d hin ?_) hd',
      ⟨List.prefix_append _ _, sameSettledAt_put h i fun hne => hne hkey⟩,
      fun d hd => ⟨(hdays d hd).2.1, hnew d hd⟩⟩
    -- A day of the portion is still open, so none of them takes the place of a sealed day.
    intro c hc hdevice hdate
    have hcd := (hdays c hc).2.1.key_of_same_day (hi.orderly.get?_named hd).1 hdevice hdate
    have hopen := (hdays c hc).2.2 d (hcd ▸ hd)
    rw [hopen] at hsealed
    cases hsealed
  read {h c} hi hc := by
    refine ⟨hc.named hi.orderly, fun d' hd' => ?_⟩
    obtain ⟨d, hd, hc⟩ := hc
    rw [(DailyView.close_frame hc).2.id, hd.stored] at hd'
    cases hd'
    exact hd.isOpen
  write_day {h c} hi hc _ := by
    have hkept (d : DailyView α) (hd : h.InWeek d) : (h.put i (.daily c)).InWeek d :=
      (inWeek_put_day hc.1).2 hd
    refine ⟨hi.put (hi.orderly.put hc.1) (fun d hd => ?_) fun d _ _ hd => hP.keep (hkept d) hd,
      List.prefix_append _ _, fun c' hc' => ⟨hc'.1, hkept c' hc'.2⟩⟩
    cases hd
    exact hP.of_inWeek (hkept c hc.2)

/-- A sweep that does not overlap with another one. -/
theorem execute_safe_alone (hP : FollowsWeek P) (i : ι) (settings : SweepSettings)
    {schedule : Rollup.Schedule α (Except RollupError String)}
    (hweave : ∀ ps, Program.Weave ps (schedule ps)) (limit : ℕ) (lookbackHours : UInt32)
    (h : History ι α) :
    Client.Safe (sweepTerms P i) (fun _ _ => True)
      (execute settings schedule limit lookbackHours) h :=
  execute_safe (maySweep_alone hP i) hweave limit lookbackHours

end Sweep

end WeatherStation
