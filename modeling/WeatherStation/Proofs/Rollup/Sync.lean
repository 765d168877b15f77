import WeatherStation.Proofs.SortedMap
import WeatherStation.Proofs.Traffic.Weave
import WeatherStation.Proofs.View.Keys
import WeatherStation.Proofs.View.Weeks

/-!
# Weeks on a shared store

What the rollup of some days does on a store that others use, too: days are grouped by the weeks
that own them, and each week is read, written in memory and written back under the condition that
nobody wrote it in between.

Results:
* `Rollup.mem_group`: the days of a group are the days that its week owns.
* `Rollup.syncWeek_safe`: one week; every write applies the days to what is stored.
* `Rollup.weeks_safe`: all weeks, side by side, each with its own result.
* `Rollup.syncDays_safe`: what is known when all of them succeed.
-/

namespace WeatherStation

variable {ι α : Type}

/-- The week of a device: the stored one, or one without days. There is none where the key holds a
    view of another kind. -/
def Store.week? (s : Store α) (device : String) (week : IsoWeek) : Option (WeeklyView α) :=
  match s.get? (ViewId.weekly device week).key with
  | none => some (.empty device week)
  | some v => v.ofKind? .weekly

/-- The device and the week that a day belongs to. -/
def DailyView.owner (d : DailyView α) : String × IsoWeek := (d.device, IsoWeek.of d.start.date)

/-- The key of the week that a day belongs to. -/
def DailyView.weekKey (d : DailyView α) : String := (ViewId.weekly d.owner.1 d.owner.2).key

theorem DailyView.weekKey_eq_iff {d : DailyView α} {o : String × IsoWeek} :
    d.weekKey = (ViewId.weekly o.1 o.2).key ↔ d.owner = o := by
  constructor
  · intro h
    obtain ⟨hdevice, hweek⟩ := ViewId.weekly_key_inj h
    exact Prod.ext hdevice hweek
  · rintro rfl
    rfl

theorem View.eq_weekly_of_ofKind? {v : View α} {w : WeeklyView α}
    (h : v.ofKind? .weekly = some w) : v = .weekly w := by
  cases v <;> cases h
  rfl

namespace Store

variable {s : Store α} {device : String} {week : IsoWeek}

theorem week?_of_none (h : s.get? (ViewId.weekly device week).key = none) :
    s.week? device week = some (.empty device week) := by
  rw [week?, h]

theorem week?_of_some {v : View α} (h : s.get? (ViewId.weekly device week).key = some v) :
    s.week? device week = v.ofKind? .weekly := by
  rw [week?, h]

end Store

/-- A week is found under its own key. -/
theorem History.Sound.key_of_week? {h : History ι α} (hs : h.Sound) {device : String}
    {week : IsoWeek} {w : WeeklyView α} (hw : h.store.week? device week = some w) :
    w.id.key = (ViewId.weekly device week).key := by
  cases hv : h.store.get? (ViewId.weekly device week).key with
  | none =>
    rw [Store.week?_of_none hv] at hw
    cases hw
    rfl
  | some v =>
    rw [Store.week?_of_some hv] at hw
    rw [View.eq_weekly_of_ofKind? hw] at hv
    exact (hs.get?_recorded hv).1

/-- A failure that names a week and a number of attempts names these. -/
def RollupError.IsOf (device : String) (week : IsoWeek) (attempts : ℕ) : RollupError → Prop
  | .retriesExhausted device' week' attempts' =>
    device' = device ∧ week' = week ∧ attempts' = attempts
  | _ => True

namespace Rollup

/-- The week that a look at its key gave, and the version to expect under the key. -/
theorem week?_of_found {h : History ι α} {device : String} {week : IsoWeek}
    {stored : Option (WeeklyView α)}
    (hf : Client.Found (View.ofKind? .weekly) (ViewId.weekly device week).key (.ok stored) h) :
    h.store.week? device week = some (stored.getD (.empty device week)) ∧
      (h.store.get? (ViewId.weekly device week).key).bind View.version =
        (stored.getD (.empty device week)).version := by
  cases stored with
  | none =>
    have hf : h.store.get? (ViewId.weekly device week).key = none := hf
    exact ⟨Store.week?_of_none hf, by rw [hf]; rfl⟩
  | some w =>
    obtain ⟨v, hv, hw⟩ := hf
    refine ⟨by rw [Store.week?_of_some hv, hw]; rfl, ?_⟩
    rw [hv, View.eq_weekly_of_ofKind? hw]
    rfl

/-! ## Groups -/

theorem getD_find?_group (days : List (DailyView α)) (o : String × IsoWeek) :
    ((group days).find? o).getD [] = days.filter fun d => d.owner = o := by
  induction days using List.reverseRecOn with
  | nil => rfl
  | append_singleton days d ih =>
    have hstep : group (days ++ [d]) =
        (group days).insert d.owner (((group days).find? d.owner).getD [] ++ [d]) := by
      simp [group, DailyView.owner]
    rw [hstep, List.filter_append, ← ih]
    by_cases ho : o = d.owner
    · subst ho
      simp
    · rw [SortedMap.find?_insert_ne _ ho]
      simp [Ne.symm ho]

/-- The days of a group are the days that its week owns, in the order given. -/
theorem eq_of_mem_group {days ds : List (DailyView α)} {o : String × IsoWeek}
    (h : (o, ds) ∈ (group days).entries) : ds = days.filter fun d => d.owner = o := by
  rw [← getD_find?_group, (group days).mem_entries_iff.1 h, Option.getD_some]

theorem mem_group {days ds : List (DailyView α)} {o : String × IsoWeek}
    (h : (o, ds) ∈ (group days).entries) {d : DailyView α} : d ∈ ds ↔ d ∈ days ∧ d.owner = o := by
  rw [eq_of_mem_group h]
  simp

/-- No group is empty. -/
theorem ne_nil_of_mem_group {days : List (DailyView α)}
    {e : (String × IsoWeek) × List (DailyView α)} (he : e ∈ (group days).entries) : e.2 ≠ [] := by
  have hmem : e.2 ∈ (group days).values := List.mem_map_of_mem he
  clear he
  induction days using List.reverseRecOn with
  | nil => cases hmem
  | append_singleton days d ih =>
    rw [group, List.foldl_append] at hmem
    rcases SortedMap.mem_values_insert hmem with he | hmem
    · simp [he]
    · exact ih hmem

/-- There is a group for each week that owns some of the days. -/
theorem mem_keys_group {days : List (DailyView α)} {o : String × IsoWeek} :
    o ∈ (group days).keys ↔ (days.filter fun d => d.owner = o) ≠ [] := by
  constructor
  · intro ho
    obtain ⟨e, he, rfl⟩ := List.mem_map.1 ho
    rw [← eq_of_mem_group he]
    exact ne_nil_of_mem_group he
  · intro hne
    rw [SortedMap.mem_keys_iff]
    cases hf : (group days).find? o with
    | some ds => exact ⟨ds, rfl⟩
    | none =>
      rw [← getD_find?_group, hf] at hne
      exact absurd rfl hne

/-- Every day is in a group. -/
theorem exists_group {days : List (DailyView α)} {d : DailyView α} (hd : d ∈ days) :
    ∃ ds, (d.owner, ds) ∈ (group days).entries ∧ d ∈ ds := by
  have hmem : d ∈ days.filter fun d' => d'.owner = d.owner := List.mem_filter.2 ⟨hd, by simp⟩
  obtain ⟨e, he, ho⟩ := List.mem_map.1 (mem_keys_group.2 (List.ne_nil_of_mem hmem))
  rw [← ho]
  exact ⟨e.2, he, (mem_group he).2 ⟨hd, ho.symm⟩⟩

/-! ## One week -/

variable [Quantity α] {T : Terms ι α} {settings : SweepSettings} {device : String} {week : IsoWeek}
  {days : List (DailyView α)} {h : History ι α}

/-- From `h` on, the terms let the client write some days into a week, and `post` holds then. -/
structure MaySync (T : Terms ι α) (device : String) (week : IsoWeek) (days : List (DailyView α))
    (post : History ι α → Prop) (h : History ι α) : Prop where
  sound : ∀ {h}, T.inv h → h.Sound
  grows : ∀ {h h'}, T.rely h h' → h.log <+: h'.log
  write : ∀ {h' w w'}, T.inv h' → T.rely h h' → h'.store.week? device week = some w →
    applyDays days w = .ok w' →
      T.inv (h'.put T.client (.weekly w')) ∧ T.grant h' (h'.put T.client (.weekly w')) ∧
        T.Lasts post (h'.put T.client (.weekly w'))

/-- From `h` on, nothing keeps the client from writing some days into a week: no call is refused,
    nobody else writes the week, and it takes the days. -/
structure Unhindered (T : Terms ι α) (device : String) (week : IsoWeek) (days : List (DailyView α))
    (h : History ι α) : Prop where
  served : ¬ T.faulty
  stays : ∀ {h₁ h₂}, T.rely h₁ h₂ →
    h₂.store.get? (ViewId.weekly device week).key = h₁.store.get? (ViewId.weekly device week).key
  takes : ∀ {h'}, T.inv h' → T.rely h h' →
    ∃ w w', h'.store.week? device week = some w ∧ applyDays days w = .ok w'

/-- What holds of the outcome of a week: if it was written, `post` holds, and otherwise nothing was
    written because something was in the way. -/
def Synced (T : Terms ι α) (settings : SweepSettings) (device : String) (week : IsoWeek)
    (days : List (DailyView α)) (post : History ι α → Prop) (h : History ι α)
    (x : Except RollupError String) (h' : History ι α) : Prop :=
  match x with
  | .ok key => key = (ViewId.weekly device week).key ∧ post h'
  | .error e => e.IsOf device week settings.attempts ∧ T.rely h h' ∧
    ¬ Unhindered T device week days h

/-- A week keeps its key when days are written into it. -/
theorem key_of_applyDays (hs : h.Sound) {w w' : WeeklyView α}
    (hw : h.store.week? device week = some w) (happly : applyDays days w = .ok w') :
    (View.weekly w').key = (ViewId.weekly device week).key := by
  change w'.id.key = _
  rw [(WeeklyView.applyDays_sameWeek happly).id, hs.key_of_week? hw]

/-- One attempt: nothing is written, or the days are written into what is stored. -/
theorem attemptWeek_safe {post : History ι α → Prop} (ht : MaySync T device week days post h)
    (attempts : ℕ) :
    Client.Safe T (fun x h' => match x with
        | .ok (.ok _) => post h'
        | .ok (.error _) => T.rely h h' ∧ ¬ Unhindered T device week days h
        | .error e => e.IsOf device week attempts ∧ T.rely h h' ∧
          ¬ Unhindered T device week days h) (attemptWeek device week days) h := by
  refine Client.safe_getAs_bind (fun stored h₀ h' hi₀ hr₀ hr' hf => ?_)
    fun e h₀ h' hi₀ hr₀ hr' hf => ⟨trivial, T.rely_trans hr₀ hr', fun hu => ?_⟩
  swap
  · obtain ⟨v, hv, hkind⟩ := hf.resolve_right hu.served
    obtain ⟨w, -, hw, -⟩ := hu.takes hi₀ hr₀
    rw [Store.week?_of_some hv, hkind] at hw
    cases hw
  obtain ⟨hw, hversion⟩ := week?_of_found hf
  generalize stored.getD (.empty device week) = w at hw hversion ⊢
  have hrefused {h₁ : History ι α} (hr₁ : T.rely h' h₁) : T.Lasts (T.rely h) h₁ :=
    fun h'' _ hr => T.rely_trans hr₀ (T.rely_trans hr' (T.rely_trans hr₁ hr))
  refine Client.safe_compute_bind (fun w' hw' => ?_) fun e he => ?_
  swap
  · obtain ⟨e', he', rfl⟩ := mapError_eq_error he
    refine fun h'' hi'' hr'' => ⟨trivial, hrefused (T.rely_refl h') h'' hi'' hr'', fun hu => ?_⟩
    obtain ⟨w₀, w', hw₀, hw'⟩ := hu.takes hi₀ hr₀
    rw [hw, Option.some_inj] at hw₀
    rw [hw₀, hw'] at he'
    cases he'
  have happly := mapError_eq_ok hw'
  have hkey : (View.weekly w').key = (ViewId.weekly device week).key :=
    key_of_applyDays (ht.sound hi₀) hw happly
  rw [← hkey, ← (WeeklyView.applyDays_sameWeek happly).version] at hversion
  refine Client.safe_writeBack ht.sound ht.grows hi₀ hr' hversion (fun h₁ hi₁ hr₁ hstored => ?_)
    fun e h₁ _ hr₁ hlost h'' hi'' hr'' => ⟨hrefused hr₁ h'' hi'' hr'', fun hu => ?_⟩
  swap
  · rw [hkey] at hlost
    exact hlost.resolve_right hu.served (hu.stays (T.rely_trans hr' hr₁))
  rw [hkey] at hstored
  obtain ⟨hi₂, hg, hp⟩ := ht.write hi₁ (T.rely_trans hr₀ hr₁)
    (by rw [Store.week?, hstored]; exact hw) happly
  exact ⟨hi₂, hg, fun _ => hp⟩

/-- One week, whatever the number of attempts. -/
theorem syncWeek_safe {post : History ι α → Prop} (retries : ℕ)
    (ht : MaySync T device week days post h) :
    Client.Safe T (Synced T settings device week days post h)
      (syncWeek settings device week days retries) h := by
  induction retries generalizing h with
  | zero =>
    refine Client.safe_bind (attemptWeek_safe ht settings.attempts) (fun x h' _ hx => ?_)
      fun e h' _ he => he
    cases x with
    | ok version => exact Client.safe_pure (hx.mono fun _ _ hx => ⟨rfl, hx⟩)
    | error e =>
      refine Client.safe_throw (hx.mono fun _ _ hx => ⟨?_, hx⟩)
      split_ifs
      · exact ⟨rfl, rfl, rfl⟩
      · trivial
  | succ retries ih =>
    refine Client.safe_bind (attemptWeek_safe ht settings.attempts) (fun x h' hi hx => ?_)
      fun e h' _ he => he
    cases x with
    | ok version => exact Client.safe_pure (hx.mono fun _ _ hx => ⟨rfl, hx⟩)
    | error e =>
      obtain ⟨hr, hu⟩ := hx.now hi
      dsimp only
      split_ifs
      · refine Client.safe_lift_bind (P := fun _ => T.rely h') (Client.safe_look (fun _ _ _ => rfl)
          fun h₁ hi₁ hr₁ _ _ _ h₂ _ hr₂ => T.rely_trans hr₁ hr₂) fun _ h₁ hi₁ hr₁ => ?_
        have hr₁ : T.rely h h₁ := T.rely_trans hr (hr₁.now hi₁)
        refine Program.Safe.mono (ih ⟨ht.sound, ht.grows, fun hi₂ hr₂ =>
          ht.write hi₂ (T.rely_trans hr₁ hr₂)⟩) fun x h₂ _ hx => ?_
        cases x with
        | ok key => exact hx
        | error e => exact ⟨hx.1, T.rely_trans hr₁ hx.2.1, hu⟩
      · exact Client.safe_throw (hx.mono fun _ _ hx => ⟨trivial, hx⟩)

/-! ## All weeks -/

/-- The terms of a rollup and of its weeks: what is known of a day before, and what holds of it once
    its week has it. -/
structure MayRoll (T : Terms ι α) (part : String × IsoWeek → Terms ι α)
    (known ready : DailyView α → History ι α → Prop) : Prop where
  fits : ∀ o, (part o).Fits T
  apart : ∀ {o o'}, o ≠ o' → (part o).Apart (part o')
  sound : ∀ {h}, T.inv h → h.Sound
  grows : ∀ {o h h'}, (part o).rely h h' → h.log <+: h'.log
  known_rely : ∀ {o d h h'}, T.inv h' → (part o).rely h h' → known d h → known d h'
  ready_rely : ∀ {d h h'}, T.inv h' → (part d.owner).rely h h' → ready d h → ready d h'
  write : ∀ {h days w w'} {o : String × IsoWeek}, T.inv h → days ≠ [] →
    (∀ d ∈ days, d.owner = o ∧ known d h) → (∀ d ∈ days, ∀ d' ∈ days, d.id.key = d'.id.key → d = d') →
    h.store.week? o.1 o.2 = some w → applyDays days w = .ok w' →
      T.inv (h.put T.client (.weekly w')) ∧ (part o).grant h (h.put T.client (.weekly w')) ∧
        ∀ d ∈ days, ready d (h.put T.client (.weekly w'))

section

variable {part : String × IsoWeek → Terms ι α} {known ready : DailyView α → History ι α → Prop}

/-- When the week of a group is written, the days of the group are ready. -/
theorem syncGroup_safe (hm : MayRoll T part known ready) (hknown : ∀ d ∈ days, known d h)
    (huniq : ∀ d ∈ days, ∀ d' ∈ days, d.id.key = d'.id.key → d = d')
    {e : (String × IsoWeek) × List (DailyView α)} (he : e ∈ (group days).entries) :
    Client.Safe (part e.1)
      (Synced (part e.1) settings e.1.1 e.1.2 e.2 (fun h' => ∀ d ∈ e.2, ready d h') h)
      (syncWeek settings e.1.1 e.1.2 e.2 (settings.attempts - 1)) h := by
  have hmem {d : DailyView α} (hd : d ∈ e.2) : d ∈ days ∧ d.owner = e.1 := (mem_group he).1 hd
  have hfit := hm.fits e.1
  refine syncWeek_safe _ ⟨fun hi => hm.sound (hfit.inv ▸ hi), hm.grows, fun hi hr hw happly => ?_⟩
  obtain ⟨hi', hg, hready⟩ := hm.write (hfit.inv ▸ hi) (ne_nil_of_mem_group he)
    (fun d hd => ⟨(hmem hd).2, hm.known_rely (hfit.inv ▸ hi) hr (hknown d (hmem hd).1)⟩)
    (fun d hd d' hd' => huniq d (hmem hd).1 d' (hmem hd').1) hw happly
  rw [hfit.client, hfit.inv]
  refine ⟨hi', hg, fun h'' hi'' hr' d hd => hm.ready_rely (hfit.inv ▸ hi'') ?_ (hready d hd)⟩
  rw [(hmem hd).2]
  exact hr'

/-- The weeks of some days, side by side: the results are those of the groups, in the order in which
    they finish. What the weeks leave alone stays. -/
theorem weeks_safe (hfits : ∀ o, (part o).Fits T)
    (hapart : ∀ {o o'}, o ≠ o' → (part o).Apart (part o'))
    {schedule : Schedule α (Except RollupError String)}
    (hweave : ∀ ps, Program.Weave ps (schedule ps))
    {post : (String × IsoWeek) × List (DailyView α) → Except RollupError String → History ι α → Prop}
    (hgroups : ∀ e ∈ (group days).entries, Client.Safe (part e.1) (post e)
      (syncWeek settings e.1.1 e.1.2 e.2 (settings.attempts - 1)) h)
    {F : History ι α → Prop} (hF : F h) (hrely : ∀ h h', T.rely h h' → F h → F h')
    (hgrant : ∀ o h h', (part o).grant h h' → F h → F h') :
    (schedule (tasks settings days)).Safe T (fun xs h' => F h' ∧
      ∃ groups : List ((String × IsoWeek) × List (DailyView α)),
        groups.Perm (group days).entries ∧ List.Forall₂ (fun x e => post e x h') xs groups) h := by
  let task (e : (String × IsoWeek) × List (DailyView α)) : Task ι α (Except RollupError String) :=
    ⟨part e.1, post e⟩
  have hsafe : List.Forall₂ (fun p s => p.Safe s.terms s.post h) (tasks settings days)
      ((group days).entries.map task) := by
    rw [tasks, List.forall₂_map_left_iff, List.forall₂_map_right_iff, List.forall₂_same]
    exact hgroups
  have hall := (hweave (tasks settings days)).safe (T := T) hsafe ?_ ?_ hF hrely ?_
  · refine hall.mono fun xs h' _ hx => ⟨hx.1, ?_⟩
    obtain ⟨-, finished, hperm, hposts⟩ := hx
    have hmap := congrFun (congrFun (List.eq_map_comp_perm task) finished) (group days).entries
    obtain ⟨groups, rfl, hgroups⟩ := hmap.mpr hperm
    exact ⟨groups, hgroups, List.forall₂_map_right_iff.1 hposts⟩
  · intro s hs
    obtain ⟨e, -, rfl⟩ := List.mem_map.1 hs
    exact hfits e.1
  · rw [List.pairwise_map]
    exact (group days).sorted.imp fun he => hapart (Key.ne_of_before he)
  · intro s hs
    obtain ⟨e, -, rfl⟩ := List.mem_map.1 hs
    exact hgrant e.1

/-- When the rollup of some days succeeds, all of them are ready. When it fails, something was in
    the way of one of their weeks. What the weeks leave alone stays. -/
theorem syncDays_safe (hm : MayRoll T part known ready)
    {schedule : Schedule α (Except RollupError String)}
    (hweave : ∀ ps, Program.Weave ps (schedule ps)) (hknown : ∀ d ∈ days, known d h)
    (huniq : ∀ d ∈ days, ∀ d' ∈ days, d.id.key = d'.id.key → d = d') {F : History ι α → Prop}
    (hF : F h) (hrely : ∀ h h', T.rely h h' → F h → F h')
    (hgrant : ∀ o h h', (part o).grant h h' → F h → F h') :
    Client.Safe T (fun x h' => F h' ∧ match x with
        | .ok _ => ∀ d ∈ days, ready d h'
        | .error _ => ∃ e ∈ (group days).entries, ¬ Unhindered (part e.1) e.1.1 e.1.2 e.2 h)
      (syncDays settings schedule days) h := by
  refine Client.safe_lift_bind (weeks_safe hm.fits hm.apart hweave
    (fun e he => syncGroup_safe hm hknown huniq he) hF hrely hgrant) fun xs h' hi hxs => ?_
  refine Client.safe_compute_bind (fun keys hkeys => ?_) fun e he => hxs.mono fun h'' _ hx => ?_
  · refine Client.safe_pure (hxs.mono fun h'' _ hx => ?_)
    obtain ⟨hF', groups, hperm, hposts⟩ := hx
    refine ⟨hF', fun d hd => ?_⟩
    obtain ⟨ds, hmem, hd'⟩ := exists_group hd
    obtain ⟨y, hy, hpost⟩ := exists_of_forall₂ hposts.flip (hperm.mem_iff.2 hmem)
    obtain ⟨key, -, rfl⟩ := ok_of_mapM_ok hkeys hy
    exact hpost.2 d hd'
  · obtain ⟨hF', groups, hperm, hposts⟩ := hx
    obtain ⟨y, hy, rfl⟩ := exists_of_mapM_error he
    obtain ⟨e, he, hpost⟩ := exists_of_forall₂ hposts hy
    exact ⟨hF', e, hperm.mem_iff.1 he, hpost.2.2⟩

end

end Rollup

end WeatherStation
