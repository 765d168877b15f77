import WeatherStation.Proofs.Rollup.Contention

/-!
# Undisturbed weeks

A rollup gets its days into a week that nobody else writes: if no other rollup has days of the week,
the store answers the calls of this one, and the week takes the days, then a single attempt is
enough, whatever the other rollups do to the weeks next to it.

Results:
* `Rollup.guardTerms`: one part of one rollup has a key to itself.
* `Rollup.syncWeek_undisturbed`, `Rollup.syncWeek_elsewhere`: the group of the key, and any other.
* `Rollup.undisturbed_group`: what the week holds once the rollup has ended.
-/

namespace WeatherStation

variable {ι α : Type}

namespace Rollup

/-! ## A key to oneself -/

/-- The terms of clients of which only one writes under a key: the client that owns the key finds
    there what it left, and all others leave it alone. -/
def guardTerms (key : String) (i : ι) (owner faulty : Prop) : Terms ι α where
  client := i
  inv := History.Sound
  rely h h' := h.log <+: h'.log ∧ (owner → h'.store.get? key = h.store.get? key)
  grant h h' := h.log <+: h'.log ∧ (¬ owner → h'.store.get? key = h.store.get? key)
  faulty := faulty
  rely_refl _ := ⟨List.prefix_refl _, fun _ => rfl⟩
  rely_trans h₁ h₂ := ⟨h₁.1.trans h₂.1, fun ho => (h₂.2 ho).trans (h₁.2 ho)⟩
  grant_refl _ := ⟨List.prefix_refl _, fun _ => rfl⟩

variable {key : String} {i j : ι} {owner owner' faulty faulty' : Prop} {h h' : History ι α}

/-- Two clients that do not both own the key put up with each other. -/
theorem guardTerms_rely (hone : ¬ (owner ∧ owner'))
    (hg : (guardTerms key i owner faulty).grant h h') :
    (guardTerms key j owner' faulty').rely h h' :=
  ⟨hg.1, fun ho' => hg.2 fun ho => hone ⟨ho, ho'⟩⟩

theorem guardTerms_fits (hown : owner' → owner) :
    (guardTerms key i owner' faulty : Terms ι α).Fits (guardTerms key i owner faulty) where
  client := rfl
  inv := rfl
  rely hr := ⟨hr.1, fun ho => hr.2 (hown ho)⟩
  grant hg := ⟨hg.1, fun hno => hg.2 fun ho => hno (hown ho)⟩
  faulty := id

/-! ## One group -/

variable [Quantity α] {o o' : String × IsoWeek} {days : List (DailyView α)} {w₀ w : WeeklyView α}
  {settings : SweepSettings}

/-- The key of a week holds the week, with any version. -/
def HoldsWeek (o : String × IsoWeek) (w : WeeklyView α) (h : History ι α) : Prop :=
  ∃ version, h.store.get? (ViewId.weekly o.1 o.2).key = some (.weekly { w with version := version })

/-- Any other week leaves the key alone. -/
theorem syncWeek_elsewhere (ho : o' ≠ o) (retries : ℕ) :
    Client.Safe (guardTerms (ViewId.weekly o.1 o.2).key i owner faulty) (fun _ _ => True)
      (syncWeek settings o'.1 o'.2 days retries) h := by
  have hmay : MaySync (guardTerms (ViewId.weekly o.1 o.2).key i owner faulty) o'.1 o'.2 days
      (fun _ => True) h :=
    { sound := id
      grows := And.left
      write := fun hs _ hw happly => by
        refine ⟨hs.put _ _, ⟨List.prefix_append _ _, fun _ => ?_⟩, fun _ _ _ => trivial⟩
        refine History.get?_put_ne _ _ fun he => ho ?_
        obtain ⟨hdevice, hweek⟩ := ViewId.weekly_key_inj (he.trans (key_of_applyDays hs hw happly))
        exact Prod.ext hdevice.symm hweek.symm }
  exact (syncWeek_safe retries hmay).mono fun _ _ _ _ => trivial

/-- The group that owns the key is written, in its first attempt. -/
theorem syncWeek_undisturbed (howner : owner) (hserved : ¬ faulty)
    (hw₀ : h.store.week? o.1 o.2 = some w₀) (happly : applyDays days w₀ = .ok w) (retries : ℕ) :
    Client.Safe (guardTerms (ViewId.weekly o.1 o.2).key i owner faulty)
      (fun _ h' => HoldsWeek o w h') (syncWeek settings o.1 o.2 days retries) h := by
  let T : Terms ι α := guardTerms (ViewId.weekly o.1 o.2).key i owner faulty
  have hsame {h' : History ι α} (hr : T.rely h h') : h'.store.week? o.1 o.2 = some w₀ := by
    rw [Store.week?, hr.2 howner]
    exact hw₀
  have hmay : MaySync T o.1 o.2 days (HoldsWeek o w) h :=
    { sound := id
      grows := And.left
      write := fun {h' w₁ w₂} hs hr hw hw₂ => by
        obtain rfl : w₀ = w₁ := Option.some.inj ((hsame hr).symm.trans hw)
        obtain rfl : w = w₂ := Except.ok.inj (happly.symm.trans hw₂)
        have hget := h'.get?_put_self i (.weekly w)
        rw [key_of_applyDays hs hw happly] at hget
        exact ⟨hs.put i _, ⟨List.prefix_append _ _, fun hno => absurd howner hno⟩,
          fun h'' _ hr'' => ⟨_, (hr''.2 howner).trans hget⟩⟩ }
  have hfree : Unhindered T o.1 o.2 days h :=
    { served := hserved
      stays := fun hr => hr.2 howner
      takes := fun _ hr => ⟨w₀, w, hsame hr, happly⟩ }
  refine (syncWeek_safe retries hmay).mono fun x h' _ hx => ?_
  cases x with
  | ok key => exact hx.2
  | error e => exact absurd hfree hx.2.2

/-! ## Rollups -/

variable {calls : ι → Call α} {h₀ : History ι α}

/-- Rollups of which one alone has days of a week. -/
theorem Call.weeks_undisturbed (hothers : ∀ j, j ≠ i → (calls j).share o = [])
    (hmine : (calls i).share o ≠ []) (hw₀ : h₀.store.week? o.1 o.2 = some w₀)
    (happly : applyDays ((calls i).share o) w₀ = .ok w) (j : ι) :
    (calls j).weeks.Safe (guardTerms (ViewId.weekly o.1 o.2).key j (j = i) (j ≠ i))
      (fun _ h => j = i → HoldsWeek o w h) h₀ := by
  let part (o' : String × IsoWeek) : Terms ι α :=
    guardTerms (ViewId.weekly o.1 o.2).key j (j = i ∧ o' = o) (j ≠ i)
  have hapart {o₁ o₂ : String × IsoWeek} (hne : o₁ ≠ o₂) : (part o₁).Apart (part o₂) :=
    ⟨fun _ _ => guardTerms_rely fun h => hne (h.1.2.trans h.2.2.symm),
      fun _ _ => guardTerms_rely fun h => hne (h.2.2.trans h.1.2.symm)⟩
  have hgroups (e) (he : e ∈ (group (calls j).days).entries) :
      Client.Safe (part e.1) (fun _ h => j = i ∧ e.1 = o → HoldsWeek o w h)
        (syncWeek (calls j).settings e.1.1 e.1.2 e.2 ((calls j).settings.attempts - 1)) h₀ := by
    have hshare : e.2 = (calls j).share e.1 := eq_of_mem_group he
    have hne := ne_nil_of_mem_group he
    rw [hshare] at hne ⊢
    by_cases hown : j = i ∧ e.1 = o
    · obtain ⟨rfl, ho⟩ := hown
      rw [ho]
      exact (syncWeek_undisturbed ⟨rfl, rfl⟩ (not_not.2 rfl) hw₀ happly _).mono
        fun _ _ _ hx _ => hx
    · have ho : e.1 ≠ o := fun ho => by
        rw [ho, hothers j fun hj => hown ⟨hj, ho⟩] at hne
        exact hne rfl
      exact (syncWeek_elsewhere ho _).mono fun _ _ _ _ hown' => absurd hown' hown
  refine (weeks_safe (T := guardTerms (ViewId.weekly o.1 o.2).key j (j = i) (j ≠ i))
    (F := fun _ => True) (fun _ => guardTerms_fits And.left) hapart (calls j).weaves hgroups trivial
    (fun _ _ _ _ => trivial) fun _ _ _ _ _ => trivial).mono fun results h _ hx hj => ?_
  subst hj
  obtain ⟨-, groups, hperm, hall⟩ := hx
  obtain ⟨e, he, ho⟩ := List.mem_map.1 (mem_keys_group.2 hmine)
  obtain ⟨x, -, hpost⟩ := exists_of_forall₂ hall.flip (hperm.mem_iff.2 he)
  exact hpost ⟨rfl, ho⟩

variable [DecidableEq ι]

/-- Where one rollup alone has days of a week, the store answers its calls, and the week takes the
    days, the week holds them when the rollup has ended: however the requests of all rollups come,
    however often the calls of the others are refused, and however few attempts there are. -/
theorem undisturbed_group (calls : ι → Call α) (earlier : List (ι × View α))
    (moves : List (Move ι)) {i : ι} {o : String × IsoWeek} (hmine : (calls i).share o ≠ [])
    (hothers : ∀ j, j ≠ i → (calls j).share o = [])
    (hserved : ∀ m ∈ moves, m.client = i → m.fault = none) {w₀ w : WeeklyView α}
    (hw₀ : (History.replay earlier).week? o.1 o.2 = some w₀)
    (happly : applyDays ((calls i).share o) w₀ = .ok w) :
    let t := Traffic.run ⟨⟨History.replay earlier, earlier⟩, fun j =>
      (syncDays (calls j).settings (calls j).schedule (calls j).days).run⟩ moves
    ∀ x, t.clients i = .done x → HoldsWeek o w t.history := by
  intro t x hdone
  let key := (ViewId.weekly o.1 o.2).key
  let begun : Traffic ι α _ := ⟨⟨History.replay earlier, earlier⟩, fun j => (calls j).weeks⟩
  have hanswered : ∀ m ∈ moves, m.fault.isSome → m.client ≠ i := fun m hm hfault hmi => by
    rw [hserved m hm hmi] at hfault
    cases hfault
  obtain ⟨hi, hs⟩ := Traffic.run_safe_among (T := fun j => guardTerms key j (j = i) (j ≠ i))
    (p := fun _ => True) (t := begun) (fun j _ h => j = i → HoldsWeek o w h)
    (fun _ => rfl) (fun _ _ => rfl)
    (fun j k _ _ _ _ hjk => guardTerms_rely fun h => hjk (h.1.trans h.2.symm)) rfl
    (fun j _ => Call.weeks_undisturbed hothers hmine hw₀ happly j)
    (fun m (_ : m ∈ moves) => trivial) hanswered
  have ht : t = (begun.run moves).concluding fun _ => conclude := run_calls calls _ moves
  rw [ht] at hdone ⊢
  obtain ⟨results, hresults, -⟩ := Traffic.done_of_concluding hdone
  exact Traffic.post_of_done (T := guardTerms key i (i = i) (i ≠ i)) hi (hs i trivial) hresults rfl

/-- Two rollups with a week each. All calls of the second one are refused; the first one has a
    single attempt, in which it writes its week. -/
example :
    let calls : Fin 2 → Call ℚ := ![oneDay 1 1757376000, oneDay 5 1757980800]
    let moves : List (Move (Fin 2)) := [1, 0, 1, 0].map fun i =>
      ⟨i, .error .calendar, if i = 0 then none else some .lock⟩
    let earlier : List (Fin 2 × View ℚ) := []
    let t := Traffic.run ⟨⟨History.replay earlier, earlier⟩, fun i =>
      (syncDays (calls i).settings (calls i).schedule (calls i).days).run⟩ moves
    ∃ w, applyDays (calls 0).days (.empty "dev" ⟨2025, 37⟩) = .ok w ∧
      HoldsWeek ("dev", ⟨2025, 37⟩) w t.history := by
  intro calls moves earlier t
  obtain ⟨w, hw⟩ : ∃ w, applyDays (calls 0).days (.empty "dev" ⟨2025, 37⟩) = .ok w :=
    exists_of_isOk (by decide +kernel)
  have hshare : (calls 0).share ("dev", ⟨2025, 37⟩) = (calls 0).days := by decide +kernel
  have hmine : (calls 0).share ("dev", ⟨2025, 37⟩) ≠ [] := by decide +kernel
  have hothers : ∀ j, j ≠ 0 → (calls j).share ("dev", ⟨2025, 37⟩) = [] := by decide +kernel
  have hserved : ∀ m ∈ moves, m.client = 0 → m.fault = none := by decide
  have hdone : t.clients 0 = .done (.ok ["dev|weekly|2025-W37"]) :=
    Program.eq_done_of_result? (by decide +kernel)
  have hwrites := undisturbed_group calls earlier moves hmine hothers hserved rfl (hshare ▸ hw)
  with_reducible exact ⟨w, hw, hwrites _ hdone⟩

end Rollup

end WeatherStation
