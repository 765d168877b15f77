import WeatherStation.Proofs.Exact
import WeatherStation.Proofs.Rollup.Sync
import WeatherStation.Proofs.Traffic.Moves

/-!
# Contended weeks

Any number of rollups write days into the weeks of one store at once, each week of each of them
retrying when somebody else wrote it in between, and their requests come in any order. No day is
lost: a stored week is the week of the beginning with the days of all groups that have been written,
in the order of these writes. A group whose attempts are used up, or that fails otherwise, has
written nothing.

Results:
* `Rollup.Merged`: a stored week, as its writers have left it.
* `Rollup.Rolled.put_week`: the write of a group.
* `Rollup.Call.weeks_end`: a rollup among others.
* `Rollup.contended_weeks`: weeks are made of the groups that were written, and rollups report what
  they have written.
-/

namespace WeatherStation

variable {ι α : Type}

namespace History

/-- Those who wrote under a key since `h₀`, in the order of their writes. -/
def writersSince (h₀ h : History ι α) (key : String) : List ι :=
  (h.writers key).drop (h₀.writers key).length

variable {h₀ h : History ι α} {key : String}

/-- Earlier writers stay. -/
theorem writers_append_since (hg : h₀.log <+: h.log) (key : String) :
    h.writers key = h₀.writers key ++ h₀.writersSince h key := by
  have hprefix : h₀.writers key <+: h.writers key := (hg.filter _).map _
  exact (List.prefix_iff_eq_append.1 hprefix).symm

theorem writersSince_self (h : History ι α) (key : String) : h.writersSince h key = [] :=
  List.drop_length

theorem writersSince_put_self (hg : h₀.log <+: h.log) (i : ι) (v : View α) :
    h₀.writersSince (h.put i v) v.key = h₀.writersSince h v.key ++ [i] := by
  rw [writersSince, writers_put_self, writers_append_since hg, List.append_assoc, List.drop_left]

theorem writersSince_put_ne (h₀ h : History ι α) (i : ι) {v : View α} (hk : key ≠ v.key) :
    h₀.writersSince (h.put i v) key = h₀.writersSince h key := by
  rw [writersSince, writers_put_ne h i hk, writersSince]

theorem mem_writersSince [DecidableEq ι] (hg : h₀.log <+: h.log) {i : ι} :
    i ∈ h₀.writersSince h key ↔ (h₀.writers key).count i < (h.writers key).count i := by
  rw [writers_append_since hg, List.count_append, ← List.count_pos_iff]
  omega

/-- A write counts for its writer and its key only. -/
theorem count_put [DecidableEq ι] (h : History ι α) {i j : ι} {v : View α}
    (hne : ¬ (j = i ∧ key = v.key)) :
    ((h.put i v).writers key).count j = (h.writers key).count j := by
  by_cases hk : key = v.key
  · have hij : i ≠ j := fun hij => hne ⟨hij.symm, hk⟩
    rw [hk, writers_put_self, List.count_append, List.count_singleton, beq_eq_false_iff_ne.2 hij]
    rfl
  · rw [writers_put_ne h i hk]

end History

namespace Rollup

variable [Quantity α]

/-- A rollup: its settings, the schedule of its weeks, and its days. -/
structure Call (α : Type) [Quantity α] where
  settings : SweepSettings
  schedule : Schedule α (Except RollupError String)
  weaves : ∀ ps, Program.Weave ps (schedule ps)
  days : List (DailyView α)

namespace Call

/-- The days that belong into a week. -/
def share (c : Call α) (o : String × IsoWeek) : List (DailyView α) :=
  c.days.filter fun d => d.owner = o

/-- The weeks of the rollup, side by side, with the results in the order in which they finish. -/
def weeks (c : Call α) : Program α (List (Except RollupError String)) :=
  c.schedule (tasks c.settings c.days)

end Call

/-- What a rollup concludes from the results of its weeks. -/
def conclude (results : List (Except RollupError String)) : Except RollupError (List String) := do
  let keys ← results.mapM fun r => r
  return keys.mergeSort fun a b => decide (a ≤ b)

theorem run_syncDays (c : Call α) : (syncDays c.settings c.schedule c.days).run =
    c.weeks >>= fun results => pure (conclude results) := by
  rw [syncDays, ExceptT.run_bind_lift]
  refine congrArg (Call.weeks c >>= ·) (funext fun results => ?_)
  rw [conclude]
  cases results.mapM fun r => r <;> rfl

/-! ## Weeks and their writers -/

/-- A week under its key, and those who wrote it since the beginning `h₀`: each of them wrote once,
    with the days that it has of the week. If nobody wrote, the key holds what it held. Otherwise
    it holds the week of the beginning, or a week without days, with the days of all writers, in the
    order in which they wrote; so every place of the week holds the last of these days that belongs
    there, and no writer without such a day has changed the place. -/
structure Merged (calls : ι → Call α) (h₀ h : History ι α) (o : String × IsoWeek)
    (writers : List ι) : Prop where
  nodup : writers.Nodup
  share_ne_nil : ∀ i ∈ writers, (calls i).share o ≠ []
  untouched : writers = [] → h.store.get? (ViewId.weekly o.1 o.2).key =
    h₀.store.get? (ViewId.weekly o.1 o.2).key
  written : writers ≠ [] → ∃ w₀ w t, h₀.store.week? o.1 o.2 = some w₀ ∧
    applyDays (writers.flatMap fun i => (calls i).share o) w₀ = .ok w ∧
    h.store.get? (ViewId.weekly o.1 o.2).key = some (.weekly { w with version := t }) ∧
    ∀ p, WeeklyView.HoldsLast (writers.flatMap fun i => (calls i).share o) p w₀ w

/-- What rollups have made of a store that began as `h₀`. -/
structure Rolled (calls : ι → Call α) (h₀ h : History ι α) : Prop where
  sound : h.Sound
  grown : h₀.log <+: h.log
  weeks : ∀ o : String × IsoWeek,
    Merged calls h₀ h o (h₀.writersSince h (ViewId.weekly o.1 o.2).key)
  others : ∀ {key}, (∀ i, ∀ d ∈ (calls i).days, key ≠ d.weekKey) →
    h.store.get? key = h₀.store.get? key

variable {calls : ι → Call α} {h₀ h : History ι α} {i : ι} {o : String × IsoWeek}

theorem rolled_refl (hs : h.Sound) : Rolled calls h h where
  sound := hs
  grown := List.prefix_refl _
  weeks o := by
    rw [History.writersSince_self]
    exact ⟨List.nodup_nil, by simp, fun _ => rfl, fun hne => absurd rfl hne⟩
  others _ := rfl

/-- One more group is written into a week. -/
theorem Merged.put {writers : List ι} (hm : Merged calls h₀ h o writers) (hi : i ∉ writers)
    (hne : (calls i).share o ≠ []) {w w' : WeeklyView α}
    (hw : h.store.week? o.1 o.2 = some w) (hkey : w'.id.key = (ViewId.weekly o.1 o.2).key)
    (happly : applyDays ((calls i).share o) w = .ok w') :
    Merged calls h₀ (h.put i (.weekly w')) o (writers ++ [i]) where
  nodup := hm.nodup.append (List.nodup_singleton i) (List.disjoint_singleton.2 hi)
  share_ne_nil := List.forall_mem_append.2 ⟨hm.share_ne_nil, by simpa using hne⟩
  untouched hnil := by simp at hnil
  written _ := by
    have hstored : (h.put i (.weekly w')).store.get? (ViewId.weekly o.1 o.2).key =
        some (.weekly { w' with version := some h.store.freshVersion }) := by
      rw [← hkey]
      exact h.get?_put_self i (.weekly w')
    rw [List.flatMap_append, List.flatMap_singleton]
    by_cases hnil : writers = []
    · -- The group is the first one to be written into what was stored in the beginning.
      have hw₀ : h₀.store.week? o.1 o.2 = some w := by
        rw [← hw, Store.week?, Store.week?, hm.untouched hnil]
      subst hnil
      exact ⟨w, w', _, hw₀, happly, hstored, fun p => WeeklyView.applyDays_last happly p⟩
    · obtain ⟨w₀, w₁, t, hw₀, hw₁, hget, -⟩ := hm.written hnil
      rw [Store.week?_of_some hget] at hw
      obtain rfl : { w₁ with version := t } = w := Option.some.inj hw
      rw [WeeklyView.applyDays_version] at happly
      obtain ⟨w₂, hw₂, rfl⟩ := map_eq_ok happly
      have hall : applyDays ((writers.flatMap fun i => (calls i).share o) ++ (calls i).share o) w₀ =
          .ok w₂ := by
        rw [WeeklyView.applyDays_append, hw₁]
        exact hw₂
      exact ⟨w₀, w₂, _, hw₀, hall, hstored, fun p => WeeklyView.applyDays_last hall p⟩

/-- The write of another key. -/
theorem Merged.put_ne {writers : List ι} (hm : Merged calls h₀ h o writers) {v : View α}
    (hk : (ViewId.weekly o.1 o.2).key ≠ v.key) : Merged calls h₀ (h.put i v) o writers := by
  have hsame := h.get?_put_ne i hk
  exact ⟨hm.nodup, hm.share_ne_nil, fun hnil => hsame.trans (hm.untouched hnil), fun hne => by
    rw [hsame]
    exact hm.written hne⟩

/-- A client writes the days that it has of a week, for the first time, into what is stored. -/
theorem Rolled.put_week (hr : Rolled calls h₀ h)
    (hi : i ∉ h₀.writersSince h (ViewId.weekly o.1 o.2).key) (hne : (calls i).share o ≠ [])
    {w w' : WeeklyView α} (hw : h.store.week? o.1 o.2 = some w)
    (happly : applyDays ((calls i).share o) w = .ok w') :
    Rolled calls h₀ (h.put i (.weekly w')) := by
  have hkey : (View.weekly w').key = (ViewId.weekly o.1 o.2).key :=
    key_of_applyDays hr.sound hw happly
  refine ⟨hr.sound.put i _, hr.grown.trans (List.prefix_append _ _), fun o' => ?_, fun hkey' => ?_⟩
  · by_cases ho : o' = o
    · subst ho
      have hsince := History.writersSince_put_self hr.grown i (.weekly w')
      rw [hkey] at hsince
      rw [hsince]
      exact (hr.weeks o').put hi hne hw hkey happly
    · have hk : (ViewId.weekly o'.1 o'.2).key ≠ (View.weekly w').key := fun he => by
        obtain ⟨hdevice, hweek⟩ := ViewId.weekly_key_inj (he.trans hkey)
        exact ho (Prod.ext hdevice hweek)
      rw [History.writersSince_put_ne h₀ h i hk]
      exact (hr.weeks o').put_ne hk
  · obtain ⟨d, hd⟩ := List.exists_mem_of_ne_nil _ hne
    obtain ⟨hd, ho⟩ := List.mem_filter.1 hd
    have hk := hkey' i d hd
    rw [DailyView.weekKey_eq_iff.2 (of_decide_eq_true ho), ← hkey] at hk
    rw [h.get?_put_ne i hk]
    exact hr.others hkey'

/-! ## Terms -/

variable [DecidableEq ι]

/-- Rollups share a store by adding to its record: nobody writes in the name of another, nor under a
    key that is not its own. -/
def weekTerms (calls : ι → Call α) (h₀ : History ι α) (i : ι) (own : String → Prop) :
    Terms ι α where
  client := i
  inv := Rolled calls h₀
  rely h h' := h.log <+: h'.log ∧
    ∀ key, own key → (h'.writers key).count i = (h.writers key).count i
  grant h h' := h.log <+: h'.log ∧
    ∀ j key, ¬ (j = i ∧ own key) → (h'.writers key).count j = (h.writers key).count j
  rely_refl _ := ⟨List.prefix_refl _, fun _ _ => rfl⟩
  rely_trans h₁ h₂ := ⟨h₁.1.trans h₂.1, fun key hk => (h₂.2 key hk).trans (h₁.2 key hk)⟩
  grant_refl _ := ⟨List.prefix_refl _, fun _ _ _ => rfl⟩

/-- The terms of one week of a rollup. -/
def shareTerms (calls : ι → Call α) (h₀ : History ι α) (i : ι) (o : String × IsoWeek) :
    Terms ι α :=
  weekTerms calls h₀ i (· = (ViewId.weekly o.1 o.2).key)

theorem shareTerms_fits (calls : ι → Call α) (h₀ : History ι α) (i : ι) (o : String × IsoWeek) :
    (shareTerms calls h₀ i o).Fits (weekTerms calls h₀ i fun _ => True) where
  client := rfl
  inv := rfl
  rely hr := ⟨hr.1, fun key _ => hr.2 key trivial⟩
  grant hg := ⟨hg.1, fun j key hj => hg.2 j key fun ⟨hji, _⟩ => hj ⟨hji, trivial⟩⟩
  faulty := id

theorem shareTerms_apart (calls : ι → Call α) (h₀ : History ι α) (i : ι)
    {o o' : String × IsoWeek} (ho : o ≠ o') :
    (shareTerms calls h₀ i o).Apart (shareTerms calls h₀ i o') := by
  have hrely {o o' : String × IsoWeek} (ho : o ≠ o') {h h' : History ι α}
      (hg : (shareTerms calls h₀ i o).grant h h') : (shareTerms calls h₀ i o').rely h h' := by
    refine ⟨hg.1, fun key hkey => hg.2 i key fun ⟨_, hkey'⟩ => ho ?_⟩
    obtain ⟨hdevice, hweek⟩ := ViewId.weekly_key_inj (hkey'.symm.trans hkey)
    exact Prod.ext hdevice hweek
  exact ⟨fun _ _ => hrely ho, fun _ _ => hrely ho.symm⟩

/-- What is known of the result of a group: whether the group has been written. -/
def GroupEnd (calls : ι → Call α) (h₀ : History ι α) (i : ι) (o : String × IsoWeek)
    (x : Except RollupError String) (h : History ι α) : Prop :=
  match x with
  | .ok key => key = (ViewId.weekly o.1 o.2).key ∧
    i ∈ h₀.writersSince h (ViewId.weekly o.1 o.2).key
  | .error e => e.IsOf o.1 o.2 (calls i).settings.attempts ∧
    i ∉ h₀.writersSince h (ViewId.weekly o.1 o.2).key

/-- A group that its client has not written yet ends with a write or without one. -/
theorem syncWeek_end (hne : (calls i).share o ≠ []) (retries : ℕ) :
    Client.Safe (shareTerms calls h₀ i o) (GroupEnd calls h₀ i o)
      (syncWeek (calls i).settings o.1 o.2 ((calls i).share o) retries) h₀ := by
  -- Until the client writes the week, it has written it as often as in the beginning.
  have hnot {h : History ι α} (hr : Rolled calls h₀ h)
      (hsame : (shareTerms calls h₀ i o).rely h₀ h) :
      i ∉ h₀.writersSince h (ViewId.weekly o.1 o.2).key := by
    rw [History.mem_writersSince hr.grown, hsame.2 _ rfl]
    exact lt_irrefl _
  have hmay : MaySync (shareTerms calls h₀ i o) o.1 o.2 ((calls i).share o)
      (fun h => i ∈ h₀.writersSince h (ViewId.weekly o.1 o.2).key) h₀ :=
    { sound := Rolled.sound
      grows := And.left
      write := fun {h w w'} hi hr hw happly => by
        have hi' := hi.put_week (hnot hi hr) hne hw happly
        have hkey : (View.weekly w').key = (ViewId.weekly o.1 o.2).key :=
          key_of_applyDays hi.sound hw happly
        have hmem : i ∈ h₀.writersSince (h.put i (.weekly w')) (ViewId.weekly o.1 o.2).key := by
          rw [← hkey, History.writersSince_put_self hi.grown]
          exact List.mem_append_right _ (List.mem_singleton_self i)
        refine ⟨hi', ⟨List.prefix_append _ _, fun j key hj => h.count_put fun hjk => hj ?_⟩,
          fun h'' hi'' hr'' => ?_⟩
        · exact ⟨hjk.1, hjk.2.trans hkey⟩
        · refine (History.mem_writersSince hi''.grown).2 ?_
          rw [hr''.2 _ rfl]
          exact (History.mem_writersSince hi'.grown).1 hmem }
  refine (syncWeek_safe retries hmay).mono fun x h hi hx => ?_
  cases x with
  | ok key => exact hx
  | error e => exact ⟨hx.1, hnot hi hx.2.1⟩

/-- A rollup among others ends with the results of its groups. -/
theorem Call.weeks_end (calls : ι → Call α) (h₀ : History ι α) (i : ι) :
    (calls i).weeks.Safe (weekTerms calls h₀ i fun _ => True) (fun results h =>
      ∃ owners : List (String × IsoWeek), owners.Perm (group (calls i).days).keys ∧
        List.Forall₂ (fun x o => GroupEnd calls h₀ i o x h) results owners) h₀ := by
  have hgroups (e) (he : e ∈ (group (calls i).days).entries) :
      Client.Safe (shareTerms calls h₀ i e.1) (GroupEnd calls h₀ i e.1)
        (syncWeek (calls i).settings e.1.1 e.1.2 e.2 ((calls i).settings.attempts - 1)) h₀ := by
    have hshare : e.2 = (calls i).share e.1 := eq_of_mem_group he
    have hne := ne_nil_of_mem_group he
    rw [hshare] at hne ⊢
    exact syncWeek_end hne _
  refine (weeks_safe (F := fun _ => True) (shareTerms_fits calls h₀ i) (shareTerms_apart calls h₀ i)
    (calls i).weaves hgroups trivial (fun _ _ _ _ => trivial) fun _ _ _ _ _ => trivial).mono
    fun results h _ hx => ?_
  obtain ⟨-, groups, hperm, hall⟩ := hx
  exact ⟨groups.map Prod.fst, hperm.map _, List.forall₂_map_right_iff.2 hall⟩

/-! ## Contended weeks -/

/-- What is known of a rollup that has ended, and of the results of its groups, in the order in
    which they came. -/
structure CallEnd (calls : ι → Call α) (h₀ h : History ι α) (i : ι)
    (results : List (Except RollupError String)) (x : Except RollupError (List String)) : Prop where
  /-- Each group has one result, which says whether the group has been written. -/
  groups : ∃ owners : List (String × IsoWeek), owners.Nodup ∧
    (∀ o, o ∈ owners ↔ (calls i).share o ≠ []) ∧
    List.Forall₂ (fun x o => GroupEnd calls h₀ i o x h) results owners
  /-- A group whose attempts are used up has not been written. -/
  exhausted : ∀ device week attempts, .error (.retriesExhausted device week attempts) ∈ results →
    i ∉ h₀.writersSince h (ViewId.weekly device week).key
  /-- A rollup that succeeds has written all groups, and gives their keys in order. -/
  succeeded : ∀ keys, x = .ok keys → keys.Pairwise (· < ·) ∧
    (∀ key, key ∈ keys ↔ ∃ d ∈ (calls i).days, d.weekKey = key) ∧
    ∀ d ∈ (calls i).days, i ∈ h₀.writersSince h d.weekKey
  /-- One that fails does so because a group has failed. -/
  failed : ∀ e, x = .error e → .error e ∈ results

omit [DecidableEq ι] in
/-- The results of the groups tell whether the rollup succeeds. -/
theorem callEnd_of_groups {h : History ι α} {results : List (Except RollupError String)}
    {owners : List (String × IsoWeek)} (hperm : owners.Perm (group (calls i).days).keys)
    (hall : List.Forall₂ (fun x o => GroupEnd calls h₀ i o x h) results owners) :
    CallEnd calls h₀ h i results (conclude results) where
  groups := ⟨owners, hperm.nodup_iff.2 (group (calls i).days).nodup_keys,
    fun _ => hperm.mem_iff.trans mem_keys_group, hall⟩
  exhausted device week attempts hmem := by
    obtain ⟨o, -, ⟨hdevice, hweek, -⟩, hnot⟩ := exists_of_forall₂ hall hmem
    rw [hdevice, hweek]
    exact hnot
  succeeded keys hkeys := by
    obtain ⟨written, hwritten, hsorted⟩ := bind_eq_ok.1 hkeys
    obtain rfl : written.mergeSort (fun a b => decide (a ≤ b)) = keys := Except.ok.inj hsorted
    have hresults := map_of_mapM_ok hwritten
    rw [List.map_id'] at hresults
    subst hresults
    have hgroups := List.forall₂_map_left_iff.1 hall
    have hkeys : written = owners.map fun o => (ViewId.weekly o.1 o.2).key := by
      have hsame := hgroups.imp fun _ _ h => h.1
      rwa [← List.forall₂_map_right_iff, List.forall₂_eq_eq_eq] at hsame
    have hmem (d : DailyView α) (hd : d ∈ (calls i).days) : d.owner ∈ owners := by
      rw [hperm.mem_iff, mem_keys_group]
      exact List.ne_nil_of_mem (List.mem_filter.2 ⟨hd, by simp⟩)
    refine ⟨?_, fun key => ?_, fun d hd => ?_⟩
    · have hle : (written.mergeSort fun a b => decide (a ≤ b)).Pairwise
          fun a b => decide (a ≤ b) = true :=
        List.pairwise_mergeSort (fun a b c => by simpa using String.le_trans)
          (fun a b => by simpa using String.le_total a b) written
      have hnodup : (written.mergeSort fun a b => decide (a ≤ b)).Nodup := by
        rw [(List.mergeSort_perm _ _).nodup_iff, hkeys]
        refine (hperm.nodup_iff.2 (group (calls i).days).nodup_keys).map fun o o' he => ?_
        obtain ⟨hdevice, hweek⟩ := ViewId.weekly_key_inj he
        exact Prod.ext hdevice hweek
      exact (hle.and hnodup).imp fun h => Std.lt_of_le_of_ne (of_decide_eq_true h.1) h.2
    · rw [List.mem_mergeSort, hkeys, List.mem_map]
      constructor
      · rintro ⟨o, ho, rfl⟩
        rw [hperm.mem_iff, mem_keys_group] at ho
        obtain ⟨d, hd⟩ := List.exists_mem_of_ne_nil _ ho
        obtain ⟨hd, ho⟩ := List.mem_filter.1 hd
        exact ⟨d, hd, DailyView.weekKey_eq_iff.2 (of_decide_eq_true ho)⟩
      · rintro ⟨d, hd, rfl⟩
        exact ⟨d.owner, hmem d hd, rfl⟩
    · obtain ⟨key, -, -, hsince⟩ := exists_of_forall₂ hgroups.flip (hmem d hd)
      exact hsince
  failed e he := by
    rcases bind_eq_error.1 he with he | ⟨keys, -, he⟩
    · obtain ⟨x, hx, rfl⟩ := exists_of_mapM_error he
      exact hx
    · cases he

/-- What rollups do after the last of their groups takes no requests. -/
theorem run_calls (calls : ι → Call α) (h₀ : History ι α) (moves : List (Move ι)) :
    Traffic.run ⟨h₀, fun i =>
        (syncDays (calls i).settings (calls i).schedule (calls i).days).run⟩ moves =
      (Traffic.run ⟨h₀, fun i => (calls i).weeks⟩ moves).concluding fun _ => conclude := by
  rw [← Traffic.run_concluding]
  exact congrArg (Traffic.run · moves)
    (congrArg (Traffic.mk h₀) (funext fun i => run_syncDays (calls i)))

/-- In every reachable state of every interleaving, from any store that earlier writes have made, a
    week holds what it held in the beginning and the days of the groups that were written since, in
    the order of these writes, and no other key has changed. A rollup that has ended reports which
    of its groups it has written. -/
theorem contended_weeks (calls : ι → Call α) (earlier : List (ι × View α)) (moves : List (Move ι)) :
    let h₀ : History ι α := ⟨History.replay earlier, earlier⟩
    let t := Traffic.run ⟨h₀, fun i =>
      (syncDays (calls i).settings (calls i).schedule (calls i).days).run⟩ moves
    let groups := Traffic.run ⟨h₀, fun i => (calls i).weeks⟩ moves
    (∀ o, Merged calls h₀ t.history o
      (h₀.writersSince t.history (ViewId.weekly o.1 o.2).key)) ∧
    (∀ key, (∀ i, ∀ d ∈ (calls i).days, key ≠ d.weekKey) →
      t.history.store.get? key = h₀.store.get? key) ∧
    ∀ i x, t.clients i = .done x →
      ∃ results, groups.clients i = .done results ∧ CallEnd calls h₀ t.history i results x := by
  intro h₀ t groups
  obtain ⟨hi, hs⟩ := Traffic.run_safe (T := fun i => weekTerms calls h₀ i fun _ => True)
    (fun i results h => ∃ owners : List (String × IsoWeek),
      owners.Perm (group (calls i).days).keys ∧
        List.Forall₂ (fun x o => GroupEnd calls h₀ i o x h) results owners)
    (t := ⟨h₀, fun i => (calls i).weeks⟩) (fun _ => rfl) (fun _ => rfl)
    (fun i j _ _ hij hg => ⟨hg.1, fun key _ => hg.2 j key fun ⟨hji, _⟩ => hij hji.symm⟩)
    (rolled_refl rfl) (fun i => Call.weeks_end calls h₀ i) moves
  have ht : t = groups.concluding fun _ => conclude := run_calls calls h₀ moves
  rw [ht]
  refine ⟨hi.weeks, fun key => hi.others, fun i x hx => ?_⟩
  obtain ⟨results, hdone, rfl⟩ := Traffic.done_of_concluding hx
  obtain ⟨owners, hperm, hall⟩ := Traffic.post_of_done
    (T := weekTerms calls h₀ i fun _ => True) hi (hs i) hdone
  exact ⟨results, hdone, callEnd_of_groups hperm hall⟩

/-- The rollup of one day. -/
def oneDay (attempts : UInt32) (start : Int) : Call ℚ where
  settings := { SweepSettings.standard with weeklyAttempts := attempts }
  schedule := turns .standard
  weaves _ := Program.Weave.together _ _
  days := ((Instant.ofSeconds? start).map fun start =>
    { WindowView.empty "dev" start with isSealed := true }).toList

/-- Three rollups of one week. The last one has a single attempt. -/
def threeRollups : Fin 3 → Call ℚ :=
  ![oneDay 5 1757376000, oneDay 5 1757462400, oneDay 1 1757548800]

/-- All three look at the week before any of them writes it. The second one writes first; then the
    first one tries again, and the third one gives up. The week has the days of the other two. -/
theorem contended_weeks_three :
    let moves : List (Move (Fin 3)) :=
      [0, 1, 2, 1, 0, 2, 0, 0, 0].map fun i => ⟨i, .error .calendar, none⟩
    let t := (Traffic.start fun i => (syncDays (threeRollups i).settings (threeRollups i).schedule
      (threeRollups i).days).run).run moves
    Merged threeRollups .empty t.history ("dev", ⟨2025, 37⟩) [1, 0] ∧
      ((t.history.store.get? "dev|weekly|2025-W37").bind (View.ofKind? .weekly)).map
        (fun w => w.rain.days.toList.map Option.isSome) =
          some [false, true, true, false, false, false, false] ∧
      (t.clients 0).result? = some (.ok ["dev|weekly|2025-W37"]) ∧
      (t.clients 1).result? = some (.ok ["dev|weekly|2025-W37"]) ∧
      (t.clients 2).result? = some (.error (.retriesExhausted "dev" ⟨2025, 37⟩ 1)) := by
  intro moves t
  obtain ⟨hweeks, -, -⟩ := contended_weeks threeRollups [] moves
  have hwriters : (History.empty : History (Fin 3) ℚ).writersSince t.history
      (ViewId.weekly "dev" ⟨2025, 37⟩).key = [1, 0] := by decide +kernel
  have hmerged := hweeks ("dev", ⟨2025, 37⟩)
  refine ⟨hwriters ▸ hmerged, ?_⟩
  decide +kernel

end Rollup

end WeatherStation
