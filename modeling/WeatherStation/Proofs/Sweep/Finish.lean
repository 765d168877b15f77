import WeatherStation.Proofs.Sweep.Midway

/-!
# Sweeps that run through

A sweep that has the store to itself runs through if the store answers every call and the time
suffices. Page by page, the days up to the cursor are sealed, but for those that cannot be closed,
so none of the others are left over in the end.

Results:
* `Sweep.unhindered`: nothing keeps such a sweep from writing its weeks.
* `Sweep.persist_finishes`, `Sweep.sealDays_finishes`: all closed days of a page are sealed.
* `Sweep.page_finishes`: a page moves the cursor on.
* `Sweep.pages_finishes`: the last page leaves no day over.
-/

namespace WeatherStation

variable {ι α : Type} [Quantity α]

namespace Sweep

open History

variable {h₀ h h' : History ι α} {cutoff : Instant} {i : ι} {settings : SweepSettings}
  {schedule : Rollup.Schedule α (Except RollupError String)} {closed : List (DailyView α)}
  {result : SweepResult}

/-- Closed days can be written into their weeks. -/
theorem unhindered {o : String × IsoWeek} {days : List (DailyView α)}
    (hdays : ∀ d ∈ days, d.owner = o ∧ h₀.Closing cutoff d) :
    Rollup.Unhindered (partTerms i (Midway h₀ cutoff) False o) o.1 o.2 days h where
  served := id
  stays hr := hr.2 _ fun o' ho he => by
    obtain ⟨hdevice, hweek⟩ := ViewId.weekly_key_inj he
    exact ho (Prod.ext hdevice.symm hweek.symm)
  takes {h'} hi _ := by
    obtain ⟨w, hw⟩ := hi.orderly.exists_week? o.1 o.2
    obtain ⟨hdevice, hweek, -⟩ := hi.orderly.week?_named hw
    have htakes (d : DailyView α) (hd : d ∈ days) : w.Takes d := by
      obtain ⟨ho, hc⟩ := hdays d hd
      exact Midway.takes_of_closing hc (ho ▸ hdevice) (ho ▸ hweek)
    obtain ⟨w', hw'⟩ := WeeklyView.exists_applyDays htakes
    exact ⟨w, w', hw, hw'⟩

/-- The result of a sweep after some more days: those that can be closed are sealed, and the others
    have failed. -/
def counted (days : List (DailyView α)) (result : SweepResult) : SweepResult :=
  { result with
    processed := result.processed + days.countP fun d => (DailyView.close.result d).isOk
    failed := result.failed + days.countP fun d => !(DailyView.close.result d).isOk }

theorem counted_nil (result : SweepResult) : counted ([] : List (DailyView α)) result = result := rfl

theorem counted_append (days days' : List (DailyView α)) (result : SweepResult) :
    counted (days ++ days') result = counted days' (counted days result) := by
  simp [counted, Nat.add_assoc]

/-- What is counted when the days of a page are closed, and when they are sealed. -/
theorem counted_eq (days : List (DailyView α)) (result : SweepResult) :
    { (closeDays days result).2 with
      processed := (closeDays days result).2.processed + (closeDays days result).1.length } =
      counted days result := by
  rw [counted, ← length_sub_closeDays days result, ← length_closeDays days result]
  rfl

/-- The days are sealed. -/
def AllSealed (closed : List (DailyView α)) (h : History ι α) : Prop :=
  ∀ c ∈ closed, ∃ t, h.store.get? c.id.key = some (.daily { c with version := t })

/-- Closed days are written back. -/
theorem persist_finishes (hi : Midway h₀ cutoff h) {days : List (DailyView α)}
    (hclosing : ∀ c ∈ days, h.Closing cutoff c) (hin : ∀ c ∈ days, InFilled h₀ cutoff c h)
    (hkeys : days.Pairwise fun c c' => c.id.key ≠ c'.id.key) :
    Client.Safe (Terms.lone i (Midway h₀ cutoff) False) (fun x h' => ∀ r, x = .ok r →
      r = { result with processed := result.processed + days.length } ∧
        AllSealed days h' ∧ SameAt (fun key => ∀ c ∈ days, key ≠ c.id.key) h h')
      (persist days result) h := by
  induction days generalizing h result with
  | nil =>
    exact Client.safe_pure_result (Terms.lasts_lone fun _ => ⟨rfl, by simp [AllSealed], .refl _ h⟩)
  | cons c days ih =>
    obtain ⟨hnew, hkeys⟩ := List.pairwise_cons.1 hkeys
    obtain ⟨hc, hclosing⟩ := List.forall_mem_cons.1 hclosing
    obtain ⟨hcin, hin⟩ := List.forall_mem_cons.1 hin
    have hput : Midway h₀ cutoff (h.put i (.daily c)) := hi.put_day (hi.closing hc) hcin
    refine Client.safe_bind_result (P := fun x h' => h' = h.put i (.daily c) ∧
        ∃ version, x = .ok (.ok version))
      (Client.safe_tryWrite (fun h₁ _ hr _ => ?_) fun e h₁ _ hr ha => ?_) fun x h₁ hi₁ hx => ?_
    · obtain rfl := hr
      exact ⟨hput, trivial, fun version => Terms.lasts_lone fun _ => ⟨rfl, version, rfl⟩⟩
    · obtain rfl := hr
      exact absurd (hc.allows hi.orderly.sound) (Bool.eq_false_iff.1 (ha.resolve_right id))
    obtain ⟨rfl, version, hx⟩ := hx.now hi₁
    obtain rfl := Except.ok.inj hx
    have hday (c' : DailyView α) (hc' : c' ∈ days) :
        (h.put i (.daily c)).store.get? c'.id.key = h.store.get? c'.id.key :=
      h.get?_put_ne i (hnew c' hc').symm
    have hweek (c' : DailyView α) :
        (h.put i (.daily c)).store.get? c'.weekKey = h.store.get? c'.weekKey :=
      h.get?_put_ne i (((hi.closing hc).named hi.began).weekly_key_ne _ _)
    refine (ih hput (fun c' hc' => (hclosing c' hc').of_eq (hday c' hc'))
      (fun c' hc' => (hin c' hc').of_eq (hweek c')) hkeys).mono fun y h₂ _ hy r hr => ?_
    obtain ⟨hcount, hsealed, hs⟩ := hy r hr
    refine ⟨?_, List.forall_mem_cons.2 ⟨⟨some h.store.freshVersion, ?_⟩, hsealed⟩,
      fun key hkey => ?_⟩
    · rw [hcount, countWrite, List.length_cons]
      simp only [SweepResult.mk.injEq, and_true, true_and]
      omega
    · rw [hs c.id.key hnew]
      exact h.get?_put_self i (.daily c)
    · obtain ⟨hne, hkey⟩ := List.forall_mem_cons.1 hkey
      rw [hs key hkey]
      exact h.get?_put_ne i hne

/-- The key is not that of a week. -/
def NotWeekly (key : String) : Prop := ∀ o : String × IsoWeek, key ≠ (ViewId.weekly o.1 o.2).key

/-- Some days were sealed, after their weeks were written. -/
structure PageSealed (closed : List (DailyView α)) (h h' : History ι α) : Prop where
  allSealed : AllSealed closed h'
  same : SameAt (fun key => NotWeekly key ∧ ∀ c ∈ closed, key ≠ c.id.key) h h'

/-- The closed days of a page are written into their weeks and written back. -/
theorem sealDays_finishes (hweave : ∀ ps, Program.Weave ps (schedule ps))
    (hi : Midway h₀ cutoff h) (hclosing : ∀ c ∈ closed, h.Closing cutoff c)
    (hkeys : closed.Pairwise fun c c' => c.id.key ≠ c'.id.key) (next : Option Cursor) :
    Client.Safe (Terms.lone i (Midway h₀ cutoff) False) (fun x h' => ∀ step, x = .ok step →
      step.cursor? = next ∧
        step.result = { result with processed := result.processed + closed.length } ∧
        PageSealed closed h h')
      (sealDays settings schedule next closed result) h := by
  have hclosing₀ (c : DailyView α) (hc : c ∈ closed) : h₀.Closing cutoff c :=
    hi.closing (hclosing c hc)
  refine Client.safe_bind_result (P := fun x h' => ∃ keys, x = .ok (.ok keys) ∧
      SameAt NotWeekly h h' ∧ ∀ c ∈ closed, InFilled h₀ cutoff c h')
    (Client.safe_lift ?_) fun rolled h₁ hi₁ hrolled => ?_
  · split_ifs with hempty
    · refine Terms.lasts_lone fun _ => ⟨[], rfl, .refl _ h, fun c hc => ?_⟩
      rw [List.isEmpty_iff.1 hempty] at hc
      cases hc
    · refine Program.Safe.mono (Rollup.syncDays_safe (maySweep_midway i h₀ cutoff False).toMayRoll
        hweave hclosing₀ (fun c hc c' hc' => (hclosing c hc).eq_of_key (hclosing c' hc'))
        (F := SameAt NotWeekly h) (.refl _ h) (fun _ _ hr hs => hr ▸ hs)
        fun o _ _ hg hs => hs.trans fun key hk => hg.2 key (hk o)) fun x h' _ hx => ?_
      obtain ⟨hsame, hx⟩ := hx
      cases x with
      | ok keys => exact ⟨keys, rfl, hsame, fun c hc => (hx c hc).2⟩
      | error e =>
        obtain ⟨g, hg, hu⟩ := hx
        refine absurd (unhindered fun d hd => ?_) hu
        obtain ⟨hmem, ho⟩ := (Rollup.mem_group hg).1 hd
        exact ⟨ho, hclosing₀ d hmem⟩
  obtain ⟨keys, hrolled, hsame, hin⟩ := hrolled.now hi₁
  obtain rfl := Except.ok.inj hrolled
  have hclosing₁ (c : DailyView α) (hc : c ∈ closed) : h₁.Closing cutoff c :=
    (hclosing c hc).of_eq (hsame c.id.key fun o he =>
      ((hclosing₀ c hc).named hi.began).weekly_key_ne o.1 o.2 he.symm)
  refine Client.safe_bind_result (persist_finishes hi₁ hclosing₁ hin hkeys)
    fun r h₂ hi₂ hr => ?_
  obtain ⟨hcount, hsealed, hsame'⟩ := hr.now hi₂ r rfl
  refine Client.safe_pure_result (Terms.lasts_lone fun _ => ⟨?_, ?_, hsealed, fun key hkey => ?_⟩)
  · cases next <;> rfl
  · rw [← hcount]
    cases next <;> rfl
  · rw [hsame' key hkey.2, hsame key hkey.1]

/-! ## Pages -/

/-- The closed days of a page have different keys. -/
theorem pairwise_closeDays (hs : h.Sound) (cutoff : Instant) (size : ℕ) (cursor : Option Cursor)
    (result : SweepResult) :
    (closeDays (h.store.page cutoff size cursor).days result).1.Pairwise
      fun c c' => c.id.key ≠ c'.id.key := by
  refine List.pairwise_filterMap.2 ?_
  have hsorted := (hs.pairwise_openDays cutoff cursor).sublist (List.take_sublist size _)
  refine hsorted.imp_of_mem fun {d d'} hd hd' hbefore c hc c' hc' hkey => ?_
  have hclosed {d c : DailyView α} (hc : (DailyView.close.result d).toOption = some c) :
      c.id.key = d.id.key := by
    rw [(DailyView.close_frame (toOption_eq_some.1 hc)).2.id]
  rw [hclosed hc, hclosed hc'] at hkey
  have hsame := (hs.mem_page hd).stored
  rw [hkey, (hs.mem_page hd').stored] at hsame
  cases hsame
  exact Key.ne_of_before hbefore rfl

omit [Quantity α] in
/-- No days become due while a page is sealed, and its days no longer are. -/
theorem PageSealed.due (hp : PageSealed closed h h') (ho : h'.Orderly)
    (hclosed : ∀ c ∈ closed, c.isSealed = true) {d : DailyView α} (hd : h'.Due cutoff d) :
    h.Due cutoff d ∧ ∀ c ∈ closed, d.id.key ≠ c.id.key := by
  have hne (c : DailyView α) (hc : c ∈ closed) : d.id.key ≠ c.id.key := by
    intro hkey
    obtain ⟨t, ht⟩ := hp.allSealed c hc
    have hstored := hd.stored
    rw [hkey, ht] at hstored
    cases hstored
    exact absurd ((hclosed c hc).symm.trans hd.isOpen) (by decide)
  refine ⟨⟨?_, hd.isOpen, hd.start_lt⟩, hne⟩
  rw [← hp.same d.id.key ⟨fun o he => ?_, hne⟩]
  · exact hd.stored
  · exact (ho.get?_named hd.stored).1.weekly_key_ne o.1 o.2 he.symm

/-- Days that are due and can be closed come after the cursor. -/
def Behind (cutoff : Instant) (cursor : Option Cursor) (h : History ι α) : Prop :=
  ∀ d c, h.Due cutoff d → DailyView.close.result d = .ok c →
    ∀ k ∈ cursor, Key.before (k.start, k.key) d.place = true

theorem behind_none (cutoff : Instant) (h : History ι α) : Behind cutoff none h :=
  fun _ _ _ _ _ hk => by cases hk

/-- What a page does for the open days behind a cursor: they are all counted and sealed in the end,
    or some of them are left over for the next page. -/
def Advances (cutoff : Instant) (cursor : Option Cursor) (result : SweepResult)
    (h : History ι α) : Step → History ι α → Prop
  | .stop r, h' => r.budgetExhausted = false →
      Swept h' cutoff ∧ r = counted (h.store.openDays cutoff cursor).values result
  | .next k r, h' => Behind cutoff (some k) h' ∧ ∃ size > 0,
      size < (h.store.openDays cutoff cursor).values.length ∧
      (h'.store.openDays cutoff (some k)).values =
        (h.store.openDays cutoff cursor).values.drop size ∧
      r = counted ((h.store.openDays cutoff cursor).values.take size) result

/-- After a page was sealed, the days that are left over come after its cursor. -/
theorem PageSealed.advances {cursor : Option Cursor} {size : ℕ} (hsize : 0 < size)
    (ho : h.Orderly) (ho' : h'.Orderly) (hb : Behind cutoff cursor h) {step : Step}
    (hstep : step.cursor? = (h.store.page cutoff size cursor).next)
    (hresult : step.result = counted (h.store.page cutoff size cursor).days result)
    (hp : PageSealed (closeDays (h.store.page cutoff size cursor).days result).1 h h') :
    Advances cutoff cursor result h step h' := by
  have hs := ho.sound
  have hdue {d : DailyView α} (hd : h'.Due cutoff d) := hp.due ho'
    (fun c hc => (closing_of_mem hs hc).isSealed) hd
  have hafter {d c : DailyView α} (hd : h'.Due cutoff d)
      (hdc : DailyView.close.result d = .ok c) : ∃ k, step.cursor? = some k ∧
        Key.before (k.start, k.key) d.place = true := by
    obtain ⟨hd₀, hne⟩ := hdue hd
    rw [hstep]
    refine hs.after_page hsize (hs.mem_openDays.2 ⟨hd₀, hb d c hd₀ hdc⟩) fun hmem => ?_
    refine hne c (mem_closeDays.2 ⟨d, hmem, hdc⟩) ?_
    rw [(DailyView.close_frame hdc).2.id]
  cases step with
  | stop r =>
    refine fun _ => ⟨?_, ?_⟩
    · rintro c ⟨d, hd, hdc⟩
      obtain ⟨k, hk, -⟩ := hafter hd hdc
      cases hk
    · -- The last page holds all days that are left.
      have hle : (h.store.openDays cutoff cursor).values.length ≤ size := by
        rw [← not_lt, ← Sound.next_isSome_iff hsize, ← hstep]
        exact Bool.false_ne_true
      change r = _ at hresult
      rw [hresult, Store.page, List.take_of_length_le hle]
  | next k r =>
    have hlt : size < (h.store.openDays cutoff cursor).values.length := by
      rw [← Sound.next_isSome_iff hsize, ← hstep]
      rfl
    refine ⟨fun d c hd hdc k' hk' => ?_, size, hsize, hlt,
      hs.openDays_next ho'.sound hstep.symm fun d hd => ⟨fun hd' => (hdue hd').1, fun hd' => ?_⟩,
      hresult⟩
    · obtain ⟨k'', hk'', hbefore⟩ := hafter hd hdc
      cases hk'
      cases hk''
      exact hbefore
    · refine ⟨?_, hd'.isOpen, hd'.start_lt⟩
      rw [hp.same d.id.key ⟨fun o he => ?_, fun c hc he => ?_⟩]
      · exact hd'.stored
      · exact (ho.get?_named hd'.stored).1.weekly_key_ne o.1 o.2 he.symm
      · -- A closed day that has the key of `d` was made from `d`, which is not on the page.
        obtain ⟨d₀, hd₀, hdc⟩ := mem_closeDays.1 hc
        have hstored := (hs.mem_page hd₀).stored
        rw [(DailyView.close_frame hdc).2.id] at he
        rw [← he, hd'.stored] at hstored
        cases hstored
        have hopen := List.mem_of_mem_take hd₀
        have hdrop := (hs.mem_drop_openDays hstep.symm).2 ⟨hopen, hd⟩
        exact List.disjoint_take_drop (hs.nodup_openDays cutoff cursor) le_rfl hd₀ hdrop

theorem page_finishes (hweave : ∀ ps, Program.Weave ps (schedule ps))
    (hsize : 0 < settings.pageSize.toNat) (hi : Midway h₀ cutoff h) (started : Instant)
    {cursor : Option Cursor} (hb : Behind cutoff cursor h) :
    Client.Safe (Terms.lone i (Midway h₀ cutoff) False) (fun x h' => ∀ step, x = .ok step →
      Advances cutoff cursor result h step h')
      (page settings schedule started cutoff cursor result) h := by
  have hs := hi.orderly.sound
  refine Client.safe_bind_result (P := fun _ h' => h' = h) (Client.safe_look (fun _ _ _ => rfl)
      fun _ _ hr _ _ _ => Terms.lasts_lone fun _ => hr) fun time h₁ hi₁ hr => ?_
  obtain rfl := hr.now hi₁
  dsimp only
  split_ifs
  · refine Client.safe_pure_result (Terms.lasts_lone fun _ he => ?_)
    cases he
  refine Client.safe_bind_result (P := fun x h' => h' = h₁ ∧
      x = .ok (.ok (h₁.store.page cutoff settings.pageSize.toNat cursor)))
    (Client.safe_lift (Client.safe_look (fun _ _ _ => rfl)
      fun h₂ _ hr now fault hf => Terms.lasts_lone fun _ => ?_))
    fun fetched h₂ hi₂ hf => ?_
  · cases fault with
    | some e => exact (hf rfl).elim
    | none =>
      obtain rfl := hr
      exact ⟨rfl, rfl⟩
  · obtain ⟨rfl, hf⟩ := hf.now hi₂
    obtain rfl := Except.ok.inj hf
    dsimp only
    split
    · next hempty =>
      have hnil := List.isEmpty_iff.1 hempty
      have hopen : (h₂.store.openDays cutoff cursor).values = [] :=
        (List.take_eq_nil_iff.1 hnil).resolve_left hsize.ne'
      refine Client.safe_pure_result (Terms.lasts_lone fun _ _ => ⟨?_, by rw [hopen, counted_nil]⟩)
      rintro c ⟨d, hd, hdc⟩
      have hmem := hs.mem_openDays.2 ⟨hd, hb d c hd hdc⟩
      rw [hopen] at hmem
      cases hmem
    · refine Program.Safe.mono (sealDays_finishes hweave hi (fun c hc => closing_of_mem hs hc)
        (pairwise_closeDays hs _ _ _ _) _) fun x h' hi' hx step hstep => ?_
      obtain ⟨hcursor, hcount, hp⟩ := hx step hstep
      exact hp.advances hsize hi.orderly hi'.orderly hb hcursor (hcount.trans (counted_eq _ _))

/-- Page after page, until all open days were counted and no day is left over. -/
theorem pages_finishes (hweave : ∀ ps, Program.Weave ps (schedule ps))
    (hsize : 0 < settings.pageSize.toNat) (hi : Midway h₀ cutoff h) (started : Instant)
    {cursor : Option Cursor} (hb : Behind cutoff cursor h) {limit : ℕ}
    (hlimit : (h.store.openDays cutoff cursor).values.length < limit) :
    Client.Safe (Terms.lone i (Midway h₀ cutoff) False)
      (fun x h' => ∀ r, x = .ok r → r.budgetExhausted = false →
        Swept h' cutoff ∧ r = counted (h.store.openDays cutoff cursor).values result)
      (pages settings schedule started cutoff limit cursor result) h := by
  induction limit generalizing h cursor result with
  | zero => exact absurd hlimit (Nat.not_lt_zero _)
  | succ limit ih =>
    refine Client.safe_bind_result (page_finishes hweave hsize hi started hb)
      fun step h' hi' hstep => ?_
    have hadvances := hstep.now hi' step rfl
    cases step with
    | stop r => exact Client.safe_pure_result (Terms.lasts_lone fun _ => hadvances)
    | next k r =>
      obtain ⟨hb', size, hpos, hlt, hrest, rfl⟩ := hadvances
      have hlength := congrArg List.length hrest
      rw [List.length_drop] at hlength
      refine (ih hi' hb' (by omega)).mono fun x h'' _ hx r hr he => ?_
      obtain ⟨hswept, hcount⟩ := hx r hr he
      refine ⟨hswept, ?_⟩
      rw [hcount, hrest, ← counted_append, List.take_append_drop]

end Sweep

end WeatherStation
