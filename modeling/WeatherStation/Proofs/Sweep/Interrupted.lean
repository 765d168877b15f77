import WeatherStation.Proofs.Sweep.Account
import WeatherStation.Proofs.Sweep.Sealing

/-!
# One sweep among readings

A single sweep works while readings come in, and any of its calls may be refused. What it counts is
what it has done to the store: the days that it counts as processed are those that are sealed now
and were not before, and all of them agree with their weeks. A portion whose rollup failed stays as
it is.

Results:
* `Store.turned`: the days that were sealed between two states of a store.
* `Terms.Told.holdsSealed_iff`: the sealed days after some exchanges of a sweep.
* `Terms.Told.not_holdsSealed_of_page`: a day that is fetched was not sealed before.
* `Sweep.Account.counts_add`, `Sweep.Account.perm_turned`: what an account says about the result and
  about the store.
* `Sweep.interrupted_sweep`: every run.
-/

namespace WeatherStation

variable {ι α : Type}

namespace Store

/-- Whether a key holds a sealed day. -/
def holdsSealed (s : Store α) (key : String) : Bool :=
  ((s.get? key).bind View.daily?).any WindowView.isSealed

/-- The keys that hold a sealed day now and did not before. -/
def turned (s s' : Store α) : List String :=
  s'.views.keys.filter fun key => s'.holdsSealed key && !s.holdsSealed key

theorem holdsSealed_iff {s : Store α} {key : String} :
    s.holdsSealed key = true ↔ ∃ d, s.get? key = some (.daily d) ∧ d.isSealed = true := by
  simp only [holdsSealed, Option.any_eq_true, View.bind_daily?_eq_some]

theorem holdsSealed_of_get? {s : Store α} {key : String} {d : DailyView α}
    (hd : s.get? key = some (.daily d)) : s.holdsSealed key = d.isSealed := by
  rw [holdsSealed, View.bind_daily?_eq_some.2 hd, Option.any_some]

theorem mem_turned {s s' : Store α} {key : String} :
    key ∈ s.turned s' ↔ s'.holdsSealed key = true ∧ s.holdsSealed key = false := by
  simp only [turned, List.mem_filter, Bool.and_eq_true, Bool.not_eq_true', and_iff_right_iff_imp]
  rintro ⟨h, -⟩
  obtain ⟨d, hd, -⟩ := holdsSealed_iff.1 h
  exact SortedMap.mem_keys_iff.2 ⟨_, hd⟩

theorem nodup_turned (s s' : Store α) : (s.turned s').Nodup :=
  (SortedMap.nodup_keys _).filter _

end Store

namespace History

variable {h h' : History ι α} {key : String}

theorem SealedStay.holdsSealed (hs : SealedStay h h') (hk : h.store.holdsSealed key = true) :
    h'.store.holdsSealed key = true := by
  obtain ⟨d, hd, hsealed⟩ := Store.holdsSealed_iff.1 hk
  exact Store.holdsSealed_iff.2 ⟨d, hs key d hd hsealed, hsealed⟩

theorem SameSettled.holdsSealed_iff (hs : SameSettled h h') :
    h.store.holdsSealed key = true ↔ h'.store.holdsSealed key = true := by
  simp only [Store.holdsSealed_iff]
  refine exists_congr fun d => and_congr_left fun hsealed => ?_
  exact hs key (.daily d) hsealed

/-- A write that leaves the sealed days as they are does not replace one: what was sealed under its
    key would have got a new version. -/
theorem SealedStay.open_of_put {i : ι} {v : View α} (hs : SealedStay h (h.put i v))
    (hsound : h.Sound) : h.store.holdsSealed v.key = false := by
  rw [Bool.eq_false_iff]
  intro hk
  obtain ⟨d, hd, hsealed⟩ := Store.holdsSealed_iff.1 hk
  have hput := hs v.key d hd hsealed
  rw [get?_put, if_pos rfl, Option.some_inj] at hput
  refine (hsound.get?_recorded hd).2.version_ne_fresh hsound ?_
  rw [← hput, View.version_withVersion]

theorem SealedStay.holdsSealed_put_iff {i : ι} {v : View α} (hs : SealedStay h (h.put i v)) :
    (h.put i v).store.holdsSealed key = true ↔
      h.store.holdsSealed key = true ∨ v.key = key ∧ ∃ c, v = .daily c ∧ c.isSealed = true := by
  constructor
  · intro hk
    obtain ⟨d, hd, hsealed⟩ := Store.holdsSealed_iff.1 hk
    rw [get?_put] at hd
    split_ifs at hd with hkey
    · refine .inr ⟨hkey.symm, ?_⟩
      cases v with
      | daily c =>
        cases hd
        exact ⟨c, rfl, hsealed⟩
      | _ => cases hd
    · exact .inl (Store.holdsSealed_iff.2 ⟨d, hd, hsealed⟩)
  · rintro (hk | ⟨rfl, c, rfl, hsealed⟩)
    · exact hs.holdsSealed hk
    · refine Store.holdsSealed_iff.2 ⟨{ c with version := some h.store.freshVersion }, ?_, hsealed⟩
      rw [get?_put, if_pos rfl]
      rfl

end History

namespace Sweep

open History

/-- A reading leaves weeks and sealed days alone, whatever the others do. -/
def openTerms (i : ι) : Terms ι α :=
  { readingTerms (fun _ _ => True) i with inv := Lasting }

/-- The only sweep on the store. -/
def onlyTerms (P : History ι α → DailyView α → Prop) (i : ι) : Terms ι α :=
  (lastingTerms i).and (sweepTerms P i)

end Sweep

/-! ## What the exchanges have sealed -/

/-- A request of a sweep seals at most the day that it writes, and that day was open. -/
theorem History.serve_holdsSealed {h : History ι α} {i : ι} {now : Except Overflow Instant}
    {fault : Option StoreError} {r : Request α} (hs : SealedStay h (h.serve now fault i r).2)
    (hsound : h.Sound) (hr : Sweep.Modest [(⟨r, (h.serve now fault i r).1⟩ : Exchange α)]) :
    (∀ key, (h.serve now fault i r).2.store.holdsSealed key = true ↔
      h.store.holdsSealed key = true ∨
        Exchange.sealedKey? ⟨r, (h.serve now fault i r).1⟩ = some key) ∧
    ∀ key, Exchange.sealedKey? ⟨r, (h.serve now fault i r).1⟩ = some key →
      h.store.holdsSealed key = false := by
  cases r with
  | write v condition =>
    have hrefused (e : StoreError) : Exchange.sealedKey? ⟨.write v condition, .error e⟩ = none := by
      cases v <;> rfl
    have hsealed (version : Version) (key : String) :
        Exchange.sealedKey? ⟨.write v condition, .ok version⟩ = some key ↔
          v.key = key ∧ ∃ c, v = .daily c ∧ c.isSealed = true := by
      rcases hr _ List.mem_cons_self v condition rfl with ⟨w, rfl⟩ | ⟨c, rfl, hc⟩
      · simp [Exchange.sealedKey?]
      · simp [Exchange.sealedKey?, hc, View.key, View.id]
    cases fault with
    | some e => simp [serve, hrefused]
    | none =>
      simp only [serve] at hs ⊢
      split_ifs at hs ⊢ with ha
      · simp only [hsealed]
        refine ⟨fun key => hs.holdsSealed_put_iff, ?_⟩
        rintro key ⟨rfl, -⟩
        exact hs.open_of_put hsound
      · simp [hrefused]
  | _ => exact ⟨fun key => by simp [serve, Exchange.sealedKey?], fun key hk => by cases hk⟩

/-- What a page is told to hold are open days that are stored. -/
theorem History.Sound.mem_of_page? {h : History ι α} (hs : h.Sound) {i : ι}
    {now : Except Overflow Instant} {fault : Option StoreError} {r : Request α}
    {days : List (DailyView α)}
    (hx : Exchange.page? ⟨r, (h.serve now fault i r).1⟩ = some days) {d : DailyView α}
    (hd : d ∈ days) : h.store.get? d.id.key = some (.daily d) ∧ d.isSealed = false := by
  cases r with
  | page cutoff size cursor =>
    cases fault with
    | some e => cases hx
    | none =>
      cases hx
      exact ⟨(hs.mem_page hd).stored, (hs.mem_page hd).isOpen⟩
  | _ => cases hx

namespace Terms.Told

open Sweep History

variable {P : History ι α → DailyView α → Prop} {i : ι} {h h' : History ι α}
  {xs : List (Exchange α)}

theorem sealedStay (ht : (onlyTerms P i).Told h xs h') : SealedStay h h' := by
  induction ht with
  | done hr => exact hr.1.2
  | ask now fault _ hr _ _ hg _ ih => exact hr.1.2.trans (hg.1.2.trans ih)

/-- The days that a sweep has sealed are those whose writes were answered; all of them were open. -/
theorem holdsSealed_iff (ht : (onlyTerms P i).Told h xs h') (hxs : Modest xs) :
    (∀ key, h'.store.holdsSealed key = true ↔
      h.store.holdsSealed key = true ∨ key ∈ xs.filterMap Exchange.sealedKey?) ∧
    (xs.filterMap Exchange.sealedKey?).Nodup ∧
    ∀ key ∈ xs.filterMap Exchange.sealedKey?, h.store.holdsSealed key = false := by
  induction ht with
  | done hr => exact ⟨fun key => by simp [hr.2.2.holdsSealed_iff], by simp, by simp⟩
  | @ask h h₁ h' r xs now fault _ hr hi hi' hg ht ih =>
    obtain ⟨hiff, hnodup, hopen⟩ := ih fun x hx => hxs x (List.mem_cons_of_mem _ hx)
    obtain ⟨hstep, hnew⟩ := serve_holdsSealed hg.1.2 hi.1.orderly.sound
      fun x hx => hxs x (List.mem_cons.2 (.inl (List.mem_singleton.1 hx)))
    have hsame (key : String) :
        h.store.holdsSealed key = true ↔ h₁.store.holdsSealed key = true :=
      hr.2.2.holdsSealed_iff
    cases hx : Exchange.sealedKey? ⟨r, (h₁.serve now fault (onlyTerms P i).client r).1⟩ with
    | none =>
      rw [List.filterMap_cons_none hx]
      simp only [hx, or_false, reduceCtorEq] at hstep
      refine ⟨fun key => by rw [hiff, hstep, hsame], hnodup, fun key hk => ?_⟩
      rw [Bool.eq_false_iff, Ne, hsame, ← hstep]
      exact Bool.eq_false_iff.1 (hopen key hk)
    | some key₀ =>
      rw [List.filterMap_cons_some hx]
      simp only [hx, Option.some.injEq] at hstep hnew
      refine ⟨fun key => ?_, List.nodup_cons.2 ⟨fun hk => ?_, hnodup⟩, fun key hk => ?_⟩
      · rw [hiff, hstep, hsame, List.mem_cons, or_assoc, eq_comm (a := key₀)]
      · exact Bool.eq_false_iff.1 (hopen key₀ hk) ((hstep key₀).2 (.inr rfl))
      · rw [Bool.eq_false_iff, Ne, hsame]
        intro hk'
        rcases List.mem_cons.1 hk with rfl | hk
        · rw [hnew key rfl] at hk'
          cases hk'
        · exact Bool.eq_false_iff.1 (hopen key hk) ((hstep key).2 (.inl hk'))

/-- A day that is fetched was not sealed before. -/
theorem not_holdsSealed_of_page (ht : (onlyTerms P i).Told h xs h') {days : List (DailyView α)}
    (hpage : days ∈ xs.filterMap Exchange.page?) {d : DailyView α} (hd : d ∈ days) :
    h.store.holdsSealed d.id.key = false := by
  induction ht with
  | done hr => cases hpage
  | @ask h h₁ h' r xs now fault _ hr hi hi' hg ht ih =>
    rw [Bool.eq_false_iff]
    intro hk
    have hk₁ := hr.1.2.holdsSealed hk
    rw [List.filterMap_cons] at hpage
    split at hpage
    · exact Bool.eq_false_iff.1 (ih hpage) (hg.1.2.holdsSealed hk₁)
    · next days' hx =>
      rcases List.mem_cons.1 hpage with rfl | hpage
      · obtain ⟨hget, hopen⟩ := hi.1.orderly.sound.mem_of_page? hx hd
        obtain ⟨d', hd', hsealed⟩ := Store.holdsSealed_iff.1 hk₁
        rw [hget] at hd'
        cases hd'
        rw [hopen] at hsealed
        cases hsealed
      · exact Bool.eq_false_iff.1 (ih hpage) (hg.1.2.holdsSealed hk₁)

end Terms.Told

/-! ## The result of a sweep -/

namespace Sweep

section

variable [Quantity α] {settings : SweepSettings}
  {schedule : Rollup.Schedule α (Except RollupError String)} {started cutoff : Instant}

/-- A sweep that does not come to a result was not told the time. -/
theorem Portions.noTime {limit : ℕ} {cursor : Option Cursor} {r : SweepResult}
    {xs : List (Exchange α)} {e : Overflow}
    (h : Portions settings schedule started cutoff limit cursor r xs (.error e)) :
    ⟨.now, .error e⟩ ∈ xs := by
  generalize hy : (Except.error e : Except Overflow SweepResult) = y at h
  induction h with
  | unlimited => cases hy
  | failed h =>
    cases hy
    cases h with
    | noTime => exact List.mem_cons_self
  | stop _ => cases hy
  | next _ _ ih => exact List.mem_append_right _ (ih hy)

/-- The rollup of a portion failed exactly if the result says so. -/
theorem Account.aborted_iff {r : SweepResult} {xs : List (Exchange α)}
    {kept : List (List (DailyView α))} {aborted : Option (List (DailyView α))}
    {fates : List (DailyView α × Fate)} (h : Account .start r xs kept aborted fates) :
    aborted.isSome ↔ ∃ e : RollupError, r.error = some ("Weekly rollup failed: " ++ e.message) := by
  have hstopped := h.stopped
  cases aborted with
  | some days => exact iff_of_true rfl hstopped.2
  | none =>
    refine iff_of_false (by simp) ?_
    rintro ⟨e, he⟩
    rcases hstopped with hnone | ⟨e', he'⟩
    · rw [he] at hnone
      cases hnone
    · -- The two messages begin with different letters.
      rw [he, Option.some_inj] at he'
      have hhead := congrArg (fun s => s.toList.head?) he'
      simp at hhead

/-- Every fate is one of three. -/
theorem count_fates (fates : List Fate) :
    fates.count .sealed + fates.count .skipped + fates.count .failed = fates.length := by
  induction fates with
  | nil => rfl
  | cons fate fates ih => cases fate <;> simp <;> omega

omit [Quantity α] in
theorem length_sealedKeys (fates : List (DailyView α × Fate)) :
    (sealedKeys fates).length = (fates.map Prod.snd).count .sealed := by
  induction fates with
  | nil => rfl
  | cons f fates ih =>
    obtain ⟨d, fate⟩ := f
    cases fate <;> simpa [sealedKeys] using ih

namespace Account

variable {r : SweepResult} {xs : List (Exchange α)} {kept : List (List (DailyView α))}
  {aborted : Option (List (DailyView α))} {fates : List (DailyView α × Fate)}
  {P : History ι α → DailyView α → Prop} {i : ι} {h₀ h' : History ι α}

theorem processed_eq (h : Account .start r xs kept aborted fates) :
    r.processed = (sealedKeys fates).length := by
  have hprocessed := h.processed
  rwa [← length_sealedKeys, SweepResult.start, Nat.zero_add] at hprocessed

/-- All days of the portions that were not aborted are counted, and each of them once. -/
theorem counts_add (h : Account .start r xs kept aborted fates) :
    r.processed + r.skipped + r.failed = kept.flatten.length +
      (aborted.getD []).countP (fun d => !(DailyView.close.result d).isOk) := by
  have hprocessed := h.processed
  have hskipped := h.skipped
  have hfailed := h.failed
  have hcount := count_fates (fates.map Prod.snd)
  have hlength := congrArg List.length h.days
  simp only [SweepResult.start, List.length_map] at *
  omega

/-- The days with the fate of being sealed are those that the store has newly sealed. -/
theorem perm_turned (h : Account .start r xs kept aborted fates)
    (ht : (onlyTerms P i).Told h₀ xs h') :
    (sealedKeys fates).Perm (h₀.store.turned h'.store) := by
  obtain ⟨hiff, hnodup, hopen⟩ := ht.holdsSealed_iff h.modest
  rw [h.sealed_keys] at hiff hnodup hopen
  refine (List.perm_ext_iff_of_nodup hnodup (Store.nodup_turned _ _)).2 fun key => ?_
  rw [Store.mem_turned, hiff]
  constructor
  · exact fun hk => ⟨.inr hk, hopen key hk⟩
  · rintro ⟨hk | hk, hnot⟩
    · rw [hk] at hnot
      cases hnot
    · exact hk

/-- An aborted portion stays as it is. -/
theorem notMem_turned_of_aborted {days : List (DailyView α)}
    (h : Account .start r xs kept (some days) fates) (ht : (onlyTerms P i).Told h₀ xs h')
    {d : DailyView α} (hd : d ∈ days) : d.id.key ∉ h₀.store.turned h'.store := by
  intro hk
  have hkey : d.id.key ∈ sealedKeys fates := (h.perm_turned ht).mem_iff.2 hk
  obtain ⟨us, vs, rfl, -, hpage, hnone⟩ := h.fetched
  have hsealed := h.sealed_keys
  rw [List.filterMap_append, hnone, List.append_nil] at hsealed
  -- A day that was sealed was sealed before the last page was fetched, on which it was open.
  obtain ⟨h₁, hus, hvs⟩ := ht.exists_of_append
  have hiff := (hus.holdsSealed_iff (modest_append.1 h.modest).1).1 d.id.key
  have hnot := hvs.not_holdsSealed_of_page (by simp [hpage]) hd
  rw [hiff.2 (.inr (hsealed ▸ hkey))] at hnot
  cases hnot

end Account

end

/-- A day agrees with its week, unless it was sealed before `h₀`. -/
def InWeekSince [Quantity α] (h₀ h : History ι α) (d : DailyView α) : Prop :=
  h.InWeek d ∨ h₀.store.holdsSealed d.id.key = true

theorem followsWeek_inWeekSince [Quantity α] (h₀ : History ι α) : FollowsWeek (InWeekSince h₀) :=
  ⟨.inl, fun hin hd => hd.imp_left hin⟩

theorem rolledUp_inWeekSince [Quantity α] {h : History ι α} (ho : h.Orderly) :
    h.RolledUp (InWeekSince h) := by
  refine ⟨ho, fun {key d} hd hsealed => .inr (Store.holdsSealed_iff.2 ⟨d, ?_, hsealed⟩)⟩
  have hkey : d.id.key = key := (ho.get?_named hd).2
  rw [hkey]
  exact hd

end Sweep

/-! ## Every run -/

namespace Job

open Sweep

variable {P : History ι α → DailyView α → Prop}

/-- The terms of a client, where sweeps may overlap. -/
def freeTerms (i : ι) : Job α → Terms ι α
  | reading .. => openTerms i
  | sweep .. => lastingTerms i

/-- The terms of a client, where there is one sweep only. -/
def onlyTerms (P : History ι α → DailyView α → Prop) (i : ι) : Job α → Terms ι α
  | reading .. => (openTerms i).keeping (History.RolledUp P)
  | sweep .. => Sweep.onlyTerms P i

@[simp]
theorem faulty_freeTerms (i : ι) (job : Job α) : (job.freeTerms i).faulty := by
  cases job <;> exact trivial

theorem faulty_onlyTerms (i : ι) (job : Job α) : (job.onlyTerms P i).faulty := by
  cases job with
  | reading => exact trivial
  | sweep => exact ⟨trivial, trivial⟩

theorem freeTerms_fit {i j : ι} {job job' : Job α} {h h' : History ι α}
    (hg : (job.freeTerms i).grant h h') : (job'.freeTerms j).rely h h' := by
  have hboth : h.log <+: h'.log ∧ h.SealedStay h' := by
    cases job with
    | reading => exact ⟨hg.1, hg.2.sealedStay⟩
    | sweep => exact hg
  cases job' with
  | reading => exact hboth.1
  | sweep => exact hboth

theorem inv_onlyTerms (i : ι) (job : Job α) :
    (job.onlyTerms P i).inv = fun h => h.Lasting ∧ h.RolledUp P := by
  cases job <;> rfl

/-- Readings put up with everybody, and the sweep with readings. -/
theorem onlyTerms_fit {i j : ι} {job job' : Job α} (hs : ¬ (job.isSweep ∧ job'.isSweep))
    {h h' : History ι α} (hg : (job.onlyTerms P i).grant h h') :
    (job'.onlyTerms P j).rely h h' := by
  cases job with
  | reading => cases job' with
    | reading => exact hg.1
    | sweep => exact ⟨⟨hg.1, hg.2.sealedStay⟩, hg⟩
  | sweep => cases job' with
    | reading => exact hg.1.1
    | sweep => exact absurd ⟨rfl, rfl⟩ hs

variable [Quantity α]

theorem safe_free (i : ι) (job : Job α) (h : History ι α) :
    job.answering.Safe (job.freeTerms i) (fun _ _ => True) h := by
  cases job with
  | reading settings r =>
    have hwrite {h : History ι α} {v : View α} (hl : h.Lasting) (ho : (h.put i v).Orderly)
        (hs : h.SameSettled (h.put i v)) :
        (h.put i v).Lasting ∧ h.log <+: (h.put i v).log ∧ h.SameSettled (h.put i v) :=
      ⟨hl.put ho hs.sealedStay, List.prefix_append _ _, hs⟩
    exact (Ingest.apply_safe_of_settled (T := openTerms i) History.Lasting.orderly id hwrite
      settings r h).bind fun _ _ _ _ _ _ _ => trivial
  | sweep settings schedule weaves limit lookbackHours =>
    exact (execute_safe_lasting i settings weaves limit lookbackHours h).bind
      fun _ _ _ _ _ _ _ => trivial

/-- A reading that has begun keeps what is known of sealed days. -/
theorem safe_reading (hP : FollowsWeek P) {i : ι} {job : Job α} (hjob : job.isSweep = false)
    {β : Type} {p : Program α β} {h : History ι α}
    (hp : p.Safe (job.freeTerms i) (fun _ _ => True) h) :
    p.Safe (job.onlyTerms P i) (fun _ _ => True) h := by
  cases job with
  | sweep => cases hjob
  | reading =>
    refine Program.Safe.keeping hp fun {h h'} hrolled hl hg => ?_
    exact hrolled.of_sameSettled hl.orderly hg.2 fun d hd =>
      hP.keep (fun hin => hin.of_sameSettled hg.2) hd

/-- The only sweep keeps its terms and tells what it was told. -/
theorem safe_only (hP : FollowsWeek P) {i : ι} {job : Job α} (hjob : job.isSweep = true)
    (h : History ι α) :
    job.answering.traced.Safe (job.onlyTerms P i) (fun y h' =>
      job.answering.Traces y.2 y.1 ∧ (job.onlyTerms P i).Told h y.2 h') h := by
  cases job with
  | reading => cases hjob
  | sweep settings schedule weaves limit lookbackHours =>
    have hsafe : (sweep settings schedule weaves limit lookbackHours).answering.Safe
        (Sweep.onlyTerms P i) (fun _ _ => True) h :=
      Program.Safe.bind (Program.Safe.and
        (execute_safe_lasting i settings weaves limit lookbackHours h)
        (execute_safe_alone hP i settings weaves limit lookbackHours h) rfl)
        fun _ _ _ _ _ _ _ => trivial
    exact ((Program.traced_yields _).safe hsafe.traced).mono fun _ _ _ hy => ⟨hy.1, hy.2.2⟩

end Job

namespace Sweep

variable [DecidableEq ι] [Quantity α]

/-- What a single sweep was told and what has become of the store, if it makes its requests among
    those of readings and is done. -/
theorem only_sweep (jobs : ι → Job α) {i : ι} (hi : (jobs i).isSweep = true)
    {before during : List (Move ι)} (hbefore : ∀ m ∈ before, m.client ≠ i)
    (hduring : ∀ m ∈ during, m.client = i ∨ (jobs m.client).isSweep = false)
    {y : Answer × List (Exchange α)} :
    let t := (Traffic.start fun j => (jobs j).answering.traced).run before
    let t' := t.run during
    t'.clients i = .done y → (jobs i).answering.Traces y.2 y.1 ∧
      ((jobs i).onlyTerms (InWeekSince t.history) i).Told t.history y.2 t'.history ∧
      t'.history.RolledUp (InWeekSince t.history) := by
  intro t t' hdone
  have hinv (j : ι) : ((jobs j).freeTerms j).inv = History.Lasting := by cases jobs j <;> rfl
  have hfree := Traffic.run_safe (T := fun j => (jobs j).freeTerms j) (fun _ _ _ => True)
    (t := .start fun j => (jobs j).answering.traced) (fun j => by cases jobs j <;> rfl) hinv
    (fun j j' _ _ _ hg => Job.freeTerms_fit hg) History.lasting_empty
    (fun j => ((jobs j).safe_free j _).traced.mono fun _ _ _ _ => trivial) before
  have hP := followsWeek_inWeekSince t.history
  have honly := Traffic.run_safe_among (p := fun j => j = i ∨ (jobs j).isSweep = false)
    (T := fun j => (jobs j).onlyTerms (InWeekSince t.history) j) (t := t)
    (fun j y h => j = i → (jobs j).answering.Traces y.2 y.1 ∧
      ((jobs j).onlyTerms (InWeekSince t.history) j).Told t.history y.2 h)
    (fun j => by cases jobs j <;> rfl) (fun j _ => (jobs j).inv_onlyTerms j)
    (fun j j' h h' hj hj' hne hg => Job.onlyTerms_fit (fun hs => ?_) hg)
    ⟨hfree.1, rolledUp_inWeekSince hfree.1.orderly⟩ (fun j hj => ?_) hduring
    fun m _ _ => (jobs m.client).faulty_onlyTerms _
  · have hpost := Traffic.post_of_done (T := (jobs i).onlyTerms (InWeekSince t.history) i)
      (by rw [Job.inv_onlyTerms]; exact honly.1) (honly.2 i (.inl rfl)) hdone rfl
    exact ⟨hpost.1, hpost.2, honly.1.2⟩
  · have heq {k : ι} (hk : k = i ∨ (jobs k).isSweep = false) (hsweep : (jobs k).isSweep = true) :
        k = i := hk.resolve_right (by simp [hsweep])
    exact hne ((heq hj hs.1).trans (heq hj' hs.2).symm)
  · by_cases hji : j = i
    · subst hji
      have hnew : j ∉ before.map Move.client := by simpa using fun m hm => hbefore m hm
      rw [Traffic.clients_run_of_notMem _ hnew]
      exact ((jobs j).safe_only hP hi _).mono fun _ _ _ hy _ => hy
    · exact (Job.safe_reading hP (hj.resolve_left hji) (hfree.2 j)).mono fun _ _ _ _ he =>
        absurd he hji

/-- A single sweep among readings, any of whose calls may be refused. It comes to a result unless the
    clock or the cutoff fails. Then it has an account: every day of a portion that was not aborted
    has one fate, and the days with the fate of being sealed are those that are sealed now and were
    not before. An aborted portion stays as it is. -/
theorem interrupted_sweep (jobs : ι → Job α) {i : ι} {settings : SweepSettings}
    {schedule : Rollup.Schedule α (Except RollupError String)}
    {weaves : ∀ ps, Program.Weave ps (schedule ps)} {limit : ℕ} {lookbackHours : UInt32}
    (hi : jobs i = .sweep settings schedule weaves limit lookbackHours)
    {before during : List (Move ι)} (hbefore : ∀ m ∈ before, m.client ≠ i)
    (hduring : ∀ m ∈ during, m.client = i ∨ (jobs m.client).isSweep = false)
    {y : Except Overflow SweepResult} {xs : List (Exchange α)} :
    let t := (Traffic.start fun j => (jobs j).answering.traced).run before
    let t' := t.run during
    let turned := t.history.store.turned t'.history.store
    t'.clients i = .done (.swept y, xs) →
      (∀ e, y = .error e → ⟨.now, .error e⟩ ∈ xs ∨
        ∃ started, ⟨.now, .ok started⟩ ∈ xs ∧ cutoff started lookbackHours = .error e) ∧
      ∀ result, y = .ok result → ∃ kept aborted fates, Account .start result xs kept aborted fates ∧
        result.processed = turned.length ∧ (sealedKeys fates).Perm turned ∧
        result.processed + result.skipped + result.failed = kept.flatten.length +
          (aborted.getD []).countP (fun d => !(DailyView.close.result d).isOk) ∧
        (aborted.isSome ↔
          ∃ e : RollupError, result.error = some ("Weekly rollup failed: " ++ e.message)) ∧
        (∀ days ∈ aborted, result.success = false ∧ ∀ d ∈ days, d.id.key ∉ turned) ∧
        ∀ key ∈ turned, ∃ d, t'.history.store.get? key = some (.daily d) ∧ d.isSealed = true ∧
          t'.history.InWeek d := by
  intro t t' turned hdone
  obtain ⟨htraces, htold, hrolled⟩ := only_sweep jobs (by rw [hi]; rfl) hbefore hduring hdone
  rw [hi] at htraces htold
  obtain ⟨y', xs₁, xs₂, hxs, hexecute, hanswer⟩ := Program.traces_bind.1 htraces
  obtain ⟨rfl, hy⟩ := Program.traces_done.1 hanswer
  obtain rfl : y = y' := Answer.swept.inj hy
  obtain rfl : xs = xs₁ := by simpa using hxs
  rcases execute_traces hexecute with ⟨e, rfl, rfl⟩ | ⟨started, ys, rfl, hcutoff⟩
  · exact ⟨fun e' he => by cases he; exact .inl List.mem_cons_self, fun _ h => by cases h⟩
  rcases hcutoff with ⟨e, he, rfl, rfl⟩ | ⟨cutoff, -, hportions⟩
  · refine ⟨fun e' he' => ?_, fun _ h => by cases h⟩
    cases he'
    exact .inr ⟨started, List.mem_cons_self, he⟩
  refine ⟨fun e he => ?_, fun result hresult => ?_⟩
  · subst he
    exact .inl (List.mem_cons_of_mem _ hportions.noTime)
  subst hresult
  obtain ⟨kept, aborted, fates, hys⟩ := hportions.account weaves
  have hstart : Account (α := α) .start .start [⟨.now, .ok started⟩] [] none [] :=
    account_nil rfl rfl modest_now ⟨rfl, rfl, rfl⟩ (.inl rfl)
  have h : Account .start result (⟨.now, .ok started⟩ :: ys) kept aborted fates :=
    hstart.append hys
  have hperm : (sealedKeys fates).Perm turned := h.perm_turned htold
  refine ⟨kept, aborted, fates, h, h.processed_eq.trans hperm.length_eq, hperm, h.counts_add,
    h.aborted_iff, fun days hdays => ?_, fun key hk => ?_⟩
  · cases hdays
    exact ⟨h.stopped.1, fun _ hd => h.notMem_turned_of_aborted htold hd⟩
  · obtain ⟨hk, hnot⟩ := Store.mem_turned.1 hk
    obtain ⟨d, hd, hsealed⟩ := Store.holdsSealed_iff.1 hk
    refine ⟨d, hd, hsealed, (hrolled.sealed_days hd hsealed).resolve_right ?_⟩
    have hkey : d.id.key = key := (hrolled.orderly.get?_named hd).2
    rw [hkey, hnot]
    exact Bool.false_ne_true

/-- Two portions of one day each. The store is locked when the week of the second one is read. -/
theorem second_portion_aborted :
    let jobs : Fin 3 → Job ℚ := ![.reading .standard (reading "first" 10),
      .reading .standard { reading "first" 20 with device := "other" },
      .takingTurns { SweepSettings.standard with pageSize := 1 } 2]
    let t := (Traffic.start fun j => (jobs j).answering.traced).run
      (twoDaysLater [0, 0, 0, 0, 0, 1, 1, 1, 1, 1])
    let t' := t.run (twoDaysLater [2, 2, 2, 2, 2, 2, 2, 2] ++
      (twoDaysLater [2]).map fun m => { m with fault := some .lock })
    ∃ result xs kept aborted fates, t'.clients 2 = .done (.swept (.ok result), xs) ∧
      Account .start result xs kept aborted fates ∧ aborted.isSome = true ∧
      result.processed = (t.history.store.turned t'.history.store).length ∧
      t.history.store.turned t'.history.store = ["dev|daily|2025-09-11"] := by
  intro jobs t t'
  have hresult : (t'.clients 2).result?.map Prod.fst = some (.swept (.ok ⟨false, 1, 0, 0, false,
      some ("Weekly rollup failed: " ++ StoreError.lock.message)⟩)) := by decide +kernel
  obtain ⟨⟨_, xs⟩, hdone, rfl⟩ := Option.map_eq_some_iff.1 hresult
  have hdone := Program.eq_done_of_result? hdone
  obtain ⟨kept, aborted, fates, haccount, hprocessed, -, -, haborted, -⟩ :=
    (interrupted_sweep jobs (i := 2) rfl (by decide) (by decide) hdone).2 _ rfl
  refine ⟨_, xs, kept, aborted, fates, hdone, haccount, ?_, hprocessed, by decide +kernel⟩
  exact haborted.2 ⟨.store .lock, rfl⟩

end Sweep

end WeatherStation
