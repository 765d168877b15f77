import WeatherStation.Proofs.Sweep.SealedDays

/-!
# Sealing is final

Any number of readings and sweeps work on one store, and their requests come in any order. A day
that is sealed once is never written again, because whoever writes it has read it open and writes
only if nobody wrote it since.

Results:
* `History.SealedStay`: sealed days stay as they are, with their versions.
* `History.Lasting`: every day that was ever written as a sealed one is stored as a sealed one.
* `Sweep.apply_safe_lasting`, `Sweep.execute_safe_lasting`: readings and sweeps keep both.
* `Ingest.Walk.before_sealing`: a window is updated only before it is sealed.
* `Sweep.sealing_is_final`: every run.
-/

namespace WeatherStation

variable {ι α : Type} {g : Granularity}

namespace History

/-- Sealed days stay as they are. -/
def SealedStay (h h' : History ι α) : Prop :=
  ∀ key d, h.store.get? key = some (.daily d) → d.isSealed = true →
    h'.store.get? key = some (.daily d)

theorem SealedStay.refl (h : History ι α) : SealedStay h h := fun _ _ hd _ => hd

theorem SealedStay.trans {h h' h'' : History ι α} (hs : SealedStay h h') (hs' : SealedStay h' h'') :
    SealedStay h h'' :=
  fun key d hd hsealed => hs' key d (hs key d hd hsealed) hsealed

theorem SameSettled.sealedStay {h h' : History ι α} (hs : SameSettled h h') : SealedStay h h' :=
  fun key d hd hsealed => (hs key (.daily d) hsealed).1 hd

variable {h h' : History ι α} {i : ι}

/-- A write that does not replace a sealed day. -/
theorem sealedStay_put {v : View α}
    (hold : ∀ d, h.store.get? v.key = some (.daily d) → d.isSealed = false) :
    SealedStay h (h.put i v) := by
  intro key d hd hsealed
  rw [get?_put, if_neg]
  · exact hd
  · rintro rfl
    rw [hold d hd] at hsealed
    cases hsealed

/-- Every day that was written as a sealed one is stored as a sealed one. -/
structure Lasting (h : History ι α) : Prop where
  orderly : h.Orderly
  stored : ∀ e ∈ h.log, ∀ c, e.2 = .daily c → c.isSealed = true →
    ∃ d, h.store.get? e.2.key = some (.daily d) ∧ d.isSealed = true

theorem lasting_empty : (empty : History ι α).Lasting := ⟨orderly_empty, fun e he => by cases he⟩

theorem Lasting.put (hl : h.Lasting) {v : View α} (ho : (h.put i v).Orderly)
    (hs : SealedStay h (h.put i v)) : (h.put i v).Lasting := by
  refine ⟨ho, fun e he c hc hsealed => ?_⟩
  rcases List.mem_append.1 he with he | he
  · obtain ⟨d, hd, hdsealed⟩ := hl.stored e he c hc hsealed
    exact ⟨d, hs _ d hd hdsealed, hdsealed⟩
  · rw [List.mem_singleton.1 he] at hc ⊢
    refine ⟨{ c with version := some h.store.freshVersion }, ?_, hsealed⟩
    rw [get?_put, if_pos rfl]
    exact congrArg some (by rw [show v = .daily c from hc]; rfl)

/-- A day that is stored under a version is the day that was written with it. -/
theorem Recorded.get?_of_allows {v : View α} (hv : h.Recorded v) (hs : h.Sound)
    (ha : h.store.allows v.key (.expecting v.version) = true) :
    h.store.get? v.key = some v := by
  obtain ⟨t, ht⟩ := Option.isSome_iff_exists.1 hv.version_isSome
  simp only [ht, WriteCondition.expecting, Store.allows, beq_iff_eq] at ha
  obtain ⟨u, hu, hut⟩ := Option.bind_eq_some_iff.1 ha
  rw [hu, (hs.get?_recorded hu).2.eq_of_version hv (hut.trans ht.symm)]

end History

namespace Sweep

open History

/-- Nothing is taken from the record, and no sealed day changes. -/
def lastingTerms (i : ι) : Terms ι α where
  client := i
  inv := Lasting
  rely h h' := h.log <+: h'.log ∧ h.SealedStay h'
  grant h h' := h.log <+: h'.log ∧ h.SealedStay h'
  rely_refl h := ⟨List.prefix_refl _, .refl h⟩
  rely_trans h₁ h₂ := ⟨h₁.1.trans h₂.1, h₁.2.trans h₂.2⟩
  grant_refl h := ⟨List.prefix_refl _, .refl h⟩

variable [Quantity α]

/-- A reading leaves sealed days alone. -/
theorem apply_safe_lasting (i : ι) (settings : IngestSettings) (r : Reading α) (h : History ι α) :
    Client.Safe (lastingTerms i) (fun x h' => ∀ o, x = .ok o → ∀ g,
        Ingest.WalkedAll (lastingTerms i) settings r g (o.windows g) h')
      (Ingest.apply settings r) h := by
  apply Ingest.apply_safe_of_settled Lasting.orderly And.left
  intro h v hi ho hs
  exact ⟨hi.put ho hs.sealedStay, List.prefix_append _ _, hs.sealedStay⟩

/-- A day that a sweep has read open and closed. -/
def ReadOpen (c : DailyView α) (h : History ι α) : Prop :=
  (View.daily c).Named ∧ ∃ d, h.Recorded (.daily d) ∧ d.isSealed = false ∧
    DailyView.close.result d = .ok c

theorem ReadOpen.mono {c : DailyView α} {h h' : History ι α} (hc : ReadOpen c h)
    (hp : h.log <+: h'.log) : ReadOpen c h' := by
  obtain ⟨hnamed, d, hd, hopen, hclose⟩ := hc
  exact ⟨hnamed, d, hd.mono hp, hopen, hclose⟩

/-- A closed day is written only where the day is still stored as it was read. -/
theorem ReadOpen.open_of_allows {c : DailyView α} {h : History ι α} (hc : ReadOpen c h)
    (hs : h.Sound) (ha : h.store.allows c.id.key (.expecting c.version) = true) {d : DailyView α}
    (hd : h.store.get? c.id.key = some (.daily d)) : d.isSealed = false := by
  obtain ⟨-, d₀, hd₀, hopen, hclose⟩ := hc
  have hframe := (DailyView.close_frame hclose).2
  rw [hframe.id, hframe.version] at ha
  have hstored : h.store.get? d₀.id.key = some (.daily d₀) := hd₀.get?_of_allows hs ha
  rw [hframe.id, hstored] at hd
  cases hd
  exact hopen

theorem maySweep_lasting (i : ι) (cutoff : Instant) :
    MaySweep (α := α) (lastingTerms i) (fun _ => lastingTerms i) ReadOpen ReadOpen cutoff where
  fits _ := .refl _
  apart _ := ⟨fun _ _ hg => hg, fun _ _ hg => hg⟩
  sound hi := hi.orderly.sound
  grows hr := hr.1
  known_rely _ hr hd := hd.mono hr.1
  ready_rely _ hr hd := hd.mono hr.1
  write {h days w w' o} hi _ hdays huniq hw happly := by
    obtain ⟨hkey, ho, -, -⟩ := hi.orderly.put_week (i := i) hw
      (fun d hd => ⟨(hdays d hd).1, (hdays d hd).2.1⟩) huniq happly
    have hstay : SealedStay h (h.put i (.weekly w')) := by
      apply sealedStay_put
      intro d hd
      rw [hkey] at hd
      obtain ⟨w₀, hw₀, -⟩ := (hi.orderly.get?_named hd).1.eq_weekly (hi.orderly.get?_named hd).2
      cases hw₀
    exact ⟨hi.put ho hstay, ⟨List.prefix_append _ _, hstay⟩,
      fun d hd => (hdays d hd).2.mono (List.prefix_append _ _)⟩
  read {h c} hi hc := by
    have hnamed := hc.named hi.orderly
    obtain ⟨d, hd, hc⟩ := hc
    exact ⟨hnamed, d, (hi.orderly.sound.get?_recorded hd.stored).2, hd.isOpen, hc⟩
  write_day {h c} hi hc ha := by
    have hstay : SealedStay h (h.put i (.daily c)) :=
      sealedStay_put fun d hd => hc.open_of_allows hi.orderly.sound ha hd
    exact ⟨hi.put (hi.orderly.put hc.1) hstay, ⟨List.prefix_append _ _, hstay⟩,
      fun c' hc' => hc'.mono (List.prefix_append _ _)⟩

/-- A sweep leaves sealed days alone. -/
theorem execute_safe_lasting (i : ι) (settings : SweepSettings)
    {schedule : Rollup.Schedule α (Except RollupError String)}
    (hweave : ∀ ps, Program.Weave ps (schedule ps)) (limit : ℕ) (lookbackHours : UInt32)
    (h : History ι α) :
    Client.Safe (lastingTerms i) (fun _ _ => True)
      (execute settings schedule limit lookbackHours) h :=
  execute_safe (maySweep_lasting i) hweave limit lookbackHours

end Sweep

/-! ## Updates before the seal -/

/-- A client has written under a key before the day of the key was sealed, if it ever was. -/
def History.WrittenUnsealed (h : History ι α) (i : ι) (key : String) : Prop :=
  ∃ (n : ℕ) (v : View α), h.log[n]? = some (i, v) ∧ v.key = key ∧
    ∀ (m : ℕ) (j : ι) (c : DailyView α),
      h.log[m]? = some (j, .daily c) → c.isSealed = true → c.id.key = key → n < m

theorem History.WrittenUnsealed.mono {h h' : History ι α} {i : ι} {key : String}
    (hw : h.WrittenUnsealed i key) (hp : h.log <+: h'.log) : h'.WrittenUnsealed i key := by
  obtain ⟨n, v, hn, hv, hlater⟩ := hw
  obtain ⟨rest, hrest⟩ := hp
  have hlt : n < h.log.length := (List.getElem?_eq_some_iff.1 hn).1
  refine ⟨n, v, ?_, hv, fun m j c hm hsealed hkey => ?_⟩
  · rw [← hrest, List.getElem?_append_left hlt, hn]
  · rw [← hrest] at hm
    by_cases hmlt : m < h.log.length
    · rw [List.getElem?_append_left hmlt] at hm
      exact hlater m j c hm hsealed hkey
    · omega

variable [Quantity α] {settings : IngestSettings} {r : Reading α} {buckets : Option (Buckets α)}

/-- A reading is folded into a window only if it was not sealed before. -/
theorem History.Lasting.writtenUnsealed {h : History ι α} (hl : h.Lasting) {i : ι}
    {start : Instant} {folded : WindowView g α}
    (hf : h.store.FoldsTo settings r buckets start folded) :
    (h.put i (.ofWindow folded)).WrittenUnsealed i (g.id r.device start).key := by
  have hkey := hf.key hl.orderly.sound
  obtain ⟨w, hw, hopen, -, hfold⟩ := hf
  have hopen' : folded.isSealed = false := (WindowView.fold_frame hfold).isSealed.trans hopen
  refine ⟨h.log.length, .ofWindow folded, by simp [History.put], hkey, ?_⟩
  intro m j c hm hsealed hck
  by_contra hlt
  rcases Nat.lt_or_eq_of_le (not_lt.1 hlt) with hm' | rfl
  · -- A day that was sealed before is stored as a sealed one, and would have been found.
    rw [History.put, List.getElem?_append_left hm'] at hm
    obtain ⟨d, hd, hdsealed⟩ := hl.stored _ (List.mem_of_getElem? hm) c rfl hsealed
    rw [show (View.daily c).key = _ from hck] at hd
    rw [Store.window?_of_some hd] at hw
    have hdaily := View.eq_ofWindow_of_window? hw
    cases g with
    | hourly => cases hdaily
    | daily =>
      cases hdaily
      rw [hopen] at hdsealed
      cases hdsealed
  · simp only [History.put, List.getElem?_concat_length, Option.some.injEq, Prod.mk.injEq] at hm
    cases g with
    | hourly => cases hm.2
    | daily =>
      cases hm.2
      rw [hopen'] at hsealed
      cases hsealed

namespace Ingest

/-- A window is updated only before it is sealed. -/
theorem Walk.before_sealing {T : Terms ι α} (hlasting : ∀ {h}, T.inv h → h.Lasting)
    (hgrows : ∀ {h h'}, T.rely h h' → h.log <+: h'.log) {h h' : History ι α}
    {visits : List (Instant × WindowUpdate)} (hw : Walk T settings g r buckets h visits h') :
    ∀ v ∈ visits, v.2 = .updated → h'.WrittenUnsealed T.client (g.id r.device v.1).key := by
  induction hw with
  | done _ => simp
  | @visit h h₁ h' start u rest hv _ hwalk ih =>
    intro v hmem hu
    rcases List.mem_cons.1 hmem with rfl | hmem
    · obtain rfl : u = .updated := hu
      obtain ⟨h₀, folded, hi₀, -, hf, -, hr₁⟩ := hv
      exact ((hlasting hi₀).writtenUnsealed hf).mono ((hgrows hr₁).trans (hwalk.grows hgrows))
    · exact ih v hmem hu

theorem WalkedAll.before_sealing {T : Terms ι α} (hlasting : ∀ {h}, T.inv h → h.Lasting)
    (hgrows : ∀ {h h'}, T.rely h h' → h.log <+: h'.log) {h : History ι α} {o : WindowOutcome}
    (hw : WalkedAll T settings r g o h) {key : String} (hkey : key ∈ o.updated) :
    h.WrittenUnsealed T.client key := by
  obtain ⟨h₁, buckets, visits, h₂, -, hwalk, hp, rfl⟩ := hw
  obtain ⟨v, hv, hu, rfl⟩ := mem_outcomeOf (u := .updated) hkey
  exact (hwalk.before_sealing hlasting hgrows v hv hu).mono hp

end Ingest

/-! ## Every run -/

/-- What a client answers when it is done. -/
inductive Answer where
  | taken (outcome : Except (Failure IngestError) IngestOutcome)
  | swept (result : Except Overflow SweepResult)
  deriving DecidableEq

namespace Job

/-- What a client does, with its answer. -/
def answering : Job α → Program α Answer
  | reading settings r => do return .taken (← (Ingest.apply settings r).run)
  | sweep settings schedule _ limit lookbackHours => do
    return .swept (← (Sweep.execute settings schedule limit lookbackHours).run)

theorem safe_lasting (i : ι) (job : Job α) (h : History ι α) :
    job.answering.Safe (Sweep.lastingTerms i) (fun a h' => ∀ o, a = .taken (.ok o) →
      ∀ g, ∀ key ∈ (o.windows g).updated, h'.WrittenUnsealed i key) h := by
  cases job with
  | reading settings r =>
    refine (Sweep.apply_safe_lasting i settings r h).bind
      fun x h' hi hx h'' hi' hr o ho g key hk => ?_
    obtain rfl : x = .ok o := Answer.taken.inj ho
    exact (hx h'' hi' hr o rfl g).before_sealing id And.left hk
  | sweep settings schedule weaves limit lookbackHours =>
    refine (Sweep.execute_safe_lasting i settings weaves limit lookbackHours h).bind ?_
    intro x h' _ _ h'' _ _ o ho
    cases ho

end Job

namespace Sweep

variable [DecidableEq ι]

/-- A stored day that is sealed never changes again, and a reading reports a window as updated only
    if it has written it before the window was sealed. -/
theorem sealing_is_final (jobs : ι → Job α) (moves more : List (Move ι)) :
    let t := (Traffic.start fun i => (jobs i).answering).run moves
    (∀ key d, t.history.store.get? key = some (.daily d) → d.isSealed = true →
      (t.run more).history.store.get? key = some (.daily d)) ∧
    ∀ i o g key, t.clients i = .done (.taken (.ok o)) → key ∈ (o.windows g).updated →
      ∃ (n : ℕ) (v : View α), t.history.log[n]? = some (i, v) ∧ v.key = key ∧
        ∀ (m : ℕ) (j : ι) (c : DailyView α), t.history.log[m]? = some (j, .daily c) →
          c.isSealed = true → c.id.key = key → n < m := by
  intro t
  have hrun := Traffic.run_safe (T := lastingTerms) _ (t := .start fun i => (jobs i).answering)
    (fun _ => rfl) (fun _ => rfl) (fun _ _ _ _ _ hg => hg) History.lasting_empty
    (fun i => (jobs i).safe_lasting i _) moves
  constructor
  · exact (Traffic.run_grants (T := lastingTerms) _ (fun _ => rfl) (fun _ => rfl)
      (fun _ _ _ _ _ hg => hg) History.SealedStay.refl History.SealedStay.trans
      (fun _ _ _ hg => hg.2) hrun.1 hrun.2 more)
  · intro i o g key hdone hkey
    exact Traffic.post_of_done hrun.1 (hrun.2 i) hdone o rfl g key hkey

end Sweep

end WeatherStation
