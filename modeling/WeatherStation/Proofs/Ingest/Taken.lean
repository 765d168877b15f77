import WeatherStation.Proofs.Ingest.Devices
import WeatherStation.Proofs.Ingest.Starts

/-!
# Readings that are taken in

A reading that is taken in, on a store of its own, has come to every window that it touches. Each
window is afterwards as it was, or has the reading folded in; and those that the reading touches do
not take its delivery again.

Results:
* `Store.Declines`, `Store.OpenAt`: a window does not take a delivery; no window is sealed.
* `Ingest.WroteInto`: a reading was folded into a window.
* `Ingest.Took`, `Ingest.took_foldIntoWindows`: some windows of one width.
* `Ingest.TakenIn`, `Ingest.takenIn_apply`: a whole call, one width at a time.
-/

namespace WeatherStation

variable {α : Type} {g : Granularity} {s s' s'' : Store α}

/-- The window that is stored under a key does not take a delivery: it is sealed, or it has seen the
    delivery. -/
def Store.Declines (s : Store α) (g : Granularity) (key id : String) : Prop :=
  ∃ w : WindowView g α, s.get? key = some (.ofWindow w) ∧
    (w.isSealed = true ∨ w.applied.contains id = true)

theorem Store.Declines.congr {key id : String} (hd : s.Declines g key id)
    (h : s'.get? key = s.get? key) : s'.Declines g key id := by
  rw [Declines, h]
  exact hd

/-- No window that is stored under a key is sealed. -/
def Store.OpenAt (s : Store α) (g : Granularity) (key : String) : Prop :=
  ∀ w : WindowView g α, s.get? key = some (.ofWindow w) → w.isSealed = false

variable [Quantity α] {settings : IngestSettings} {r : Reading α} {buckets : Option (Buckets α)}
  {start : Instant} {starts : List Instant} {folded : WindowView g α}

namespace Store.FoldsTo

theorem congr (hf : s.FoldsTo settings r buckets start folded)
    (h : s'.get? (g.id r.device start).key = s.get? (g.id r.device start).key) :
    s'.FoldsTo settings r buckets start folded := by
  rwa [FoldsTo, window?, h]

/-- A reading is folded into what is stored. -/
theorem of_get? (hf : s.FoldsTo settings r buckets start folded) {w : WindowView g α}
    (hw : s.get? (g.id r.device start).key = some (.ofWindow w)) :
    w.isSealed = false ∧ w.applied.contains r.sourceId = false ∧
      w.fold settings r buckets = .ok folded := by
  obtain ⟨w', hw', hfold⟩ := hf
  rw [Store.window?_of_some hw, View.window?_ofWindow, Option.some_inj] at hw'
  exact hw' ▸ hfold

/-- A reading is not folded into a window that does not take its delivery. -/
theorem not_declines (hf : s.FoldsTo settings r buckets start folded) :
    ¬ s.Declines g (g.id r.device start).key r.sourceId := by
  rintro ⟨w, hw, hdeclines⟩
  obtain ⟨hopen, hnew, -⟩ := hf.of_get? hw
  rw [hopen, hnew] at hdeclines
  simp at hdeclines

end Store.FoldsTo

namespace Ingest

/-- The window that was under a key, with the reading folded in, stands there now. -/
def WroteInto (settings : IngestSettings) (g : Granularity) (r : Reading α)
    (buckets : Option (Buckets α)) (start : Instant) (s s' : Store α) : Prop :=
  ∃ folded : WindowView g α, s.FoldsTo settings r buckets start folded ∧
    ∃ version, s'.get? (g.id r.device start).key = some (.ofWindow (folded.setVersion version))

theorem WroteInto.congr (hw : WroteInto settings g r buckets start s s') {s₀ s₁ : Store α}
    (h₀ : s₀.get? (g.id r.device start).key = s.get? (g.id r.device start).key)
    (h₁ : s₁.get? (g.id r.device start).key = s'.get? (g.id r.device start).key) :
    WroteInto settings g r buckets start s₀ s₁ := by
  obtain ⟨folded, hf, hwritten⟩ := hw
  exact ⟨folded, hf.congr h₀, h₁ ▸ hwritten⟩

/-! ## Windows of one width -/

/-- A visit that does not fail leaves the store alone or folds the reading in. The window does not
    take the delivery again. -/
theorem visit_ok (hs : s.Tidy) {w : WindowView g α} (hw : s.window? g r.device start = some w)
    {u : WindowUpdate} (hv : visit settings r buckets w s = (.ok u, s')) :
    (s'.get? (g.id r.device start).key = s.get? (g.id r.device start).key ∨
      WroteInto settings g r buckets start s s') ∧
      s'.Declines g (g.id r.device start).key r.sourceId := by
  have hstored (hdeclines : w.isSealed = true ∨ w.applied.contains r.sourceId = true) :
      s.Declines g (g.id r.device start).key r.sourceId := by
    rcases Store.window?_cases hw with hget | ⟨-, rfl⟩
    · exact ⟨w, hget, hdeclines⟩
    · -- A window without readings is open and has seen nothing.
      rcases hdeclines with h | h <;> cases h
  rw [visit] at hv
  split_ifs at hv with hsealed happlied
  · cases hv
    exact ⟨.inl rfl, hstored (.inl hsealed)⟩
  · cases hv
    exact ⟨.inl rfl, hstored (.inr happlied)⟩
  · split at hv
    · cases hv
    · next folded hf =>
      cases hv
      obtain ⟨-, hkey, -⟩ := named_folded hs hw hf
      have hput : (s.put (.ofWindow folded)).get? (g.id r.device start).key =
          some (.ofWindow (folded.setVersion (some s.freshVersion))) := by
        rw [← hkey, Store.get?_put_self, View.ofWindow_withVersion]
      have hfolds : s.FoldsTo settings r buckets start folded :=
        ⟨w, hw, by simpa using hsealed, by simpa using happlied, hf⟩
      exact ⟨.inr ⟨folded, hfolds, _, hput⟩, _, hput,
        .inr ((WindowView.contains_of_fold hf _).2 (.inl rfl))⟩

/-- What a reading that was taken into some windows has done to a store: under every key there is
    what was there, or the reading was folded in, and none of these windows takes the delivery
    again. -/
structure Took (settings : IngestSettings) (g : Granularity) (r : Reading α)
    (buckets : Option (Buckets α)) (starts : List Instant) (s s' : Store α) : Prop where
  kept_or_wrote : ∀ key, s'.get? key = s.get? key ∨ ∃ start ∈ starts,
    key = (g.id r.device start).key ∧ WroteInto settings g r buckets start s s'
  declines : ∀ start ∈ starts, s'.Declines g (g.id r.device start).key r.sourceId

/-- A window that did not take the delivery before is left alone. -/
theorem Took.kept_of_declines (ht : Took settings g r buckets starts s s') {key : String}
    (hd : s.Declines g key r.sourceId) : s'.get? key = s.get? key := by
  refine (ht.kept_or_wrote key).resolve_right ?_
  rintro ⟨start, -, rfl, folded, hf, -⟩
  exact hf.not_declines hd

/-- Windows of another width are left alone. -/
theorem Took.kept_of_ne (ht : Took settings g r buckets starts s s') {g' : Granularity}
    (hg : g' ≠ g) (device : String) (t : Instant) :
    s'.get? (g'.id device t).key = s.get? (g'.id device t).key := by
  refine (ht.kept_or_wrote _).resolve_right ?_
  rintro ⟨start, -, hkey, -⟩
  exact hg (Granularity.eq_of_id_key_eq hkey)

variable {now : Except Overflow Instant}

/-- The windows are visited one after the other. -/
theorem took_foldIntoWindows (hs : s.Tidy) {outcome o : WindowOutcome}
    (ho : (foldIntoWindows settings g r buckets starts outcome).alone now s = (.ok o, s')) :
    Took settings g r buckets starts s s' := by
  induction starts generalizing s outcome with
  | nil =>
    cases ho
    exact ⟨fun _ => .inl rfl, fun _ hstart => by cases hstart⟩
  | cons start rest ih =>
    obtain ⟨w, hw⟩ := hs.exists_window? g r.device start
    have htidy : (visit settings r buckets w s).2.Tidy := tidy_visit hs hw
    have hothers {key : String} (hk : key ≠ (g.id r.device start).key) :
        (visit settings r buckets w s).2.get? key = s.get? key := visit_confined hs hw hk
    rw [alone_foldIntoWindows_cons now hs hw] at ho
    rcases hv : visit settings r buckets w s with ⟨_ | u, s₁⟩ <;> rw [hv] at ho htidy hothers
    · cases ho
    obtain ⟨hvisit, hdeclines⟩ := visit_ok hs hw hv
    have hrest := ih htidy ho
    have hfirst := hrest.kept_of_declines hdeclines
    refine ⟨fun key => ?_, fun start' hstart' => ?_⟩
    · by_cases hk : key = (g.id r.device start).key
      · subst hk
        exact hvisit.imp hfirst.trans fun hwrote =>
          ⟨start, List.mem_cons_self, rfl, hwrote.congr rfl hfirst⟩
      · refine (hrest.kept_or_wrote key).imp (·.trans (hothers hk)) ?_
        rintro ⟨start', hstart', rfl, hwrote⟩
        exact ⟨start', List.mem_cons_of_mem start hstart', rfl,
          hwrote.congr (hothers hk).symm rfl⟩
    · rcases List.mem_cons.1 hstart' with rfl | hstart'
      · exact hdeclines.congr hfirst
      · exact hrest.declines start' hstart'

/-- All windows of one width. -/
theorem took_updateWindows (hs : s.Tidy) {o : WindowOutcome}
    (ho : (updateWindows settings g r).alone now s = (.ok o, s')) :
    ∃ buckets starts, Touched settings g r buckets starts ∧
      Took settings g r buckets starts s s' := by
  have hexists : ∃ buckets starts, Touched settings g r buckets starts := by
    rw [updateWindows, Client.alone_bind, Client.alone_compute] at ho
    cases hb : r.rain.mapM fun c => resample c c.unitValue (g.bucket settings) with
    | error e =>
      rw [hb] at ho
      cases ho
    | ok buckets =>
      rw [hb] at ho
      dsimp only [Except.mapError] at ho
      rw [Client.alone_bind, Client.alone_compute] at ho
      cases hset : windowStarts g r buckets with
      | error e =>
        rw [hset] at ho
        cases ho
      | ok set => exact ⟨buckets, set.keys, hb, set, hset, rfl⟩
  obtain ⟨buckets, starts, ht⟩ := hexists
  rw [ht.updateWindows_eq] at ho
  exact ⟨buckets, starts, ht, took_foldIntoWindows hs ho⟩

/-! ## Whole calls -/

/-- What a reading that was taken in has done to the windows of one width. -/
structure TakenIn (settings : IngestSettings) (g : Granularity) (r : Reading α)
    (s s' : Store α) : Prop where
  kept_or_wrote : ∀ (device : String) (t : Instant),
    s'.get? (g.id device t).key = s.get? (g.id device t).key ∨
      ∃ buckets starts, Touched settings g r buckets starts ∧ ∃ start ∈ starts,
        (g.id device t).key = (g.id r.device start).key ∧
          WroteInto settings g r buckets start s s'
  declines : ∃ start, g.start r.time = .ok start ∧
    s'.Declines g (g.id r.device start).key r.sourceId

theorem Took.takenIn (ht : Took settings g r buckets starts s s')
    (htouched : Touched settings g r buckets starts) : TakenIn settings g r s s' where
  kept_or_wrote device t := by
    refine (ht.kept_or_wrote _).imp_right ?_
    rintro ⟨start, hstart, hkey, hwrote⟩
    exact ⟨buckets, starts, htouched, start, hstart, hkey, hwrote⟩
  declines := by
    obtain ⟨start, hstart, hown⟩ := htouched.self
    exact ⟨start, hown, ht.declines start hstart⟩

/-- Before and after, nothing happened to windows of this width. -/
theorem TakenIn.congr (ht : TakenIn settings g r s s') {s₀ s₁ : Store α}
    (hbefore : ∀ device t, s.get? (g.id device t).key = s₀.get? (g.id device t).key)
    (hafter : ∀ device t, s₁.get? (g.id device t).key = s'.get? (g.id device t).key) :
    TakenIn settings g r s₀ s₁ where
  kept_or_wrote device t := by
    refine (ht.kept_or_wrote device t).imp
      (fun hkept => (hafter device t).trans (hkept.trans (hbefore device t))) ?_
    rintro ⟨buckets, starts, htouched, start, hstart, hkey, hwrote⟩
    exact ⟨buckets, starts, htouched, start, hstart, hkey,
      hwrote.congr (hbefore _ _).symm (hafter _ _)⟩
  declines := by
    obtain ⟨start, hown, hdeclines⟩ := ht.declines
    exact ⟨start, hown, hdeclines.congr (hafter _ _)⟩

/-- What was seen or sealed before still is. -/
theorem TakenIn.declines_mono (ht : TakenIn settings g r s s') {device : String} {t : Instant}
    {id : String} (hd : s.Declines g (g.id device t).key id) :
    s'.Declines g (g.id device t).key id := by
  rcases ht.kept_or_wrote device t with hkept | ⟨buckets, starts, -, start, -, hkey, hwrote⟩
  · exact hd.congr hkept
  · rw [hkey] at hd ⊢
    obtain ⟨w, hw, hdeclines⟩ := hd
    obtain ⟨folded, hf, version, hwritten⟩ := hwrote
    obtain ⟨hopen, -, hfold⟩ := hf.of_get? hw
    have hseen := hdeclines.resolve_left (by simp [hopen])
    exact ⟨_, hwritten, .inr ((WindowView.contains_of_fold hfold id).2 (.inr hseen))⟩

/-- A window that is open was open before. -/
theorem TakenIn.openAt (ht : TakenIn settings g r s s') {device : String} {t : Instant}
    (ho : s'.OpenAt g (g.id device t).key) : s.OpenAt g (g.id device t).key := by
  intro w hw
  rcases ht.kept_or_wrote device t with hkept | ⟨buckets, starts, -, start, -, hkey, hwrote⟩
  · exact ho w (hkept.trans hw)
  · obtain ⟨folded, hf, -⟩ := hwrote
    rw [hkey] at hw
    exact (hf.of_get? hw).1

/-- What an open window has seen, it had seen before, or it is the delivery. -/
theorem TakenIn.seen (ht : TakenIn settings g r s s') {device : String} {t : Instant}
    {w : WindowView g α} (hw : s'.get? (g.id device t).key = some (.ofWindow w))
    (hopen : w.isSealed = false) {id : String} (hid : w.applied.contains id = true) :
    (device = r.device ∧ id = r.sourceId) ∨ ∃ w₀ : WindowView g α,
      s.get? (g.id device t).key = some (.ofWindow w₀) ∧ w₀.isSealed = false ∧
        w₀.applied.contains id = true := by
  rcases ht.kept_or_wrote device t with
    hkept | ⟨buckets, starts, -, start, -, hkey, folded, ⟨w₀, hw₀, hopen₀, -, hfold⟩, version, hf⟩
  · exact .inr ⟨w, hkept.symm.trans hw, hopen, hid⟩
  rw [hkey, hf, Option.some_inj] at hw
  obtain ⟨-, hw⟩ := View.ofWindow_inj hw
  obtain rfl := eq_of_heq hw
  rcases (WindowView.contains_of_fold hfold id).1 hid with hsource | hid₀
  · exact .inl ⟨(g.id_key_eq_iff.1 hkey).1, hsource⟩
  · rcases Store.window?_cases hw₀ with hv | ⟨-, rfl⟩
    · exact .inr ⟨w₀, hkey ▸ hv, hopen₀, hid₀⟩
    · cases hid₀

/-- The hours, then the days. -/
theorem takenIn_windows (hs : s.Tidy) {o : WindowOutcome × WindowOutcome}
    (ho : (windows settings r).alone now s = (.ok o, s')) (g : Granularity) :
    TakenIn settings g r s s' := by
  rw [windows, Client.alone_bind] at ho
  have htidy : ((updateWindows settings .hourly r).alone now s).2.Tidy :=
    (updateWindows_actsFor settings .hourly r).tidy hs
  rcases hhourly : (updateWindows settings .hourly r).alone now s with ⟨_ | hourly, s₁⟩ <;>
    rw [hhourly] at ho htidy
  · cases ho
  dsimp only at ho htidy
  rw [Client.alone_bind] at ho
  rcases hdaily : (updateWindows settings .daily r).alone now s₁ with ⟨_ | daily, s₂⟩ <;>
    rw [hdaily] at ho <;> cases ho
  obtain ⟨buckets, starts, htouched, htook⟩ := took_updateWindows hs hhourly
  obtain ⟨buckets', starts', htouched', htook'⟩ := took_updateWindows htidy hdaily
  cases g with
  | hourly =>
    exact (htook.takenIn htouched).congr (fun _ _ => rfl) (htook'.kept_of_ne (by decide))
  | daily =>
    exact (htook'.takenIn htouched').congr (htook.kept_of_ne (by decide)) fun _ _ => rfl

/-- A whole call. Its first write is that of the latest view. -/
theorem takenIn_apply (hs : s.Tidy) {o : IngestOutcome}
    (ho : ((apply settings r).alone now s).1 = .ok o) (g : Granularity) :
    TakenIn settings g r s ((apply settings r).alone now s).2 := by
  rw [alone_apply] at ho ⊢
  cases hcheck : check settings r with
  | error e =>
    rw [hcheck] at ho
    cases ho
  | ok u => cases hlatest : LatestView.ofReading settings r with
    | error f =>
      rw [hcheck, hlatest] at ho
      cases ho
    | ok v =>
      rw [hcheck, hlatest] at ho
      obtain ⟨hnamed, -, hkey⟩ := latest_ofReading hlatest
      have hput (device : String) (t : Instant) :
          (s.put (.latest v)).get? (g.id device t).key = s.get? (g.id device t).key :=
        s.get?_put_ne _ fun he => ViewId.latest_key_ne_window _ _ _ _ (hkey.symm.trans he.symm)
      dsimp only at ho ⊢
      rw [alone_finish] at ho ⊢
      obtain ⟨o', ho', -⟩ := map_eq_ok ho
      exact (takenIn_windows (hs.put hnamed) (Prod.ext ho' rfl) g).congr hput fun _ _ => rfl

end Ingest

end WeatherStation
