import WeatherStation.Proofs.Ingest.Rainfall
import WeatherStation.Proofs.Ingest.Refusals
import WeatherStation.Proofs.Traffic.Moves
import WeatherStation.Proofs.Traffic.Weather
import WeatherStation.Proofs.View.Commuting

/-!
# Readings that are sent again

A call that takes a reading in may fail at any request, and leave some of the windows written and
others not. The reading is then sent again, perhaps after others have come in. As soon as one call
for each of some readings has succeeded, the windows are those of a store that never fails and has
taken in every reading once, whatever the order.

Results:
* `Ingest.Complete`: every reading was delivered to all windows that it touches.
* `Ingest.Complete.storedWindow_eq`: complete records of the same readings hold the same windows.
* `Ingest.Complete.deliver_ok`: readings that have a complete record can be taken in one by one.
* `Ingest.retried_deliveries`: deliveries that are repeated until they succeed.
-/

namespace WeatherStation

namespace Ingest

/-! ## Complete records -/

section

variable {ι ι' α : Type} [Quantity α] {settings : IngestSettings} {g : Granularity}
  {reading : ι → Reading α} {reading' : ι' → Reading α} {rs : List (Reading α)}
  {h : History ι α} {h' : History ι' α} {device : String} {t : Instant}

/-- The key of a window holds a window, or nothing. -/
theorem Records.exists_window? (hi : Records settings reading rs h) (g : Granularity)
    (device : String) (start : Instant) : ∃ w, h.store.window? g device start = some w := by
  cases hv : h.store.get? (g.id device start).key with
  | none => exact ⟨_, Store.window?_of_none hv⟩
  | some v =>
    obtain ⟨w, rfl⟩ := hi.window_of_get? hv
    exact ⟨w, by rw [Store.window?_of_some hv, View.window?_ofWindow]⟩

/-- A delivery is written to a window at most once. -/
theorem Records.nodup_writers (hi : Records settings reading rs h) (g : Granularity)
    (device : String) (t : Instant) : ((h.writers (g.id device t).key).map reading).Nodup := by
  cases hv : h.store.get? (g.id device t).key with
  | none =>
    rw [hi.folded.sound.writers_eq_nil hv]
    exact List.nodup_nil
  | some v =>
    obtain ⟨w, rfl⟩ := hi.window_of_get? hv
    refine List.Nodup.of_map Reading.sourceId ?_
    rw [List.map_map]
    exact hi.folded.once hv

/-- The readings that were written to a window touch it. -/
theorem Records.touches (hi : Records settings reading rs h) (g : Granularity) (device : String)
    (t : Instant) : ∀ r ∈ (h.writers (g.id device t).key).map reading,
      r ∈ rs ∧ Touches settings g r (g.id device t).key :=
  List.forall_mem_map.2 fun _ hu => hi.touches_of_mem_writers hu

/-- The window that a reading finds is the fold of the readings of those who wrote it. -/
theorem Records.foldlM_writers (hi : Records settings reading rs h)
    (hleap : ∀ r ∈ rs, r.time.isLeap = false) {r : Reading α} (hr : r ∈ rs)
    {buckets : Option (Buckets α)} {starts : List Instant}
    (ht : Touched settings g r buckets starts) {start : Instant} (hs : start ∈ starts)
    {w : WindowView g α} (hw : h.store.window? g r.device start = some w) :
    ((h.writers (g.id r.device start).key).map reading).foldlM (WindowView.take settings)
      (.empty r.device start) = .ok (w.setVersion none) := by
  cases hv : h.store.get? (g.id r.device start).key with
  | none =>
    rw [Store.window?_of_none hv, Option.some_inj] at hw
    subst hw
    rw [hi.folded.sound.writers_eq_nil hv]
    rfl
  | some v =>
    rw [Store.window?_of_some hv] at hw
    rw [View.eq_ofWindow_of_window? hw] at hv
    obtain ⟨r₀, hr₀, buckets₀, starts₀, start₀, ht₀, hs₀, hkey, hfold⟩ := hi.folded.fold_key hv
    have hrs := (hi.touches g r.device start r₀ hr₀).1
    obtain rfl := ht₀.start_eq ht (hleap r₀ hrs) (hleap r hr) hs₀ hs hkey
    have hdevice := (g.id_key_eq_iff.1 hkey).1
    rwa [hdevice] at hfold

/-- Every one of some readings was delivered to all windows that it touches, and nothing else
    happened. -/
structure Complete (settings : IngestSettings) (reading : ι → Reading α) (rs : List (Reading α))
    (h : History ι α) : Prop extends Records settings reading rs h where
  delivered : ∀ r ∈ rs, ∀ g, Delivered settings reading h r g

/-- In a complete record every reading has been written to the windows that it touches. -/
theorem Complete.subset_writers (hc : Complete settings reading rs h)
    (hid : ∀ r ∈ rs, ∀ r' ∈ rs, r.device = r'.device → r.sourceId = r'.sourceId → r = r')
    {us : List (Reading α)}
    (hus : ∀ r ∈ us, r ∈ rs ∧ Touches settings g r (g.id device t).key) :
    us ⊆ (h.writers (g.id device t).key).map reading := by
  intro r hr
  obtain ⟨hr, htouches⟩ := hus r hr
  have hdevice := htouches.device_eq
  obtain ⟨buckets, starts, ht, start, hs, hkey⟩ := htouches
  obtain ⟨buckets', starts', ht', hall⟩ := hc.delivered r hr g
  obtain ⟨-, rfl⟩ := ht.unique ht'
  obtain ⟨u, hu, hsource⟩ := hall start hs
  rw [hkey] at hu
  obtain ⟨hur, hudevice⟩ := hc.of_mem_writers hu
  exact List.mem_map.2 ⟨u, hu, hid _ hur r hr (hudevice.trans hdevice.symm) hsource⟩

/-- Complete records of the same readings have the same writes of every window, in some order. -/
theorem Complete.perm_writers (hc : Complete settings reading rs h)
    (hc' : Complete settings reading' rs h')
    (hid : ∀ r ∈ rs, ∀ r' ∈ rs, r.device = r'.device → r.sourceId = r'.sourceId → r = r')
    (g : Granularity) (device : String) (t : Instant) :
    ((h.writers (g.id device t).key).map reading).Perm
      ((h'.writers (g.id device t).key).map reading') := by
  have hsub := hc'.subset_writers hid (hc.touches g device t)
  have hsub' := hc.subset_writers hid (hc'.touches g device t)
  exact ((hc.nodup_writers g device t).subperm hsub).antisymm
    ((hc'.nodup_writers g device t).subperm hsub')

/-- The window under a key, without its version. -/
def storedWindow (s : Store α) (g : Granularity) (key : String) : Option (WindowView g α) :=
  ((s.get? key).bind (View.window? g)).map (WindowView.setVersion none)

omit [Quantity α] in
theorem storedWindow_eq_some {s : Store α} {key : String} {w : WindowView g α} :
    storedWindow s g key = some w ↔
      ∃ w' : WindowView g α, s.get? key = some (.ofWindow w') ∧ w'.setVersion none = w := by
  simp only [storedWindow, Option.map_eq_some_iff, Option.bind_eq_some_iff]
  constructor
  · rintro ⟨w', ⟨v, hv, hw'⟩, hw⟩
    exact ⟨w', by rw [hv, View.eq_ofWindow_of_window? hw'], hw⟩
  · rintro ⟨w', hv, hw⟩
    exact ⟨w', ⟨_, hv, View.window?_ofWindow w'⟩, hw⟩

/-- The terms of a call with one of some readings, on a store that never refuses and that nobody
    else uses. -/
def undisturbed (settings : IngestSettings) (rs : List (Reading α)) (r : Reading α) :
    Terms (Reading α) α := .lone r (Records settings id rs) False

theorem mayFold_undisturbed {r : Reading α} (hr : r ∈ rs) {buckets : Option (Buckets α)}
    {starts : List Instant} (ht : Touched settings g r buckets starts) {start : Instant}
    (hs : start ∈ starts) : MayFold (undisturbed settings rs r) settings g r buckets start where
  sound hi := hi.folded.sound
  grows {h h'} hrely := by
    have hsame : h' = h := hrely
    rw [hsame]
  write {_ _} hi hw := ⟨hi.put_window hr ht hs hw, trivial⟩

end

section

variable {ι ι' : Type} {settings : IngestSettings} {g : Granularity} {reading : ι → Reading ℚ}
  {reading' : ι' → Reading ℚ} {rs : List (Reading ℚ)} {h : History ι ℚ} {h' : History ι' ℚ}
  (hc : Complete settings reading rs h) (hleap : ∀ r ∈ rs, r.time.isLeap = false)
  (hid : ∀ r ∈ rs, ∀ r' ∈ rs, r.device = r'.device → r.sourceId = r'.sourceId → r = r')

include hc hleap hid

/-- A window of one complete record is in the other one, too. -/
theorem Complete.storedWindow_of (hc' : Complete settings reading' rs h') {key : String}
    {w : WindowView g ℚ} (hw : storedWindow h.store g key = some w) :
    storedWindow h'.store g key = some w := by
  obtain ⟨w, hv, rfl⟩ := storedWindow_eq_some.1 hw
  obtain ⟨r, hr, buckets, starts, start, ht, hs, rfl, hfold⟩ := hc.folded.fold_key hv
  have hperm := hc.perm_writers hc' hid g r.device start
  have hrs := (hc.touches g r.device start r hr).1
  obtain ⟨w', hw'⟩ := hc'.exists_window? g r.device start
  have hfold' := hc'.foldlM_writers hleap hrs ht hs hw'
  rw [WindowView.foldlM_take_perm hperm, hfold', Except.ok.injEq] at hfold
  refine storedWindow_eq_some.2 ⟨w', ?_, hfold⟩
  cases hv' : h'.store.get? (g.id r.device start).key with
  | none =>
    rw [hc'.folded.sound.writers_eq_nil hv'] at hperm
    rw [hperm.eq_nil] at hr
    cases hr
  | some v =>
    rw [Store.window?_of_some hv'] at hw'
    rw [View.eq_ofWindow_of_window? hw']

/-- Complete records of the same readings hold the same windows. -/
theorem Complete.storedWindow_eq (hc' : Complete settings reading' rs h') (g : Granularity)
    (key : String) :
    storedWindow h.store g key = storedWindow h'.store g key :=
  Option.ext fun _ =>
    ⟨hc.storedWindow_of hleap hid hc', hc'.storedWindow_of hleap hid hc⟩

/-- A window takes in a reading of which a complete record exists. -/
theorem Complete.fold_ok (hi : Records settings reading' rs h') {r : Reading ℚ} (hr : r ∈ rs)
    {buckets : Option (Buckets ℚ)} {starts : List Instant}
    (ht : Touched settings g r buckets starts) {start : Instant} (hs : start ∈ starts)
    {w : WindowView g ℚ} (hw : h'.store.window? g r.device start = some w)
    (hnew : w.applied.contains r.sourceId = false) :
    ∃ folded, w.fold settings r buckets = .ok folded := by
  -- What was folded in before, and the reading, are some of what the complete record folded in.
  have hpart := hi.foldlM_writers hleap hr ht hs hw
  obtain ⟨full, hfull⟩ := hc.exists_window? g r.device start
  have hall := hc.foldlM_writers hleap hr ht hs hfull
  have hfresh : r ∉ (h'.writers (g.id r.device start).key).map reading' := by
    intro hmem
    have happlied := ((WindowView.foldlM_take_frame hpart).2.2.2.2 r.sourceId).2
      (.inr (List.mem_map_of_mem hmem))
    rw [show (w.setVersion none).applied = w.applied from rfl, hnew] at happlied
    cases happlied
  have hsub : (h'.writers (g.id r.device start).key).map reading' ++ [r] ⊆
      (h.writers (g.id r.device start).key).map reading := by
    refine hc.subset_writers hid fun r' hr' => ?_
    rcases List.mem_append.1 hr' with hr' | hr'
    · exact hi.touches g r.device start r' hr'
    · rw [List.mem_singleton.1 hr']
      exact ⟨hr, buckets, starts, ht, start, hs, rfl⟩
  have hnodup := (hi.nodup_writers g r.device start).append (List.nodup_singleton r)
    (List.disjoint_singleton.2 hfresh)
  obtain ⟨w', hlast⟩ := WindowView.take_of_subperm (hnodup.subperm hsub) hpart hall
  rw [WindowView.take_setVersion, WindowView.take_eq ht.1] at hlast
  obtain ⟨folded, hfolded, -⟩ := map_eq_ok hlast
  exact ⟨folded, mapError_eq_ok hfolded⟩

/-! ## Deliveries that do not fail -/

variable {r : Reading ℚ} {buckets : Option (Buckets ℚ)} {starts : List Instant} {start : Instant}
  {h₁ : History (Reading ℚ) ℚ}

/-- A window that a reading touches. -/
theorem Complete.foldIntoWindow_ok (hr : r ∈ rs) (ht : Touched settings g r buckets starts)
    (hs : start ∈ starts) (retries : ℕ) :
    Client.Safe (undisturbed settings rs r) (fun x _ => ∃ u, x = .ok u)
      (foldIntoWindow settings g r buckets start retries) h₁ := by
  refine (foldIntoWindow_safe (mayFold_undisturbed hr ht hs) retries).mono fun x _ _ hx => ?_
  cases x with
  | ok u => exact ⟨u, rfl⟩
  | error e =>
    rcases hx with ⟨-, hfaulty | ⟨h₀, hi₀, hno⟩ | ⟨h₀, h₂, hsame, hne⟩⟩
    · exact hfaulty.elim
    · have hi₀ : Records settings id rs h₀ := hi₀
      obtain ⟨w, hw⟩ := hi₀.exists_window? g r.device start
      obtain ⟨hnew, e', he'⟩ := hno w hw
      obtain ⟨folded, hfolded⟩ := hc.fold_ok hleap hid hi₀ hr ht hs hw hnew
      rw [he'] at hfolded
      cases hfolded
    · have hsame : h₂ = h₀ := hsame
      exact absurd (by rw [hsame]) hne

theorem Complete.foldIntoWindows_ok (hr : r ∈ rs) (ht : Touched settings g r buckets starts)
    {rest : List Instant} (hrest : rest ⊆ starts) (outcome : WindowOutcome) :
    Client.Safe (undisturbed settings rs r) (fun x _ => ∃ o, x = .ok o)
      (foldIntoWindows settings g r buckets rest outcome) h₁ := by
  induction rest generalizing outcome h₁ with
  | nil => exact Client.safe_pure fun _ _ _ => ⟨outcome, rfl⟩
  | cons start rest ih =>
    exact Client.safe_bind_total (hc.foldIntoWindow_ok hleap hid hr ht (hrest List.mem_cons_self) _)
      fun u _ _ => ih (List.subset_of_cons_subset hrest) _

/-- All windows of one width that a reading touches. -/
theorem Complete.updateWindows_ok (hr : r ∈ rs) (g : Granularity) :
    Client.Safe (undisturbed settings rs r) (fun x _ => ∃ o, x = .ok o)
      (updateWindows settings g r) h₁ := by
  obtain ⟨buckets, starts, ht, -⟩ := hc.delivered r hr g
  rw [ht.updateWindows_eq]
  exact hc.foldIntoWindows_ok hleap hid hr ht (List.Subset.refl _) .empty

/-- A whole call, on a store that may have taken in other readings. -/
theorem Complete.apply_ok (hr : r ∈ rs) {now : Except Overflow Instant}
    (happlies : ∃ o, ((apply settings r).alone now Store.empty).1 = .ok o)
    (hi : Records settings id rs h₁) :
    ∃ o h₂, (apply settings r).alone now h₁.store = (.ok o, h₂.store) ∧
      Records settings id rs h₂ := by
  obtain ⟨o, ho⟩ := happlies
  rw [alone_apply] at ho ⊢
  cases hcheck : check settings r with
  | error e =>
    rw [hcheck] at ho
    cases ho
  | ok u =>
    cases hv : LatestView.ofReading settings r with
    | error f =>
      rw [hcheck, hv] at ho
      cases ho
    | ok v =>
      have hfinish : Client.Safe (undisturbed settings rs r) (fun x _ => ∃ o, x = .ok o)
          (finish settings r h₁.store.freshVersion) (h₁.put r (.latest v)) :=
        Client.safe_bind_total (hc.updateWindows_ok hleap hid hr .hourly) fun _ _ _ =>
          Client.safe_bind_total (hc.updateWindows_ok hleap hid hr .daily) fun _ _ _ =>
            Client.safe_pure fun _ _ _ => ⟨_, rfl⟩
      obtain ⟨h₂, hstore, hi₂, o, ho⟩ := hfinish.run (Records.put_latest hi hr hv) now
      exact ⟨o, h₂, Prod.ext ho hstore.symm, hi₂⟩

/-- Readings of which a complete record exists can be taken in one after the other. -/
theorem Complete.deliver_ok {now : Except Overflow Instant}
    (happlies : ∀ r ∈ rs, ∃ o, ((apply settings r).alone now Store.empty).1 = .ok o)
    {ps : List (Reading ℚ)} (hps : ps ⊆ rs) (hi : Records settings id rs h₁) :
    ∃ s, deliver settings now ps h₁.store = .ok s := by
  induction ps generalizing h₁ with
  | nil => exact ⟨_, rfl⟩
  | cons r ps ih =>
    have hr := hps List.mem_cons_self
    obtain ⟨o, h₂, happly, hi₂⟩ := hc.apply_ok hleap hid hr (happlies r hr) hi
    obtain ⟨s, hs⟩ := ih (List.subset_of_cons_subset hps) hi₂
    refine ⟨s, ?_⟩
    rw [deliver, List.foldlM_cons, happly]
    exact hs

end

/-- When every reading was taken in by some call, however often calls for it failed before and
    whatever the others did, the hours and days are those of a store that never fails and takes in
    the same readings in any order. This does not depend on how rain is merged. -/
theorem retried_deliveries {ι : Type} [DecidableEq ι] {settings : IngestSettings}
    {now : Except Overflow Instant} (reading : ι → Reading ℚ) {order : List (Reading ℚ)}
    (moves : List (Move ι)) (hsent : ∀ i, reading i ∈ order)
    (hleap : ∀ r ∈ order, r.time.isLeap = false)
    (hid : ∀ r ∈ order, ∀ r' ∈ order, r.device = r'.device → r.sourceId = r'.sourceId → r = r')
    (happlies : ∀ r ∈ order, ∃ o, ((apply settings r).alone now Store.empty).1 = .ok o) :
    let t := (Traffic.start fun i => (apply settings (reading i)).run).run moves
    (∀ r ∈ order, ∃ i o, reading i = r ∧ t.clients i = .done (.ok o)) →
      ∃ s, deliver settings now order Store.empty = .ok s ∧
        ∀ g key, storedWindow t.history.store g key = storedWindow s g key := by
  intro t hdone
  obtain ⟨⟨hi, -⟩, hs⟩ := Traffic.run_safe (T := deliveryTerms settings reading order [])
    (fun i (x : Except (Failure IngestError) IngestOutcome) h' => ∀ o, x = .ok o → ∀ g,
      WalkedAll (deliveryTerms settings reading order [] i) settings (reading i) g (o.windows g) h')
    (t := .start fun i => (apply settings (reading i)).run) (fun _ => rfl) (fun _ => rfl)
    (fun _ _ _ _ _ hg => hg) ⟨records_empty settings reading order, List.prefix_refl _⟩
    (fun i => apply_walked (hsent i)) moves
  have hc : Complete settings reading order t.history := by
    refine ⟨hi, fun r hr g => ?_⟩
    obtain ⟨i, o, rfl, hx⟩ := hdone r hr
    have hwalked := Traffic.post_of_done (T := deliveryTerms settings reading order [] i)
      ⟨hi, List.nil_prefix⟩ (hs i) hx
    exact (hwalked o rfl g).delivered
  obtain ⟨s, hdeliver⟩ := hc.deliver_ok hleap hid happlies (List.Subset.refl order)
    (records_empty settings id order)
  obtain ⟨h', rfl, hi', hd'⟩ := deliver_recorded hdeliver
  exact ⟨h'.store, hdeliver, hc.storedWindow_eq hleap hid ⟨hi', hd'⟩⟩

/-- The shower is sent twice: the store is locked when the first call has written one of its hours.
    Another reading comes in before the second call, which loses a write. -/
def lockedOut : List (Move (Fin 3)) :=
  let quiet (i : Fin 3) (n : ℕ) : List (Move (Fin 3)) := .replicate n ⟨i, .error .calendar, none⟩
  quiet 0 3 ++ [⟨0, .error .calendar, some .lock⟩] ++ quiet 1 5 ++ quiet 2 3 ++
    [⟨2, .error .calendar, some (.conflict "dev|hourly|2025-09-11T16")⟩] ++ quiet 2 4

/-- The first call fails, and the windows are those of one delivery of each reading. -/
theorem retried_shower :
    let t := (Traffic.start fun i : Fin 3 =>
      (apply .standard (![shower, afternoon 60 20, shower] i)).run).run lockedOut
    t.clients 0 = .done (.error (.refused (.store .lock))) ∧
      ∃ s, deliver .standard (.error .calendar) [afternoon 60 20, shower] Store.empty = .ok s ∧
        ∀ g key, storedWindow t.history.store g key = storedWindow s g key := by
  intro t
  refine ⟨Program.eq_done_of_result? (by decide +kernel), ?_⟩
  have hok (i : Fin 3) (h : (t.clients i).result?.any Except.isOk = true) :
      ∃ o, t.clients i = .done (.ok o) := by
    cases hx : (t.clients i).result? with
    | none =>
      rw [hx] at h
      cases h
    | some x =>
      rw [hx] at h
      obtain ⟨o, rfl⟩ := exists_of_isOk h
      exact ⟨o, Program.eq_done_of_result? hx⟩
  have happlies : ∀ r ∈ [afternoon 60 20, shower],
      ((apply .standard r).alone (.error .calendar) Store.empty).1.isOk = true := by
    decide +kernel
  refine retried_deliveries ![shower, afternoon 60 20, shower] lockedOut (by decide +kernel)
    (by decide) (by decide +kernel) (fun r hr => exists_of_isOk (happlies r hr)) fun r hr => ?_
  simp only [List.mem_cons, List.not_mem_nil, or_false] at hr
  rcases hr with rfl | rfl
  · obtain ⟨o, ho⟩ := hok 1 (by decide +kernel)
    exact ⟨1, o, rfl, ho⟩
  · obtain ⟨o, ho⟩ := hok 2 (by decide +kernel)
    exact ⟨2, o, rfl, ho⟩

end Ingest

end WeatherStation
