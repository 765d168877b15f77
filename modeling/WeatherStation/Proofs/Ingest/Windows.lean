import WeatherStation.Ingest
import WeatherStation.Proofs.Traffic.Terms
import WeatherStation.Proofs.View.Fold

/-!
# Windows on a shared store

What the loop over the windows of a reading does on a store that others use, too: each window is
read, folded and written under the condition that nobody wrote it in between, and what the loop has
done is known from the updates of its visits.

Results:
* `Store.FoldsTo`: what a write of a window stores instead of what was there.
* `Ingest.foldIntoWindow_safe`: one window; every write folds the reading into what is stored.
* `Ingest.updateWindows_safe`: all windows of one width, visit by visit.
* `Ingest.apply_safe`: a whole call.
-/

namespace WeatherStation

variable {ι α : Type} {g : Granularity}

/-- The window of a device that starts at an instant: the stored one, or one without readings. There
    is none where the key holds a view of another kind. -/
def Store.window? (s : Store α) (g : Granularity) (device : String) (start : Instant) :
    Option (WindowView g α) :=
  match s.get? (g.id device start).key with
  | none => some (.empty device start)
  | some v => v.window? g

namespace Store

theorem window?_of_none {s : Store α} {device : String} {start : Instant}
    (h : s.get? (g.id device start).key = none) :
    s.window? g device start = some (.empty device start) := by
  rw [window?, h]

theorem window?_of_some {s : Store α} {device : String} {start : Instant} {v : View α}
    (h : s.get? (g.id device start).key = some v) : s.window? g device start = v.window? g := by
  rw [window?, h]

/-- A window that is found is stored, or it is one without readings. -/
theorem window?_cases {s : Store α} {device : String} {start : Instant} {w : WindowView g α}
    (hw : s.window? g device start = some w) :
    s.get? (g.id device start).key = some (.ofWindow w) ∨
      s.get? (g.id device start).key = none ∧ w = .empty device start := by
  cases hv : s.get? (g.id device start).key with
  | none =>
    rw [window?_of_none hv, Option.some_inj] at hw
    exact .inr ⟨rfl, hw.symm⟩
  | some v =>
    rw [window?_of_some hv] at hw
    exact .inl (by rw [View.eq_ofWindow_of_window? hw])

end Store

/-- The window that a look at its key gave, and the version to expect under the key. -/
theorem Ingest.window?_of_found {h : History ι α} {device : String} {start : Instant}
    {stored : Option (WindowView g α)}
    (hf : Client.Found (View.window? g) (g.id device start).key (.ok stored) h) :
    h.store.window? g device start = some (stored.getD (.empty device start)) ∧
      (h.store.get? (g.id device start).key).bind View.version =
        (stored.getD (.empty device start)).version := by
  cases stored with
  | none =>
    have hf : h.store.get? (g.id device start).key = none := hf
    exact ⟨Store.window?_of_none hf, by rw [hf]; rfl⟩
  | some w =>
    obtain ⟨v, hv, hw⟩ := hf
    refine ⟨by rw [Store.window?_of_some hv, hw]; rfl, ?_⟩
    rw [hv, View.eq_ofWindow_of_window? hw]
    exact View.version_ofWindow w

/-- A window is found under its own key. -/
theorem History.Sound.key_of_window? {h : History ι α} (hs : h.Sound) {device : String}
    {start : Instant} {w : WindowView g α} (hw : h.store.window? g device start = some w) :
    w.id.key = (g.id device start).key := by
  cases hv : h.store.get? (g.id device start).key with
  | none =>
    rw [Store.window?_of_none hv] at hw
    cases hw
    rfl
  | some v =>
    rw [Store.window?_of_some hv] at hw
    rw [← View.key_ofWindow, ← View.eq_ofWindow_of_window? hw]
    exact (hs.get?_recorded hv).1

/-- What a reading did to the windows of one width. -/
def IngestOutcome.windows (o : IngestOutcome) : Granularity → WindowOutcome
  | .hourly => o.hourly
  | .daily => o.daily

/-- The keys that an outcome lists under an update. -/
def WindowOutcome.keys (o : WindowOutcome) : WindowUpdate → List String
  | .updated => o.updated
  | .duplicate => o.duplicates
  | .isSealed => o.closed

theorem WindowOutcome.keys_note (o : WindowOutcome) (key : String) (u u' : WindowUpdate) :
    (o.note key u).keys u' = o.keys u' ++ if u = u' then [key] else [] := by
  cases u <;> cases u' <;> simp [note, keys]

variable [Quantity α]

/-- A window that is open and has not seen the reading, with the reading folded in. -/
def Store.FoldsTo (settings : IngestSettings) (r : Reading α) (buckets : Option (Buckets α))
    (start : Instant) (s : Store α) (folded : WindowView g α) : Prop :=
  ∃ w, s.window? g r.device start = some w ∧ w.isSealed = false ∧
    w.applied.contains r.sourceId = false ∧ w.fold settings r buckets = .ok folded

theorem Store.FoldsTo.key {settings : IngestSettings} {r : Reading α}
    {buckets : Option (Buckets α)} {start : Instant} {h : History ι α} {folded : WindowView g α}
    (hf : h.store.FoldsTo settings r buckets start folded) (hs : h.Sound) :
    (View.ofWindow folded).key = (g.id r.device start).key := by
  obtain ⟨w, hw, -, -, hfold⟩ := hf
  have hid : folded.id = w.id := (WindowView.fold_frame hfold).id
  rw [View.key_ofWindow, hid, hs.key_of_window? hw]

namespace Ingest

variable {T : Terms ι α} {settings : IngestSettings} {r : Reading α} {buckets : Option (Buckets α)}
  {start : Instant} {h : History ι α}

/-- The terms let the client fold a reading into the window that starts at an instant. -/
structure MayFold (T : Terms ι α) (settings : IngestSettings) (g : Granularity) (r : Reading α)
    (buckets : Option (Buckets α)) (start : Instant) : Prop where
  sound : ∀ {h}, T.inv h → h.Sound
  grows : ∀ {h h'}, T.rely h h' → h.log <+: h'.log
  write : ∀ {h} {folded : WindowView g α}, T.inv h →
    h.store.FoldsTo settings r buckets start folded →
      T.inv (h.put T.client (.ofWindow folded)) ∧ T.grant h (h.put T.client (.ofWindow folded))

/-- What is known after the visit of a window that began at `h`. -/
def Visited (T : Terms ι α) (settings : IngestSettings) (g : Granularity) (r : Reading α)
    (buckets : Option (Buckets α)) (h : History ι α) (start : Instant) (u : WindowUpdate)
    (h' : History ι α) : Prop :=
  match u with
  | .updated => ∃ h₀, ∃ folded : WindowView g α, T.inv h₀ ∧ T.rely h h₀ ∧
      h₀.store.FoldsTo settings r buckets start folded ∧
      T.inv (h₀.put T.client (.ofWindow folded)) ∧ T.rely (h₀.put T.client (.ofWindow folded)) h'
  | .duplicate => T.Since h (fun h₀ => ∃ w, h₀.store.window? g r.device start = some w ∧
      w.applied.contains r.sourceId = true) h'
  | .isSealed => T.Since h (fun h₀ => ∃ w, h₀.store.window? g r.device start = some w ∧
      w.isSealed = true) h'

theorem Visited.rely_left {u : WindowUpdate} {h₁ h' : History ι α}
    (hv : Visited T settings g r buckets h₁ start u h') (hr : T.rely h h₁) :
    Visited T settings g r buckets h start u h' := by
  cases u with
  | updated =>
    obtain ⟨h₀, folded, hi, hr₀, hw⟩ := hv
    exact ⟨h₀, folded, hi, T.rely_trans hr hr₀, hw⟩
  | duplicate =>
    obtain ⟨h₀, hi, hr₀, hw⟩ := hv
    exact ⟨h₀, hi, T.rely_trans hr hr₀, hw⟩
  | isSealed =>
    obtain ⟨h₀, hi, hr₀, hw⟩ := hv
    exact ⟨h₀, hi, T.rely_trans hr hr₀, hw⟩

/-- What may have kept a call that began at `h` from taking a window: the store refused a call, the
    key held no window that the reading can be folded into, or somebody wrote there in between. -/
def Obstructed (T : Terms ι α) (settings : IngestSettings) (g : Granularity) (r : Reading α)
    (buckets : Option (Buckets α)) (h : History ι α) (start : Instant) (h' : History ι α) : Prop :=
  T.rely h h' ∧ (T.faulty ∨
    (∃ h₀, T.inv h₀ ∧ ∀ w, h₀.store.window? g r.device start = some w →
      w.applied.contains r.sourceId = false ∧ ∃ e, w.fold settings r buckets = .error e) ∨
    ∃ h₀ h₁, T.rely h₀ h₁ ∧
      h₁.store.get? (g.id r.device start).key ≠ h₀.store.get? (g.id r.device start).key)

theorem Obstructed.rely_left {h₁ h' : History ι α}
    (ho : Obstructed T settings g r buckets h₁ start h') (hr : T.rely h h₁) :
    Obstructed T settings g r buckets h start h' := ⟨T.rely_trans hr ho.1, ho.2⟩

/-- What is known after an attempt that began at `h`. -/
def Attempted (T : Terms ι α) (settings : IngestSettings) (g : Granularity) (r : Reading α)
    (buckets : Option (Buckets α)) (h : History ι α) (start : Instant)
    (x : Except (Failure IngestError) (Except StoreError WindowUpdate)) (h' : History ι α) : Prop :=
  match x with
  | .ok (.ok u) => Visited T settings g r buckets h start u h'
  | _ => Obstructed T settings g r buckets h start h'

/-- The write of a window that was found, with the reading folded in. -/
theorem tryWrite_folded_safe (ht : MayFold T settings g r buckets start) {h₀ h' : History ι α}
    (hi₀ : T.inv h₀) (hr₀ : T.rely h h₀) (hr' : T.rely h₀ h') {w folded : WindowView g α}
    (hw : h₀.store.window? g r.device start = some w)
    (hversion : (h₀.store.get? (g.id r.device start).key).bind View.version = w.version)
    (hopen : w.isSealed = false) (hnew : w.applied.contains r.sourceId = false)
    (hfold : w.fold settings r buckets = .ok folded) :
    Client.Safe T (fun x => Attempted T settings g r buckets h start
        (x.map fun y => y.map fun _ => WindowUpdate.updated))
      (Client.tryWrite (.ofWindow folded) (.expecting folded.version)) h' := by
  have hrely {h'' : History ι α} (hr'' : T.rely h' h'') : T.rely h h'' :=
    T.rely_trans hr₀ (T.rely_trans hr' hr'')
  have hframe := WindowView.fold_frame hfold
  have hkey : (View.ofWindow folded).key = (g.id r.device start).key := by
    have hid : folded.id = w.id := hframe.id
    rw [View.key_ofWindow, hid, (ht.sound hi₀).key_of_window? hw]
  have hversion' : folded.version = w.version := hframe.version
  rw [← hkey, ← hversion'] at hversion
  refine Client.safe_writeBack ht.sound ht.grows hi₀ hr' hversion
    (fun h₁ hi₁ hr₁ hsame => ?_) fun e h₁ _ hr₁ hno h₂ _ hr₂ => ?_
  · rw [hkey] at hsame
    have hfolds : h₁.store.FoldsTo settings r buckets start folded :=
      ⟨w, by rw [Store.window?, hsame]; exact hw, hopen, hnew, hfold⟩
    obtain ⟨hi₂, hg⟩ := ht.write hi₁ hfolds
    exact ⟨hi₂, hg, fun version h₂ _ hr₂ =>
      ⟨h₁, folded, hi₁, T.rely_trans hr₀ hr₁, hfolds, hi₂, hr₂⟩⟩
  · rw [hkey] at hno
    refine ⟨hrely (T.rely_trans hr₁ hr₂), ?_⟩
    exact hno.symm.imp_right fun hno => .inr ⟨h₀, h₁, T.rely_trans hr' hr₁, hno⟩

/-- One attempt: nothing is written, or the reading is folded into what is stored. -/
theorem attemptWindow_safe (ht : MayFold T settings g r buckets start) :
    Client.Safe T (Attempted T settings g r buckets h start)
      (attemptWindow settings g r buckets start) h := by
  refine Client.safe_getAs_bind (fun stored h₀ h' hi₀ hr₀ hr' hf => ?_)
    fun e h₀ h' hi₀ hr₀ hr' hf => ⟨T.rely_trans hr₀ hr', ?_⟩
  · obtain ⟨hw, hversion⟩ := window?_of_found hf
    dsimp only
    generalize stored.getD (.empty r.device start) = w at hw hversion ⊢
    have hrely {h'' : History ι α} (hr'' : T.rely h' h'') : T.rely h h'' :=
      T.rely_trans hr₀ (T.rely_trans hr' hr'')
    split_ifs with hsealed happlied
    · exact Client.safe_pure fun h'' _ hr'' =>
        ⟨h₀, hi₀, hr₀, T.rely_trans hr' hr'', w, hw, hsealed⟩
    · exact Client.safe_pure fun h'' _ hr'' =>
        ⟨h₀, hi₀, hr₀, T.rely_trans hr' hr'', w, hw, happlied⟩
    have hnew : w.applied.contains r.sourceId = false := by simpa using happlied
    refine Client.safe_compute_bind (fun folded hfolded => ?_) fun e he h'' _ hr'' =>
      ⟨hrely hr'', .inr (.inl ⟨h₀, hi₀, fun w' hw' => ?_⟩)⟩
    · have hwritten := tryWrite_folded_safe ht hi₀ hr₀ hr' hw hversion (by simpa using hsealed) hnew
        (mapError_eq_ok hfolded)
      exact Client.safe_bind hwritten (fun _ _ _ hx => Client.safe_pure hx) fun _ _ _ he => he
    · obtain ⟨e', he', -⟩ := mapError_eq_error he
      rw [hw, Option.some_inj] at hw'
      exact hw' ▸ ⟨hnew, e', he'⟩
  · rcases hf with ⟨v, hv, hnone⟩ | hf
    · refine .inr (.inl ⟨h₀, hi₀, fun w hw => ?_⟩)
      rw [Store.window?_of_some hv, hnone] at hw
      cases hw
    · exact .inl hf

/-- One window, whatever the number of attempts. -/
theorem foldIntoWindow_safe (ht : MayFold T settings g r buckets start) (retries : ℕ) :
    Client.Safe T (fun x h' => match x with
        | .ok u => Visited T settings g r buckets h start u h'
        | .error _ => Obstructed T settings g r buckets h start h')
      (foldIntoWindow settings g r buckets start retries) h := by
  induction retries generalizing h with
  | zero =>
    refine Client.safe_bind (attemptWindow_safe ht) (fun x h' _ hx => ?_) fun e h' _ he => he
    cases x with
    | ok u => exact Client.safe_pure hx
    | error e => exact Client.safe_throw hx
  | succ retries ih =>
    refine Client.safe_bind (attemptWindow_safe ht) (fun x h' hi hx => ?_) fun e h' _ he => he
    cases x with
    | ok u => exact Client.safe_pure hx
    | error e =>
      dsimp only
      split_ifs
      · refine ih.mono fun y h'' _ hy => ?_
        have hr : T.rely h h' := (hx.now hi).1
        cases y with
        | ok u => exact hy.rely_left hr
        | error e => exact hy.rely_left hr
      · exact Client.safe_throw hx

/-! ## All windows of one width -/

/-- A row of visits, each with what it did to its window. -/
inductive Walk (T : Terms ι α) (settings : IngestSettings) (g : Granularity) (r : Reading α)
    (buckets : Option (Buckets α)) :
    History ι α → List (Instant × WindowUpdate) → History ι α → Prop
  | done {h h' : History ι α} : T.rely h h' → Walk T settings g r buckets h [] h'
  | visit {h h₁ h' : History ι α} {start : Instant} {u : WindowUpdate}
      {rest : List (Instant × WindowUpdate)} : Visited T settings g r buckets h start u h₁ →
      T.inv h₁ → Walk T settings g r buckets h₁ rest h' →
      Walk T settings g r buckets h ((start, u) :: rest) h'

/-- The outcome of some visits. -/
def outcomeOf (g : Granularity) (device : String) (visits : List (Instant × WindowUpdate))
    (outcome : WindowOutcome) : WindowOutcome :=
  visits.foldl (fun o v => o.note (g.id device v.1).key v.2) outcome

/-- What an outcome lists under an update are visits that came to it. -/
theorem mem_outcomeOf {device : String} {visits : List (Instant × WindowUpdate)} {key : String}
    {u : WindowUpdate} (h : key ∈ (outcomeOf g device visits .empty).keys u) :
    ∃ v ∈ visits, v.2 = u ∧ (g.id device v.1).key = key := by
  induction visits using List.reverseRecOn with
  | nil => cases u <;> cases h
  | append_singleton visits v ih =>
    rw [outcomeOf, List.foldl_append, List.foldl_cons, List.foldl_nil, WindowOutcome.keys_note] at h
    rcases List.mem_append.1 h with h | h
    · obtain ⟨v', hv', hu⟩ := ih h
      exact ⟨v', List.mem_append_left _ hv', hu⟩
    · split_ifs at h with hu
      · exact ⟨v, by simp, hu, (List.mem_singleton.1 h).symm⟩
      · cases h

/-- What is known after a walk over some windows. It stops at the first failure. -/
def Walked (T : Terms ι α) (settings : IngestSettings) (g : Granularity) (r : Reading α)
    (buckets : Option (Buckets α)) (starts : List Instant) (outcome : WindowOutcome)
    (h : History ι α) (x : Except (Failure IngestError) WindowOutcome) (h' : History ι α) : Prop :=
  ∃ visits, Walk T settings g r buckets h visits h' ∧
    match x with
    | .ok o => visits.map Prod.fst = starts ∧ o = outcomeOf g r.device visits outcome
    | .error _ => ∃ start rest, starts = visits.map Prod.fst ++ start :: rest

theorem foldIntoWindows_safe {starts : List Instant} {outcome : WindowOutcome}
    (ht : ∀ start ∈ starts, MayFold T settings g r buckets start) :
    Client.Safe T (Walked T settings g r buckets starts outcome h)
      (foldIntoWindows settings g r buckets starts outcome) h := by
  induction starts generalizing h outcome with
  | nil => exact Client.safe_pure fun h' _ hr => ⟨[], .done hr, rfl, rfl⟩
  | cons start rest ih =>
    refine Client.safe_bind (foldIntoWindow_safe (ht start (List.mem_cons_self)) _)
      (fun u h₁ hi hu => ?_) fun e h₁ hi he => ?_
    · refine (ih fun s hs => ht s (List.mem_cons_of_mem start hs)).mono fun x h' _ hx => ?_
      obtain ⟨visits, hwalk, hx⟩ := hx
      refine ⟨(start, u) :: visits, .visit (hu.now hi) hi hwalk, ?_⟩
      cases x with
      | ok o => exact ⟨congrArg (start :: ·) hx.1, hx.2⟩
      | error e =>
        obtain ⟨s, rest', hs⟩ := hx
        exact ⟨s, rest', congrArg (start :: ·) hs⟩
    · exact fun h' hi' hr => ⟨[], .done (he h' hi' hr).1, start, rest, rfl⟩

/-- The rain of a reading in the buckets of a window. -/
def rainBuckets (settings : IngestSettings) (g : Granularity) (r : Reading α) :
    Except (Failure ResampleError) (Option (Buckets α)) :=
  r.rain.mapM fun c => resample c c.unitValue (g.bucket settings)

/-- A reading has buckets iff it reports rain, and then they are its resampled rain. -/
theorem rainBuckets_ok (h : rainBuckets settings g r = .ok buckets) :
    (r.rain = none ∧ buckets = none) ∨ ∃ c map, r.rain = some c ∧ buckets = some map ∧
      resample c c.unitValue (g.bucket settings) = .ok map := by
  rw [rainBuckets] at h
  cases hc : r.rain with
  | none =>
    rw [hc] at h
    cases h
    exact .inl ⟨rfl, rfl⟩
  | some c =>
    rw [hc, Option.mapM_some] at h
    cases hmap : resample c c.unitValue (g.bucket settings) with
    | error e =>
      rw [hmap] at h
      cases h
    | ok map =>
      rw [hmap] at h
      cases h
      exact .inr ⟨c, map, rfl, rfl, hmap⟩

/-- The windows of one width that a reading touches, with its rain in their buckets. -/
def Touched (settings : IngestSettings) (g : Granularity) (r : Reading α)
    (buckets : Option (Buckets α)) (starts : List Instant) : Prop :=
  rainBuckets settings g r = .ok buckets ∧ ∃ set, windowStarts g r buckets = .ok set ∧
    set.keys = starts

/-- A reading touches no other windows. -/
theorem Touched.unique {buckets' : Option (Buckets α)} {starts starts' : List Instant}
    (ht : Touched settings g r buckets starts) (ht' : Touched settings g r buckets' starts') :
    buckets' = buckets ∧ starts' = starts := by
  obtain ⟨hb, set, hset, rfl⟩ := ht
  obtain ⟨hb', set', hset', rfl⟩ := ht'
  rw [hb, Except.ok.injEq] at hb'
  subst hb'
  rw [hset, Except.ok.injEq] at hset'
  exact ⟨rfl, by rw [hset']⟩

/-- What a call does with the windows of one width. -/
theorem Touched.updateWindows_eq {starts : List Instant}
    (ht : Touched settings g r buckets starts) :
    updateWindows settings g r = foldIntoWindows settings g r buckets starts .empty := by
  obtain ⟨hb, set, hset, rfl⟩ := ht
  rw [rainBuckets] at hb
  rw [updateWindows, hb]
  change Client.compute ((windowStarts g r buckets).mapError _) >>= _ = _
  rw [hset]
  rfl

/-- All windows of one width that a reading touches, visit by visit; nothing happens if they cannot
    be determined. -/
theorem updateWindows_safe
    (ht : ∀ buckets starts, Touched settings g r buckets starts →
      ∀ start ∈ starts, MayFold T settings g r buckets start) :
    Client.Safe T (fun x h' => (∃ buckets starts, Touched settings g r buckets starts ∧
        Walked T settings g r buckets starts .empty h x h') ∨
      ((∀ buckets starts, ¬ Touched settings g r buckets starts) ∧ (∃ e, x = .error e) ∧
        T.rely h h')) (updateWindows settings g r) h := by
  refine Client.safe_compute_bind (fun buckets hb => ?_) fun e he => ?_
  · have hb : rainBuckets settings g r = .ok buckets := mapError_eq_ok hb
    refine Client.safe_compute_bind (fun starts hs => ?_) fun e he => ?_
    · have ht' : Touched settings g r buckets starts.keys := ⟨hb, starts, mapError_eq_ok hs, rfl⟩
      exact (foldIntoWindows_safe (ht _ _ ht')).mono fun x h' _ hx => .inl ⟨_, _, ht', hx⟩
    · obtain ⟨e', he', -⟩ := mapError_eq_error he
      refine fun h' _ hr => .inr ⟨?_, ⟨e, rfl⟩, hr⟩
      rintro buckets' starts ⟨hb', set, hset, -⟩
      rw [hb, Except.ok.injEq] at hb'
      rw [← hb', he'] at hset
      cases hset
  · obtain ⟨e', he', -⟩ := mapError_eq_error he
    refine fun h' _ hr => .inr ⟨?_, ⟨e, rfl⟩, hr⟩
    rintro buckets' starts ⟨hb', -⟩
    rw [rainBuckets, he'] at hb'
    cases hb'

/-! ## Whole calls -/

theorem id_ofReading {v : LatestView α} (h : LatestView.ofReading settings r = .ok v) :
    v.id = ViewId.latest r.device := by
  obtain ⟨rain, -, h⟩ := bind_eq_ok.1 h
  cases h
  rfl

theorem Walk.grows {visits : List (Instant × WindowUpdate)} {h' : History ι α}
    (hgrows : ∀ {h h'}, T.rely h h' → h.log <+: h'.log)
    (hw : Walk T settings g r buckets h visits h') : h.log <+: h'.log := by
  induction hw with
  | done hr => exact hgrows hr
  | @visit h h₁ h' start u rest hv _ _ ih =>
    refine List.IsPrefix.trans ?_ ih
    cases u with
    | updated =>
      obtain ⟨h₀, folded, -, hr₀, -, -, hr₁⟩ := hv
      exact ((hgrows hr₀).trans (List.prefix_append _ _)).trans (hgrows hr₁)
    | duplicate =>
      obtain ⟨h₀, -, hr₀, hr₁, -⟩ := hv
      exact (hgrows hr₀).trans (hgrows hr₁)
    | isSealed =>
      obtain ⟨h₀, -, hr₀, hr₁, -⟩ := hv
      exact (hgrows hr₀).trans (hgrows hr₁)

/-- All windows of one width were visited, some time before now, with some outcome. -/
def WalkedAll (T : Terms ι α) (settings : IngestSettings) (r : Reading α) (g : Granularity)
    (o : WindowOutcome) (now : History ι α) : Prop :=
  ∃ h buckets visits h', Touched settings g r buckets (visits.map Prod.fst) ∧
    Walk T settings g r buckets h visits h' ∧ h'.log <+: now.log ∧
      o = outcomeOf g r.device visits .empty

theorem WalkedAll.mono {o : WindowOutcome} {h' : History ι α} (hw : WalkedAll T settings r g o h)
    (hp : h.log <+: h'.log) : WalkedAll T settings r g o h' := by
  obtain ⟨h₀, buckets, visits, h₁, ht, hwalk, hp', ho⟩ := hw
  exact ⟨h₀, buckets, visits, h₁, ht, hwalk, hp'.trans hp, ho⟩

/-- A reading that is taken in has visited every window that it touches, and its outcome says what
    it did to them. -/
theorem apply_safe (hgrows : ∀ {h h'}, T.rely h h' → h.log <+: h'.log)
    (hlatest : ∀ {h v}, T.inv h → LatestView.ofReading settings r = .ok v →
      T.inv (h.put T.client (.latest v)) ∧ T.grant h (h.put T.client (.latest v)))
    (ht : ∀ g buckets starts, Touched settings g r buckets starts →
      ∀ start ∈ starts, MayFold T settings g r buckets start) :
    Client.Safe T (fun x h' => ∀ o, x = .ok o → ∀ g, WalkedAll T settings r g (o.windows g) h')
      (apply settings r) h := by
  have hwindows (g : Granularity) (h : History ι α) :
      Client.Safe T (fun x h' => h.log <+: h'.log ∧ ∀ o, x = .ok o → WalkedAll T settings r g o h')
        (updateWindows settings g r) h := by
    refine (updateWindows_safe (ht g)).mono fun x h' _ hx => ?_
    rcases hx with ⟨buckets, starts, htouched, visits, hwalk, hx⟩ | ⟨-, ⟨e, rfl⟩, hr⟩
    · refine ⟨hwalk.grows hgrows, fun o ho => ?_⟩
      subst ho
      exact ⟨h, buckets, visits, h', hx.1 ▸ htouched, hwalk, List.prefix_refl _, hx.2⟩
    · exact ⟨hgrows hr, fun o ho => by cases ho⟩
  refine Client.safe_compute_bind (fun _ _ => ?_) fun e _ h' _ _ o ho => by cases ho
  refine Client.safe_bind_ok (P := fun _ _ => True) ?_ (fun version h₁ hi₁ _ => ?_)
    fun e h' o ho => by cases ho
  · refine Client.safe_compute_bind (fun v hv => ?_) fun _ _ _ _ _ => trivial
    refine Client.safe_adapt (Client.safe_write (fun h' hi _ _ => ?_) fun _ _ _ _ => trivial)
    obtain ⟨hi', hg⟩ := hlatest hi (mapError_eq_ok hv)
    exact ⟨hi', hg, fun _ _ _ _ => trivial⟩
  · refine Client.safe_bind_ok (hwindows .hourly h₁) (fun hourly h₂ hi₂ hh => ?_)
      fun e h' o ho => by cases ho
    refine Client.safe_bind_ok (hwindows .daily h₂) (fun daily h₃ hi₃ hd => ?_)
      fun e h' o ho => by cases ho
    refine Client.safe_pure fun h' hi' hr o ho g => ?_
    cases ho
    cases g with
    | hourly =>
      exact (((hh.now hi₂).2 hourly rfl).mono (hd.now hi₃).1).mono (hgrows hr)
    | daily => exact ((hd.now hi₃).2 daily rfl).mono (hgrows hr)

end Ingest

end WeatherStation
