import WeatherStation.Proofs.Ingest.Windows
import WeatherStation.Proofs.View.Keys

/-!
# Stored windows are folds

A stored window is the window that its first writer started, with the readings of all its writers
folded in, in the order of their writes. Every write of a window keeps this, whoever makes it.

Results:
* `WindowView.FoldOf`: a window is the fold of some readings.
* `WindowView.FoldOf.contains_iff`: the applied deliveries of such a window are those of the
  readings.
* `History.Folded`: every stored window is the fold of its writers' readings.
* `History.Folded.fold_key`: the empty window from which such a fold begins.
* `History.Folded.put_window`, `History.Folded.put_latest`: what the writes of clients keep.
-/

namespace WeatherStation

variable {ι α : Type} [Quantity α] {g : Granularity}

open Ingest

namespace WindowView

/-- Folds a reading into a window, together with its rain in the buckets of the window. -/
def take (settings : IngestSettings) (w : WindowView g α) (r : Reading α) :
    Except (Failure IngestError) (WindowView g α) := do
  let buckets ← (rainBuckets settings g r).mapError (Failure.map .resample)
  (w.fold settings r buckets).mapError (Failure.map .tally)

theorem take_eq {settings : IngestSettings} {r : Reading α} {buckets : Option (Buckets α)}
    (hb : rainBuckets settings g r = .ok buckets) (w : WindowView g α) :
    w.take settings r = (w.fold settings r buckets).mapError (Failure.map .tally) := by
  simp only [take, hb, Except.mapError, bind, Except.bind]

theorem fold_of_take {settings : IngestSettings} {r : Reading α} {w w' : WindowView g α}
    (h : w.take settings r = .ok w') : ∃ buckets, w.fold settings r buckets = .ok w' := by
  obtain ⟨buckets, -, h⟩ := bind_eq_ok.1 h
  exact ⟨buckets, mapError_eq_ok h⟩

theorem take_frame {settings : IngestSettings} {r : Reading α} {w w' : WindowView g α}
    (h : w.take settings r = .ok w') : SameFrame (w.noted r) w' := by
  obtain ⟨buckets, h⟩ := fold_of_take h
  exact fold_frame h

theorem take_setVersion (settings : IngestSettings) (r : Reading α) (w : WindowView g α)
    (t : Option Version) :
    (w.setVersion t).take settings r = (w.take settings r).map (setVersion t) := by
  cases hb : rainBuckets settings g r with
  | error e => simp only [take, hb, Except.mapError, bind, Except.bind, Except.map]
  | ok buckets =>
    rw [take_eq hb, take_eq hb, fold_setVersion]
    cases w.fold settings r buckets <;> rfl

/-- The window that the first of some readings starts, with all of them folded in, one after the
    other. -/
def FoldOf (settings : IngestSettings) (rs : List (Reading α)) (w : WindowView g α) : Prop :=
  ∃ r rest buckets starts start, rs = r :: rest ∧ Touched settings g r buckets starts ∧
    start ∈ starts ∧ rs.foldlM (take settings) (.empty r.device start) = .ok (w.setVersion none)

/-- What a window keeps along a fold, and how its applied deliveries grow. -/
theorem foldlM_take_frame {settings : IngestSettings} {rs : List (Reading α)}
    {w w' : WindowView g α} (h : rs.foldlM (take settings) w = .ok w') :
    w'.id = w.id ∧ w'.device = w.device ∧ w'.start = w.start ∧ w'.isSealed = w.isSealed ∧
      ∀ id, w'.applied.contains id = true ↔
        w.applied.contains id = true ∨ id ∈ rs.map Reading.sourceId := by
  induction rs generalizing w with
  | nil =>
    cases h
    simp
  | cons r rs ih =>
    rw [List.foldlM_cons] at h
    obtain ⟨w₁, hr, h⟩ := bind_eq_ok.1 h
    obtain ⟨hid, hdevice, hstart, hsealed, happlied⟩ := ih h
    have hf := take_frame hr
    refine ⟨hid.trans hf.id, hdevice.trans hf.device, hstart.trans hf.start,
      hsealed.trans hf.isSealed, fun id => ?_⟩
    obtain ⟨buckets, hfold⟩ := fold_of_take hr
    rw [happlied, contains_of_fold hfold, List.map_cons, List.mem_cons]
    tauto

variable {settings : IngestSettings} {rs : List (Reading α)} {w : WindowView g α}

theorem FoldOf.contains_iff (h : FoldOf settings rs w) (id : String) :
    w.applied.contains id = true ↔ id ∈ rs.map Reading.sourceId := by
  obtain ⟨r, rest, buckets, starts, start, -, -, -, hfold⟩ := h
  have := (foldlM_take_frame hfold).2.2.2.2 id
  simpa [setVersion, empty, SortedMap.contains] using this

theorem FoldOf.isSealed (h : FoldOf settings rs w) : w.isSealed = false := by
  obtain ⟨r, rest, buckets, starts, start, -, -, -, hfold⟩ := h
  exact (foldlM_take_frame hfold).2.2.2.1

/-- The fold of one reading. -/
theorem FoldOf.single {r : Reading α} {buckets : Option (Buckets α)} {starts : List Instant}
    {start : Instant} (ht : Touched settings g r buckets starts) (hs : start ∈ starts)
    (h : (empty r.device start).fold settings r buckets = .ok w) : FoldOf settings [r] w := by
  refine ⟨r, [], buckets, starts, start, rfl, ht, hs, ?_⟩
  have hv : (empty r.device start : WindowView g α) = (empty r.device start).setVersion none := rfl
  rw [List.foldlM_cons, hv, take_setVersion, take_eq ht.1, h]
  rfl

/-- One more reading. -/
theorem FoldOf.concat {r : Reading α} {buckets : Option (Buckets α)} {w' : WindowView g α}
    (hw : FoldOf settings rs w) (hb : rainBuckets settings g r = .ok buckets)
    (h : w.fold settings r buckets = .ok w') : FoldOf settings (rs ++ [r]) w' := by
  obtain ⟨r₀, rest, buckets₀, starts, start, rfl, ht, hs, hfold⟩ := hw
  refine ⟨r₀, rest ++ [r], buckets₀, starts, start, rfl, ht, hs, ?_⟩
  rw [List.foldlM_append, hfold]
  change [r].foldlM (take settings) (w.setVersion none) = _
  rw [List.foldlM_cons, take_setVersion, take_eq hb, h]
  rfl

end WindowView

/-! ## Histories -/

namespace History

/-- Every stored window is the fold of the readings of its writers, none of which was delivered
    twice. -/
structure Folded (settings : IngestSettings) (reading : ι → Reading α) (h : History ι α) :
    Prop where
  sound : h.Sound
  fold : ∀ {key} {g : Granularity} {w : WindowView g α}, h.store.get? key = some (.ofWindow w) →
    w.FoldOf settings ((h.writers key).map reading)
  once : ∀ {key} {g : Granularity} {w : WindowView g α}, h.store.get? key = some (.ofWindow w) →
    ((h.writers key).map fun i => (reading i).sourceId).Nodup

theorem folded_empty (settings : IngestSettings) (reading : ι → Reading α) :
    Folded settings reading (empty : History ι α) where
  sound := sound_empty
  fold := by
    intro key g w hw
    cases hw
  once := by
    intro key g w hw
    cases hw

variable {settings : IngestSettings} {reading : ι → Reading α} {h : History ι α} {i : ι}

/-- A stored window is the fold of its writers' readings into an empty window with the same key. -/
theorem Folded.fold_key (hf : h.Folded settings reading) {key : String} {w : WindowView g α}
    (hw : h.store.get? key = some (.ofWindow w)) :
    ∃ r ∈ (h.writers key).map reading, ∃ buckets starts start,
      Touched settings g r buckets starts ∧ start ∈ starts ∧ (g.id r.device start).key = key ∧
        ((h.writers key).map reading).foldlM (WindowView.take settings) (.empty r.device start) =
          .ok (w.setVersion none) := by
  obtain ⟨r, rest, buckets, starts, start, hus, ht, hs, hfold⟩ := hf.fold hw
  refine ⟨r, by simp [hus], buckets, starts, start, ht, hs, ?_, hfold⟩
  have hid : w.id = g.id r.device start := (WindowView.foldlM_take_frame hfold).1
  rw [← hid, ← View.key_ofWindow]
  exact (hf.sound.get?_recorded hw).1

/-- A window that is found is open. -/
theorem Folded.isOpen (hf : h.Folded settings reading) {device : String} {start : Instant}
    {w : WindowView g α} (hw : h.store.window? g device start = some w) : w.isSealed = false := by
  cases hv : h.store.get? (g.id device start).key with
  | none =>
    rw [Store.window?_of_none hv] at hw
    cases hw
    rfl
  | some v =>
    rw [Store.window?_of_some hv] at hw
    rw [View.eq_ofWindow_of_window? hw] at hv
    exact (hf.fold hv).isSealed

/-- A delivery that a window has seen was written by somebody. -/
theorem Folded.writer_of_contains (hf : h.Folded settings reading) {device : String}
    {start : Instant} {w : WindowView g α} (hw : h.store.window? g device start = some w)
    {id : String} (hc : w.applied.contains id = true) :
    ∃ i ∈ h.writers (g.id device start).key, (reading i).sourceId = id := by
  cases hv : h.store.get? (g.id device start).key with
  | none =>
    rw [Store.window?_of_none hv] at hw
    cases hw
    cases hc
  | some v =>
    rw [Store.window?_of_some hv] at hw
    rw [View.eq_ofWindow_of_window? hw] at hv
    simpa using ((hf.fold hv).contains_iff id).1 hc

/-- A delivery that a window takes in is none of those in it. -/
theorem Folded.notMem_sourceIds (hf : h.Folded settings reading) {buckets : Option (Buckets α)}
    {start : Instant} {folded : WindowView g α}
    (hw : h.store.FoldsTo settings (reading i) buckets start folded) :
    (reading i).sourceId ∉
      (h.writers (g.id (reading i).device start).key).map fun j => (reading j).sourceId := by
  obtain ⟨w, hw, -, happlied, -⟩ := hw
  cases hv : h.store.get? (g.id (reading i).device start).key with
  | none => simp [hf.sound.writers_eq_nil hv]
  | some v =>
    rw [Store.window?_of_some hv] at hw
    rw [View.eq_ofWindow_of_window? hw] at hv
    intro hmem
    rw [((hf.fold hv).contains_iff _).2 (by simpa using hmem)] at happlied
    cases happlied

/-- A client writes a window at most once. -/
theorem Folded.notMem_writers (hf : h.Folded settings reading) {buckets : Option (Buckets α)}
    {start : Instant} {folded : WindowView g α}
    (hw : h.store.FoldsTo settings (reading i) buckets start folded) :
    i ∉ h.writers (g.id (reading i).device start).key :=
  fun hmem => hf.notMem_sourceIds hw (List.mem_map.2 ⟨i, hmem, rfl⟩)

/-- A write that folds a reading into what is stored. -/
theorem Folded.put_window (hf : h.Folded settings reading) {buckets : Option (Buckets α)}
    {starts : List Instant} {start : Instant} {folded : WindowView g α}
    (ht : Touched settings g (reading i) buckets starts) (hs : start ∈ starts)
    (hw : h.store.FoldsTo settings (reading i) buckets start folded) :
    (h.put i (.ofWindow folded)).Folded settings reading := by
  have hkey := hw.key hf.sound
  have hfresh := hf.notMem_sourceIds hw
  obtain ⟨w, hw, -, -, hfold⟩ := hw
  -- Under the key of the window the reading is folded in last; no other key changes.
  have hnew : folded.FoldOf settings ((h.writers (View.ofWindow folded).key ++ [i]).map reading) ∧
      ((h.writers (View.ofWindow folded).key ++ [i]).map fun i => (reading i).sourceId).Nodup := by
    rw [hkey, List.map_append, List.map_append]
    cases hv : h.store.get? (g.id (reading i).device start).key with
    | none =>
      rw [hf.sound.writers_eq_nil hv]
      rw [Store.window?_of_none hv, Option.some_inj] at hw
      subst hw
      exact ⟨.single ht hs hfold, List.nodup_singleton _⟩
    | some v =>
      rw [Store.window?_of_some hv] at hw
      rw [View.eq_ofWindow_of_window? hw] at hv
      exact ⟨(hf.fold hv).concat ht.1 hfold, List.Nodup.append (hf.once hv)
        (List.nodup_singleton _) (List.disjoint_singleton.2 hfresh)⟩
  have hkept {key : String} {g' : Granularity} {w' : WindowView g' α}
      (hv : (h.put i (.ofWindow folded)).store.get? key = some (.ofWindow w')) :
      w'.FoldOf settings (((h.put i (.ofWindow folded)).writers key).map reading) ∧
        (((h.put i (.ofWindow folded)).writers key).map fun i => (reading i).sourceId).Nodup := by
    by_cases hk : key = (View.ofWindow folded).key
    · subst hk
      rw [History.put, Store.get?_put_self, View.ofWindow_withVersion, Option.some_inj] at hv
      obtain ⟨rfl, hw'⟩ := View.ofWindow_inj hv
      rw [writers_put_self, ← eq_of_heq hw']
      exact hnew
    · rw [History.put, Store.get?_put_ne _ _ hk] at hv
      rw [writers_put_ne _ _ hk]
      exact ⟨hf.fold hv, hf.once hv⟩
  exact ⟨hf.sound.put i _, fun hv => (hkept hv).1, fun hv => (hkept hv).2⟩

/-- The write of a latest view. -/
theorem Folded.put_latest (hf : h.Folded settings reading) (v : LatestView α) :
    (h.put i (.latest v)).Folded settings reading := by
  have hkept {key : String} {g' : Granularity} {w' : WindowView g' α}
      (hv : (h.put i (.latest v)).store.get? key = some (.ofWindow w')) :
      h.store.get? key = some (.ofWindow w') ∧
        (h.put i (.latest v)).writers key = h.writers key := by
    by_cases hk : key = (View.latest v).key
    · subst hk
      rw [History.put, Store.get?_put_self] at hv
      cases g' <;> cases hv
    · rw [History.put, Store.get?_put_ne _ _ hk] at hv
      exact ⟨hv, writers_put_ne _ _ hk⟩
  refine ⟨hf.sound.put i _, fun hv => ?_, fun hv => ?_⟩
  · rw [(hkept hv).2]
    exact hf.fold (hkept hv).1
  · rw [(hkept hv).2]
    exact hf.once (hkept hv).1

end History

end WeatherStation
