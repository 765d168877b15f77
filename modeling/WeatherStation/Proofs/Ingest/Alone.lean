import WeatherStation.Proofs.Ingest.Refusals
import WeatherStation.Proofs.Sweep.Orderly

/-!
# Readings on a store of one's own

While nobody else uses the store, no write of a window meets a conflict. So every window is visited
once, and what a visit comes to is a function of the window that is there.

Results:
* `Store.Tidy`: what is known of all stored views.
* `Ingest.visit`: the visit of one window.
* `Ingest.alone_foldIntoWindow`, `Ingest.alone_foldIntoWindows`: a call makes such visits, one after
  the other, up to the first that fails.
-/

namespace WeatherStation

variable {α : Type} {g : Granularity}

/-! ## Tidy stores -/

namespace Store

/-- Every view is stored under its own key, which is that of its kind, its device and its time, and
    has a version. -/
structure Tidy (s : Store α) : Prop where
  key : ∀ {key v}, s.get? key = some v → v.key = key
  version : ∀ {key v}, s.get? key = some v → v.version.isSome
  named : ∀ {key v}, s.get? key = some v → v.Named

variable {s : Store α}

theorem Tidy.put (hs : s.Tidy) {v : View α} (hv : v.Named) : (s.put v).Tidy := by
  have hget {key : String} {u : View α} (hu : (s.put v).get? key = some u) :
      (key = v.key ∧ u = v.withVersion (some s.freshVersion)) ∨ s.get? key = some u := by
    by_cases hk : key = v.key
    · rw [hk, get?_put_self, Option.some_inj] at hu
      exact .inl ⟨hk, hu.symm⟩
    · rw [get?_put_ne s v hk] at hu
      exact .inr hu
  refine ⟨fun hu => ?_, fun hu => ?_, fun hu => ?_⟩ <;>
    rcases hget hu with ⟨rfl, rfl⟩ | hu
  · exact View.key_withVersion v _
  · exact hs.key hu
  · simp
  · exact hs.version hu
  · exact hv.withVersion _
  · exact hs.named hu

/-- A write that expects what the key holds is allowed. -/
theorem Tidy.allows_expecting (hs : s.Tidy) (key : String) :
    s.allows key (.expecting ((s.get? key).bind View.version)) = true := by
  cases hv : s.get? key with
  | none => simp [WriteCondition.expecting, allows, hv]
  | some v =>
    obtain ⟨t, ht⟩ := Option.isSome_iff_exists.1 (hs.version hv)
    simp [WriteCondition.expecting, allows, hv, ht]

end Store

theorem History.Orderly.tidy {ι : Type} {h : History ι α} (ho : h.Orderly) : h.store.Tidy where
  key hv := (ho.get?_named hv).2
  version hv := (ho.sound.get?_recorded hv).2.version_isSome
  named hv := (ho.get?_named hv).1

/-- Only windows of one width are stored under the keys of such windows. -/
theorem View.Named.eq_ofWindow {v : View α} (hv : v.Named) {device : String} {t : Instant}
    (hk : v.key = (g.id device t).key) :
    ∃ w : WindowView g α, v = .ofWindow w ∧ w.device = device ∧
      w.start.seconds / g.seconds = t.seconds / g.seconds := by
  have hwindow (g' : Granularity) (w : WindowView g' α) (hw : (ofWindow w).Named)
      (hk : (ofWindow w).key = (g.id device t).key) :
      ∃ w' : WindowView g α, ofWindow w = .ofWindow w' ∧ w'.device = device ∧
        w'.start.seconds / g.seconds = t.seconds / g.seconds := by
    rw [View.key_ofWindow, View.named_ofWindow.1 hw] at hk
    obtain rfl := Granularity.eq_of_id_key_eq hk
    exact ⟨w, rfl, (g'.id_key_eq_iff.1 hk).1, (g'.id_key_eq_iff.1 hk).2⟩
  cases v with
  | latest v =>
    obtain ⟨d, hd⟩ := hv
    exact absurd (by rw [← hk, ← hd]; rfl) (ViewId.latest_key_ne_window d device g t)
  | hourly w => exact hwindow .hourly w hv hk
  | daily w => exact hwindow .daily w hv hk
  | weekly w =>
    have hv : w.id = ViewId.weekly w.device w.week := hv
    exact absurd (by rw [← hk, ← hv]; rfl)
      (ViewId.weekly_key_ne_window w.device device w.week g t)

namespace Store.Tidy

variable {s : Store α} {device : String} {t : Instant}

/-- Every look for a window finds one, if only one without readings. -/
theorem exists_window? (hs : s.Tidy) (g : Granularity) (device : String) (t : Instant) :
    ∃ w, s.window? g device t = some w := by
  cases hv : s.get? (g.id device t).key with
  | none => exact ⟨_, Store.window?_of_none hv⟩
  | some v =>
    obtain ⟨w, rfl, -⟩ := (hs.named hv).eq_ofWindow (hs.key hv)
    exact ⟨w, by rw [Store.window?_of_some hv, View.window?_ofWindow]⟩

/-- The window that is found belongs to the device, and has the key that was looked at. -/
theorem window?_frame (hs : s.Tidy) {w : WindowView g α} (hw : s.window? g device t = some w) :
    w.device = device ∧ w.id = g.id w.device w.start ∧ w.id.key = (g.id device t).key ∧
      w.version = (s.get? (g.id device t).key).bind View.version := by
  rcases Store.window?_cases hw with hv | ⟨hv, rfl⟩
  · have hkey := hs.key hv
    obtain ⟨w', hw', hdevice, -⟩ := (hs.named hv).eq_ofWindow hkey
    obtain ⟨-, hww⟩ := View.ofWindow_inj hw'
    obtain rfl := eq_of_heq hww
    rw [hv]
    exact ⟨hdevice, View.named_ofWindow.1 (hs.named hv), by rw [← View.key_ofWindow, hkey],
      (View.version_ofWindow w).symm⟩
  · rw [hv]
    exact ⟨rfl, rfl, rfl, rfl⟩

end Store.Tidy

/-! ## Visits -/

namespace Ingest

variable [Quantity α] {settings : IngestSettings} {r : Reading α} {buckets : Option (Buckets α)}
  {start : Instant} {s : Store α} {w : WindowView g α}

/-- The visit of a window: what comes of it, and the store after it. -/
def visit (settings : IngestSettings) (r : Reading α) (buckets : Option (Buckets α))
    (w : WindowView g α) (s : Store α) : Except (Failure IngestError) WindowUpdate × Store α :=
  if w.isSealed then (.ok .isSealed, s)
  else if w.applied.contains r.sourceId then (.ok .duplicate, s)
  else
    match w.fold settings r buckets with
    | .error e => (.error (e.map .tally), s)
    | .ok folded => (.ok .updated, s.put (.ofWindow folded))

/-- What a fold is written as: it keeps its key, and is found there under the version of the
    window. -/
theorem named_folded (hs : s.Tidy) (hw : s.window? g r.device start = some w)
    {folded : WindowView g α} (hf : w.fold settings r buckets = .ok folded) :
    (View.ofWindow folded).Named ∧ (View.ofWindow folded).key = (g.id r.device start).key ∧
      folded.version = (s.get? (g.id r.device start).key).bind View.version := by
  obtain ⟨-, hid, hkey, hversion⟩ := hs.window?_frame hw
  have hframe := WindowView.fold_frame hf
  have hid' : folded.id = w.id := hframe.id
  have hdevice : folded.device = w.device := hframe.device
  have hstart : folded.start = w.start := hframe.start
  have hversion' : folded.version = w.version := hframe.version
  refine ⟨View.named_ofWindow.2 ?_, ?_, hversion'.trans hversion⟩
  · rw [hid', hdevice, hstart, hid]
  · rw [View.key_ofWindow, hid', hkey]

theorem tidy_visit (hs : s.Tidy) (hw : s.window? g r.device start = some w) :
    (visit settings r buckets w s).2.Tidy := by
  rw [visit]
  split_ifs
  · exact hs
  · exact hs
  · split
    · exact hs
    · next folded hf => exact hs.put (named_folded hs hw hf).1

variable (now : Except Overflow Instant)

/-- An attempt on a window is a visit: its write meets no conflict. -/
theorem alone_attemptWindow (hs : s.Tidy) (hw : s.window? g r.device start = some w) :
    (attemptWindow settings g r buckets start).alone now s =
      ((visit settings r buckets w s).1.map .ok, (visit settings r buckets w s).2) := by
  have hlook : ∃ stored : Option (WindowView g α),
      Client.look s g.kind (View.window? g) (g.id r.device start).key = .ok stored ∧
        stored.getD (.empty r.device start) = w := by
    rw [Client.look]
    rcases Store.window?_cases hw with hv | ⟨hv, rfl⟩
    · exact ⟨some w, by simp only [hv, View.window?_ofWindow], rfl⟩
    · exact ⟨none, by simp only [hv], rfl⟩
  obtain ⟨stored, hlook, hstored⟩ := hlook
  rw [attemptWindow, Client.alone_bind, Client.alone_adapt, Client.alone_getAs, hlook, visit]
  dsimp only [Except.mapError]
  rw [hstored]
  split_ifs with hsealed happlied
  · rfl
  · rfl
  · rw [Client.alone_bind, Client.alone_compute]
    cases hf : w.fold settings r buckets with
    | error e => rfl
    | ok folded =>
      obtain ⟨-, hkey, hversion⟩ := named_folded hs hw hf
      dsimp only [Except.mapError]
      rw [Client.alone_bind, Client.alone_tryWrite, hkey, hversion, if_pos (hs.allows_expecting _)]
      rfl

/-- One window, whatever the number of attempts. -/
theorem alone_foldIntoWindow (hs : s.Tidy) (hw : s.window? g r.device start = some w)
    (retries : ℕ) :
    (foldIntoWindow settings g r buckets start retries).alone now s =
      visit settings r buckets w s := by
  cases retries with
  | zero =>
    rw [foldIntoWindow, Client.alone_bind, alone_attemptWindow now hs hw]
    rcases visit settings r buckets w s with ⟨_ | u, s'⟩ <;> rfl
  | succ retries =>
    rw [foldIntoWindow, Client.alone_bind, alone_attemptWindow now hs hw]
    rcases visit settings r buckets w s with ⟨_ | u, s'⟩ <;> rfl

/-- The windows are visited one after the other, up to the first visit that fails. -/
theorem alone_foldIntoWindows_cons (hs : s.Tidy) (hw : s.window? g r.device start = some w)
    (rest : List Instant) (outcome : WindowOutcome) :
    (foldIntoWindows settings g r buckets (start :: rest) outcome).alone now s =
      match visit settings r buckets w s with
      | (.ok u, s') => (foldIntoWindows settings g r buckets rest
          (outcome.note (g.id r.device start).key u)).alone now s'
      | (.error e, s') => (.error e, s') := by
  rw [foldIntoWindows, Client.alone_bind, alone_foldIntoWindow now hs hw]
  rcases visit settings r buckets w s with ⟨_ | u, s'⟩ <;> rfl

end Ingest

end WeatherStation
