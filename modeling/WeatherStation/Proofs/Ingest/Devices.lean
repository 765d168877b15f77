import WeatherStation.Proofs.Ingest.Alone
import WeatherStation.Proofs.Sweep.Midway
import WeatherStation.Proofs.View.KeySpace

/-!
# The views of one device

All devices share a store. Taking a reading in writes only views of the device that sent it, and
looks only at these: what else is stored, and which versions there are, makes no difference to them.

Results:
* `KeyOf`: the keys of a device, which no other device has.
* `Store.Alike`: two stores hold the same of a device.
* `Client.ActsFor`: a client that minds the views of one device only, on a store of its own.
* `Ingest.apply_confined`, `Ingest.apply_alike`: taking a reading in.
-/

namespace WeatherStation

variable {α β γ ε ε' : Type} {g : Granularity}

/-! ## Keys of a device -/

/-- The device of a view. -/
def View.device : View α → String
  | latest v => v.device
  | hourly w => w.device
  | daily d => d.device
  | weekly w => w.device

@[simp] theorem View.withVersion_withVersion (v : View α) (t t' : Option Version) :
    (v.withVersion t).withVersion t' = v.withVersion t' := by cases v <;> rfl

@[simp] theorem View.withVersion_version (v : View α) : v.withVersion v.version = v := by
  cases v <;> rfl

/-- UTC, read off a clock. -/
def ClockTime.ofInstant (t : Instant) : ClockTime where
  shown := t.seconds
  nanos := t.nanos
  offset := 0
  utc := t
  utc_eq := by
    rw [Int.sub_zero, Instant.ofParts?,
      dif_pos ⟨t.first_le, t.le_last, t.nanos_lt, t.leap_ends_minute⟩]

/-- The key of a view of a device. -/
def KeyOf (device key : String) : Prop := ∃ s : KeySource, (s.id device).key = key

/-- A key belongs to one device. -/
theorem KeyOf.device_eq {device device' key : String} (h : KeyOf device key)
    (h' : KeyOf device' key) : device = device' := by
  obtain ⟨s, rfl⟩ := h
  obtain ⟨s', hs⟩ := h'
  exact (KeySource.eq_of_key hs.symm).1

theorem keyOf_latest (device : String) : KeyOf device (ViewId.latest device).key :=
  ⟨.latest, rfl⟩

theorem keyOf_window (g : Granularity) (device : String) (t : Instant) :
    KeyOf device (g.id device t).key :=
  ⟨.ofWindow g (.ofInstant t), by cases g <;> rfl⟩

theorem keyOf_weekly (device : String) (week : IsoWeek) :
    KeyOf device (ViewId.weekly device week).key := ⟨.week week, rfl⟩

namespace Store

variable {s s' s'' : Store α} {device : String}

/-- The two stores hold the same views of a device, whatever their versions are. -/
def Alike (device : String) (s s' : Store α) : Prop :=
  ∀ key, KeyOf device key →
    (s.get? key).map (View.withVersion none) = (s'.get? key).map (View.withVersion none)

theorem Alike.refl (device : String) (s : Store α) : s.Alike device s := fun _ _ => rfl

theorem Alike.symm (h : s.Alike device s') : s'.Alike device s := fun key hk => (h key hk).symm

theorem Alike.trans (h : s.Alike device s') (h' : s'.Alike device s'') : s.Alike device s'' :=
  fun key hk => (h key hk).trans (h' key hk)

/-- What is stored in one store is stored in the other one, with some version. -/
theorem Alike.get? (h : s.Alike device s') {key : String} (hk : KeyOf device key) {v : View α}
    (hv : s.get? key = some v) : ∃ t, s'.get? key = some (v.withVersion t) := by
  have hsame := h key hk
  rw [hv] at hsame
  obtain ⟨v', hv', hversion⟩ := Option.map_eq_some_iff.1 hsame.symm
  refine ⟨v'.version, ?_⟩
  rw [hv', ← v.withVersion_withVersion none, ← hversion, View.withVersion_withVersion,
    View.withVersion_version]

theorem Alike.put (h : s.Alike device s') {v v' : View α}
    (hv : v.withVersion none = v'.withVersion none) : (s.put v).Alike device (s'.put v') := by
  intro key hk
  have hkey : v'.key = v.key := by
    rw [← v'.key_withVersion none, ← hv, View.key_withVersion]
  have hput (s : Store α) (v : View α) :
      ((s.put v).get? v.key).map (View.withVersion none) = some (v.withVersion none) := by
    rw [get?_put_self, Option.map_some, View.withVersion_withVersion]
  by_cases hkv : key = v.key
  · rw [hkv, hput]
    rw [← hkey, hput, hv]
  · rw [get?_put_ne s v hkv, get?_put_ne s' v' (hkey ▸ hkv)]
    exact h key hk

/-- The windows that are found are the same, but for their versions. -/
theorem Alike.window? (h : s.Alike device s') {t : Instant} {w : WindowView g α}
    (hw : s.window? g device t = some w) :
    ∃ version, s'.window? g device t = some (w.setVersion version) := by
  rcases Store.window?_cases hw with hv | ⟨hv, rfl⟩
  · obtain ⟨version, hv'⟩ := h.get? (keyOf_window g device t) hv
    refine ⟨version, ?_⟩
    rw [Store.window?_of_some hv', View.ofWindow_withVersion, View.window?_ofWindow]
  · have hsame := h _ (keyOf_window g device t)
    rw [hv, Option.map_none] at hsame
    exact ⟨none, Store.window?_of_none (Option.map_eq_none_iff.1 hsame.symm)⟩

end Store

/-! ## Clients of one device -/

namespace Client

variable (now : Except Overflow Instant) (device : String)

/-- On a tidy store that nobody else uses, the client writes only views of the device, and what it
    does depends only on what is stored of the device. -/
structure ActsFor (c : Client α ε β) : Prop where
  tidy : ∀ {s}, s.Tidy → (c.alone now s).2.Tidy
  confined : ∀ {s}, s.Tidy → ∀ {key}, ¬ KeyOf device key →
    (c.alone now s).2.get? key = s.get? key
  alike : ∀ {s s'}, s.Tidy → s'.Tidy → s.Alike device s' →
    (c.alone now s').1 = (c.alone now s).1 ∧ (c.alone now s).2.Alike device (c.alone now s').2

variable {now device}

/-- A client that looks at nothing. -/
theorem actsFor_compute (x : Except ε β) : ActsFor now device (compute x : Client α ε β) where
  tidy hs := hs
  confined _ _ _ := rfl
  alike _ _ h := ⟨rfl, h⟩

theorem actsFor_pure (x : β) : ActsFor now device (pure x : Client α ε β) :=
  actsFor_compute (.ok x)

theorem ActsFor.bind {c : Client α ε β} {f : β → Client α ε γ} (hc : c.ActsFor now device)
    (hf : ∀ x, (f x).ActsFor now device) : ActsFor now device (c >>= f) where
  tidy {s} hs := by
    have hc' := hc.tidy hs
    rw [alone_bind]
    rcases hrun : c.alone now s with ⟨e | x, s₁⟩ <;> rw [hrun] at hc'
    · exact hc'
    · exact (hf x).tidy hc'
  confined {s} hs key hk := by
    have hc' := hc.tidy hs
    have hsame := hc.confined hs hk
    rw [alone_bind]
    rcases hrun : c.alone now s with ⟨e | x, s₁⟩ <;> rw [hrun] at hc' hsame
    · exact hsame
    · exact ((hf x).confined hc' hk).trans hsame
  alike {s s'} hs hs' h := by
    have hc₁ := hc.tidy hs
    have hc₂ := hc.tidy hs'
    obtain ⟨hsame, h₁⟩ := hc.alike hs hs' h
    rw [alone_bind, alone_bind]
    rcases hrun : c.alone now s with ⟨x, s₁⟩
    rcases hrun' : c.alone now s' with ⟨x', s₁'⟩
    rw [hrun] at hc₁ hsame h₁
    rw [hrun'] at hc₂ hsame h₁
    obtain rfl : x' = x := hsame
    cases x' with
    | error e => exact ⟨rfl, h₁⟩
    | ok x => exact (hf x).alike hc₁ hc₂ h₁

end Client

/-! ## Readings -/

namespace Ingest

variable [Quantity α] {settings : IngestSettings} {r : Reading α} {buckets : Option (Buckets α)}
  {start : Instant} {s s' : Store α} {w : WindowView g α} {now : Except Overflow Instant}

theorem visit_confined (hs : s.Tidy) (hw : s.window? g r.device start = some w) {key : String}
    (hk : key ≠ (g.id r.device start).key) :
    (visit settings r buckets w s).2.get? key = s.get? key := by
  rw [visit]
  split_ifs
  · rfl
  · rfl
  · split
    · rfl
    · next folded hf =>
      exact s.get?_put_ne _ fun he => hk (he.trans (named_folded hs hw hf).2.1)

/-- A visit does not look at versions. -/
theorem visit_alike (h : s.Alike r.device s') (t : Option Version) :
    (visit settings r buckets (w.setVersion t) s').1 = (visit settings r buckets w s).1 ∧
      (visit settings r buckets w s).2.Alike r.device
        (visit settings r buckets (w.setVersion t) s').2 := by
  rw [visit, visit, WindowView.fold_setVersion]
  have hsealed : (w.setVersion t).isSealed = w.isSealed := rfl
  have happlied : (w.setVersion t).applied = w.applied := rfl
  rw [hsealed, happlied]
  split_ifs
  · exact ⟨rfl, h⟩
  · exact ⟨rfl, h⟩
  · cases w.fold settings r buckets with
    | error e => exact ⟨rfl, h⟩
    | ok folded =>
      refine ⟨rfl, h.put ?_⟩
      rw [View.ofWindow_withVersion, View.ofWindow_withVersion]
      rfl

theorem foldIntoWindow_actsFor (settings : IngestSettings) (g : Granularity) (r : Reading α)
    (buckets : Option (Buckets α)) (start : Instant) (retries : ℕ) :
    (foldIntoWindow settings g r buckets start retries).ActsFor now r.device where
  tidy {s} hs := by
    obtain ⟨w, hw⟩ := hs.exists_window? g r.device start
    rw [alone_foldIntoWindow now hs hw]
    exact tidy_visit hs hw
  confined {s} hs key hk := by
    obtain ⟨w, hw⟩ := hs.exists_window? g r.device start
    rw [alone_foldIntoWindow now hs hw]
    exact visit_confined hs hw fun he => hk (he ▸ keyOf_window g r.device start)
  alike {s s'} hs hs' h := by
    obtain ⟨w, hw⟩ := hs.exists_window? g r.device start
    obtain ⟨t, hw'⟩ := h.window? hw
    rw [alone_foldIntoWindow now hs hw, alone_foldIntoWindow now hs' hw']
    exact visit_alike h t

theorem foldIntoWindows_actsFor (settings : IngestSettings) (g : Granularity) (r : Reading α)
    (buckets : Option (Buckets α)) (starts : List Instant) (outcome : WindowOutcome) :
    (foldIntoWindows settings g r buckets starts outcome).ActsFor now r.device := by
  induction starts generalizing outcome with
  | nil => exact Client.actsFor_pure outcome
  | cons start rest ih =>
    exact (foldIntoWindow_actsFor settings g r buckets start _).bind fun _ => ih _

theorem updateWindows_actsFor (settings : IngestSettings) (g : Granularity) (r : Reading α) :
    (updateWindows settings g r).ActsFor now r.device :=
  (Client.actsFor_compute _).bind fun buckets => (Client.actsFor_compute _).bind fun starts =>
    foldIntoWindows_actsFor settings g r buckets starts.keys .empty

/-- The hours, then the days. -/
def windows (settings : IngestSettings) (r : Reading α) :
    Client α (Failure IngestError) (WindowOutcome × WindowOutcome) := do
  let hourly ← updateWindows settings .hourly r
  let daily ← updateWindows settings .daily r
  return (hourly, daily)

theorem windows_actsFor (settings : IngestSettings) (r : Reading α) :
    (windows settings r).ActsFor now r.device :=
  (updateWindows_actsFor settings .hourly r).bind fun _ =>
    (updateWindows_actsFor settings .daily r).bind fun _ => Client.actsFor_pure _

/-- The version of the latest view stands in the outcome of a call and makes no other difference. -/
theorem alone_finish (settings : IngestSettings) (r : Reading α) (version : Version)
    (s : Store α) :
    (finish settings r version).alone now s =
      (((windows settings r).alone now s).1.map fun o => ⟨r.device, r.sourceId, version, o.1, o.2⟩,
        ((windows settings r).alone now s).2) := by
  rw [finish, windows, Client.alone_bind, Client.alone_bind]
  rcases (updateWindows settings .hourly r).alone now s with ⟨_ | hourly, s₁⟩
  · rfl
  · dsimp only
    rw [Client.alone_bind, Client.alone_bind]
    rcases (updateWindows settings .daily r).alone now s₁ with ⟨_ | daily, s₂⟩ <;> rfl

/-- The store after a call. -/
theorem store_apply (settings : IngestSettings) (r : Reading α) (s : Store α) :
    ((apply settings r).alone now s).2 =
      match check settings r, LatestView.ofReading settings r with
      | .ok _, .ok v => ((windows settings r).alone now (s.put (.latest v))).2
      | _, _ => s := by
  rw [alone_apply]
  cases check settings r with
  | error e => rfl
  | ok u =>
    cases LatestView.ofReading settings r with
    | error f => rfl
    | ok v =>
      dsimp only
      rw [alone_finish]

/-- The latest view is written whatever was there. -/
theorem latest_ofReading {v : LatestView α} (hv : LatestView.ofReading settings r = .ok v) :
    (View.latest v).Named ∧ v.device = r.device ∧
      (View.latest v).key = (ViewId.latest r.device).key := by
  have hid := id_ofReading hv
  refine ⟨⟨r.device, hid⟩, ?_, congrArg ViewId.key hid⟩
  obtain ⟨rain, -, hv⟩ := bind_eq_ok.1 hv
  cases hv
  rfl

/-- A reading leaves the views of other devices alone. -/
theorem apply_confined (hs : s.Tidy) {key : String} (hk : ¬ KeyOf r.device key) :
    ((apply settings r).alone now s).2.get? key = s.get? key := by
  rw [store_apply]
  split
  · next v _ hv =>
    obtain ⟨hnamed, -, hkey⟩ := latest_ofReading hv
    rw [(windows_actsFor settings r).confined (hs.put hnamed) hk]
    refine s.get?_put_ne _ fun he => hk ?_
    rw [he, hkey]
    exact keyOf_latest r.device
  · rfl

/-- What a reading does to the views of its device depends on them only. -/
theorem apply_alike (hs : s.Tidy) (hs' : s'.Tidy) (h : s.Alike r.device s') :
    ((apply settings r).alone now s).2.Alike r.device ((apply settings r).alone now s').2 := by
  rw [store_apply, store_apply]
  split
  · next v _ hv =>
    have hnamed := (latest_ofReading hv).1
    exact ((windows_actsFor settings r).alike (hs.put hnamed) (hs'.put hnamed) (h.put rfl)).2
  · exact h

end Ingest

end WeatherStation
