import WeatherStation.Proofs.Ingest.Windows
import WeatherStation.Proofs.Rollup.Sync

/-!
# Orderly stores

Readings and sweeps store every view under the key of its kind, its device and its time. So the
writes of days do not touch weeks, nor do those of weeks touch days, and a week gives every day that
it owns a place of its own.

Results:
* `View.Named`: the id of a view is that of its kind, its device and its time.
* `History.Orderly`: all views are stored under such ids.
* `History.Orderly.put_latest`, `History.Orderly.put_window`: the writes of a reading, which leave
  weeks and sealed days alone.
-/

namespace WeatherStation

variable {ι α : Type} {g : Granularity}

/-- The id of the view is that of its kind, its device and its time. -/
def View.Named : View α → Prop
  | .latest v => ∃ device, v.id = ViewId.latest device
  | .hourly w => w.id = Granularity.hourly.id w.device w.start
  | .daily d => d.id = Granularity.daily.id d.device d.start
  | .weekly w => w.id = ViewId.weekly w.device w.week

/-- Weeks and sealed days, which the hot path leaves alone. -/
def View.Settled : View α → Prop
  | .daily d => d.isSealed = true
  | .weekly _ => True
  | _ => False

namespace View

theorem Named.withVersion {v : View α} (hv : v.Named) (t : Option Version) :
    (v.withVersion t).Named := by
  cases v <;> exact hv

theorem named_ofWindow {w : WindowView g α} :
    (ofWindow w).Named ↔ w.id = g.id w.device w.start := by
  cases g <;> exact Iff.rfl

theorem not_settled_ofWindow {w : WindowView g α} (h : w.isSealed = false) :
    ¬ (ofWindow w).Settled := by
  cases g with
  | hourly => exact fun hs => hs
  | daily =>
    intro hs
    rw [show w.isSealed = true from hs] at h
    cases h

/-- What is stored as the latest view of a device is not settled. -/
theorem Named.not_settled_of_latest {v : View α} (hv : v.Named) {device : String}
    (hk : v.key = (ViewId.latest device).key) : ¬ v.Settled := by
  cases v with
  | latest v => exact fun hs => hs
  | hourly w => exact fun hs => hs
  | daily w =>
    have hv : w.id = Granularity.daily.id w.device w.start := hv
    exact absurd (by rw [← hk, ← hv]; rfl)
      (ViewId.latest_key_ne_window device w.device .daily w.start)
  | weekly w =>
    have hv : w.id = ViewId.weekly w.device w.week := hv
    exact absurd (by rw [← hk, ← hv]; rfl) (ViewId.latest_key_ne_weekly device w.device w.week)

/-- Only weeks are stored under the keys of weeks. -/
theorem Named.eq_weekly {v : View α} (hv : v.Named) {device : String} {week : IsoWeek}
    (hk : v.key = (ViewId.weekly device week).key) :
    ∃ w, v = .weekly w ∧ w.device = device ∧ w.week = week := by
  cases v with
  | latest v =>
    obtain ⟨d, hd⟩ := hv
    exact absurd (by rw [← hk, ← hd]; rfl) (ViewId.latest_key_ne_weekly d device week)
  | hourly w =>
    have hv : w.id = Granularity.hourly.id w.device w.start := hv
    exact absurd (by rw [← hk, ← hv]; rfl)
      (ViewId.weekly_key_ne_window device w.device week .hourly w.start)
  | daily w =>
    have hv : w.id = Granularity.daily.id w.device w.start := hv
    exact absurd (by rw [← hk, ← hv]; rfl)
      (ViewId.weekly_key_ne_window device w.device week .daily w.start)
  | weekly w =>
    have hv : w.id = ViewId.weekly w.device w.week := hv
    have hk : w.id.key = (ViewId.weekly device week).key := hk
    rw [hv] at hk
    obtain ⟨hd, hw⟩ := ViewId.weekly_key_inj hk
    exact ⟨w, rfl, hd, hw⟩

/-- Views of one day have one key. -/
theorem Named.key_of_same_day {d d' : DailyView α} (hd : (View.daily d).Named)
    (hd' : (View.daily d').Named) (hdevice : d.device = d'.device)
    (hdate : d.start.date = d'.start.date) : d.id.key = d'.id.key := by
  have hd : d.id = Granularity.daily.id d.device d.start := hd
  have hd' : d'.id = Granularity.daily.id d'.device d'.start := hd'
  rw [hd, hd', Granularity.id_key_eq_iff]
  exact ⟨hdevice, Instant.date_eq_iff.1 hdate⟩

end View

/-- A day is determined by its week and its place there. -/
theorem DailyView.date_of_owner {d d' : DailyView α} (ho : d.owner = d'.owner)
    (hp : WeeklyView.place d.start.date = WeeklyView.place d'.start.date) :
    d.device = d'.device ∧ d.start.date = d'.start.date := by
  obtain ⟨hdevice, hweek⟩ := Prod.mk.inj ho
  exact ⟨hdevice, IsoWeek.eq_of_weekday hweek (Fin.mk.inj hp)⟩

namespace History

/-- The store is made by its writes, and all views are named as they should be. -/
structure Orderly (h : History ι α) : Prop where
  sound : h.Sound
  named : ∀ e ∈ h.log, e.2.Named

theorem orderly_empty : (empty : History ι α).Orderly := ⟨sound_empty, fun e he => by cases he⟩

variable {h : History ι α} {i : ι}

theorem Orderly.put (ho : h.Orderly) {v : View α} (hv : v.Named) : (h.put i v).Orderly := by
  refine ⟨ho.sound.put i v, fun e he => ?_⟩
  rcases List.mem_append.1 he with he | he
  · exact ho.named e he
  · rw [List.mem_singleton.1 he]
    exact hv

theorem Recorded.named {v : View α} (hv : h.Recorded v) (ho : h.Orderly) : v.Named := by
  obtain ⟨n, e, hn, rfl⟩ := hv
  exact (ho.named e (List.mem_of_getElem? hn)).withVersion _

theorem Orderly.get?_named (ho : h.Orderly) {key : String} {v : View α}
    (hv : h.store.get? key = some v) : v.Named ∧ v.key = key :=
  ⟨(ho.sound.get?_recorded hv).2.named ho, (ho.sound.get?_recorded hv).1⟩

/-- A window is stored under the key of its device and its start. -/
theorem Orderly.key_eq (ho : h.Orderly) {key : String} {w : WindowView g α}
    (hw : h.store.get? key = some (.ofWindow w)) : (g.id w.device w.start).key = key := by
  obtain ⟨hnamed, hkey⟩ := ho.get?_named hw
  rw [← View.named_ofWindow.1 hnamed, ← View.key_ofWindow, hkey]

/-- A week that is found is that of its key, whether it was stored or not. -/
theorem Orderly.week?_named (ho : h.Orderly) {device : String} {week : IsoWeek} {w : WeeklyView α}
    (hw : h.store.week? device week = some w) :
    w.device = device ∧ w.week = week ∧ w.id = ViewId.weekly w.device w.week := by
  cases hv : h.store.get? (ViewId.weekly device week).key with
  | none =>
    rw [Store.week?_of_none hv] at hw
    cases hw
    exact ⟨rfl, rfl, rfl⟩
  | some v =>
    rw [Store.week?_of_some hv] at hw
    obtain rfl := View.eq_weekly_of_ofKind? hw
    obtain ⟨hnamed, hk⟩ := ho.get?_named hv
    obtain ⟨w₀, hw₀, hdevice, hweek⟩ := hnamed.eq_weekly hk
    cases hw₀
    exact ⟨hdevice, hweek, hnamed⟩

/-- No other view stands in the way of a week. -/
theorem Orderly.exists_week? (ho : h.Orderly) (device : String) (week : IsoWeek) :
    ∃ w, h.store.week? device week = some w := by
  cases hv : h.store.get? (ViewId.weekly device week).key with
  | none => exact ⟨_, Store.week?_of_none hv⟩
  | some v =>
    obtain ⟨hnamed, hk⟩ := ho.get?_named hv
    obtain ⟨w, rfl, -, -⟩ := hnamed.eq_weekly hk
    exact ⟨w, Store.week?_of_some hv⟩

/-- Weeks and sealed days are the same. -/
def SameSettled (h h' : History ι α) : Prop :=
  ∀ key v, v.Settled → (h.store.get? key = some v ↔ h'.store.get? key = some v)

theorem SameSettled.refl (h : History ι α) : SameSettled h h := fun _ _ _ => Iff.rfl

theorem SameSettled.trans {h h' h'' : History ι α} (hs : SameSettled h h')
    (hs' : SameSettled h' h'') : SameSettled h h'' :=
  fun key v hv => (hs key v hv).trans (hs' key v hv)

/-- An open view that takes the place of an open view. -/
theorem sameSettled_put {v : View α} (hv : ¬ v.Settled)
    (hold : ∀ u, h.store.get? v.key = some u → ¬ u.Settled) : SameSettled h (h.put i v) := by
  intro key u hu
  rw [get?_put]
  split_ifs with hk
  · subst hk
    refine iff_of_false (fun hget => hold u hget hu) fun hget => hv ?_
    rw [Option.some_inj] at hget
    rw [← hget] at hu
    cases v <;> exact hu
  · exact Iff.rfl

variable [Quantity α] {settings : IngestSettings} {r : Reading α}

/-- The write of a latest view. -/
theorem Orderly.put_latest (ho : h.Orderly) {v : LatestView α}
    (hv : LatestView.ofReading settings r = .ok v) :
    (h.put i (.latest v)).Orderly ∧ SameSettled h (h.put i (.latest v)) := by
  have hid : v.id = ViewId.latest r.device := Ingest.id_ofReading hv
  refine ⟨ho.put ⟨r.device, hid⟩, sameSettled_put (fun hs => hs) fun u hu => ?_⟩
  obtain ⟨hnamed, hk⟩ := ho.get?_named hu
  have hkey : (View.latest v).key = (ViewId.latest r.device).key := congrArg ViewId.key hid
  exact hnamed.not_settled_of_latest (hk.trans hkey)

/-- The write of a window into which a reading was folded. -/
theorem Orderly.put_window (ho : h.Orderly) {buckets : Option (Buckets α)} {start : Instant}
    {folded : WindowView g α} (hf : h.store.FoldsTo settings r buckets start folded) :
    (h.put i (.ofWindow folded)).Orderly ∧ SameSettled h (h.put i (.ofWindow folded)) := by
  have hkey := hf.key ho.sound
  obtain ⟨w, hw, hopen, -, hfold⟩ := hf
  have hframe := WindowView.fold_frame hfold
  have hopen' : folded.isSealed = false := hframe.isSealed.trans hopen
  have hnamed : (View.ofWindow w).Named ∧
      ∀ u, h.store.get? (View.ofWindow folded).key = some u → ¬ u.Settled := by
    rw [hkey]
    cases hv : h.store.get? (g.id r.device start).key with
    | none =>
      rw [Store.window?_of_none hv] at hw
      cases hw
      exact ⟨View.named_ofWindow.2 rfl, fun u hu => by cases hu⟩
    | some v =>
      rw [Store.window?_of_some hv] at hw
      obtain rfl := View.eq_ofWindow_of_window? hw
      refine ⟨(ho.get?_named hv).1, fun u hu => ?_⟩
      rw [← Option.some_inj.1 hu]
      exact View.not_settled_ofWindow hopen
  refine ⟨ho.put (View.named_ofWindow.2 ?_),
    sameSettled_put (View.not_settled_ofWindow hopen') hnamed.2⟩
  have hid : folded.id = w.id := hframe.id
  have hdevice : folded.device = w.device := hframe.device
  have hstart : folded.start = w.start := hframe.start
  rw [hid, hdevice, hstart]
  exact View.named_ofWindow.1 hnamed.1

end History

end WeatherStation
