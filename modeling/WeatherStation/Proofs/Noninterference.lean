import WeatherStation.Proofs.Journal
import WeatherStation.Proofs.Sweep.Devices

/-!
# Devices do not interfere

Many devices share one store, its versions and the pages of its sweeps. Yet what is stored of a
device is what would be stored of it if no other device had sent anything.

Results:
* `Store.Owned`: every view is stored under a key of its device.
* `Entry.alike_after`: one call on two stores that hold the same of a device.
* `Journal.noninterference`: every journal.
* `Journal.two_stations`: a day of one of two devices.
-/

namespace WeatherStation

variable {α : Type}

/-! ## Views under keys of their devices -/

@[simp] theorem View.device_withVersion (v : View α) (t : Option Version) :
    (v.withVersion t).device = v.device := by cases v <;> rfl

/-- Any view but a latest one is named after its device. -/
theorem View.Named.keyOf {v : View α} (hv : v.Named) (hl : ∀ l, v ≠ .latest l) :
    KeyOf v.device v.key := by
  cases v with
  | latest l => exact absurd rfl (hl l)
  | hourly w =>
    have hid : w.id = Granularity.hourly.id w.device w.start := hv
    rw [View.key, View.id, hid]
    exact keyOf_window .hourly w.device w.start
  | daily d =>
    have hid : d.id = Granularity.daily.id d.device d.start := hv
    rw [View.key, View.id, hid]
    exact keyOf_window .daily d.device d.start
  | weekly w =>
    have hid : w.id = ViewId.weekly w.device w.week := hv
    rw [View.key, View.id, hid]
    exact keyOf_weekly w.device w.week

namespace Store

/-- Every view is stored under a key of its device. -/
def Owned (s : Store α) : Prop := ∀ key v, s.get? key = some v → KeyOf v.device key

theorem owned_empty : (empty : Store α).Owned := fun _ _ hv => by cases hv

theorem Owned.put {s : Store α} (hs : s.Owned) {v : View α} (hv : KeyOf v.device v.key) :
    (s.put v).Owned := by
  intro key u hu
  by_cases hk : key = v.key
  · rw [hk, get?_put_self, Option.some_inj] at hu
    rw [← hu, View.device_withVersion, hk]
    exact hv
  · rw [get?_put_ne s v hk] at hu
    exact hs key u hu

/-- What is stored of a device, but for versions. -/
def ofDevice (s : Store α) (device key : String) : Option (View α) :=
  ((s.get? key).filter fun v => v.device = device).map (View.withVersion none)

/-- Stores that hold the same under the keys of a device hold the same views of it. -/
theorem Alike.ofDevice {s s' : Store α} {device : String} (h : s.Alike device s') (hs : s.Owned)
    (hs' : s'.Owned) : s.ofDevice device = s'.ofDevice device := by
  funext key
  by_cases hkey : KeyOf device key
  · have hsame := h key hkey
    have hfilter (x : Option (View α)) :
        (x.filter fun v => v.device = device).map (View.withVersion none) =
          (x.map (View.withVersion none)).filter fun v => v.device = device := by
      cases x with
      | none => rfl
      | some v => by_cases hv : v.device = device <;> simp [Option.filter, hv]
    rw [Store.ofDevice, Store.ofDevice, hfilter, hfilter, hsame]
  · have hnone {s : Store α} (hs : s.Owned) : s.ofDevice device key = none := by
      rw [Store.ofDevice, Option.map_eq_none_iff, Option.filter_eq_none_iff]
      intro v hv hdevice
      exact hkey (of_decide_eq_true hdevice ▸ hs key v hv)
    rw [hnone hs, hnone hs']

end Store

/-! ## Calls -/

variable [Quantity α] {device : String}

namespace Entry

variable {h h' : History Unit α}

/-- Every call stores views under keys of their devices. -/
theorem owned_after (ho : h.Orderly) (hs : h.store.Owned) (e : Entry α) :
    (e.after h).Orderly ∧ (e.after h).store.Owned := by
  cases e with
  | reading settings r =>
    have hsafe : (Ingest.apply settings r).Safe
        (Terms.growing () fun h : History Unit α => h.Orderly ∧ h.store.Owned)
        (fun _ _ => True) h := by
      refine Program.Safe.mono (Ingest.apply_safe (fun hp => hp) (fun {h v} hi hv => ?_)
        fun g buckets starts _ start _ => ⟨fun hi => hi.1.sound, fun hp => hp, fun hi hf => ?_⟩)
        fun _ _ _ _ => trivial
      · obtain ⟨-, hdevice, hkey⟩ := Ingest.latest_ofReading hv
        refine ⟨⟨(hi.1.put_latest hv).1, hi.2.put ?_⟩, List.prefix_append _ _⟩
        rw [hkey, ← hdevice]
        exact keyOf_latest v.device
      · have horderly := (hi.1.put_window (i := ()) hf).1
        refine ⟨⟨horderly, hi.2.put (View.Named.keyOf ?_ ?_)⟩, List.prefix_append _ _⟩
        · exact horderly.named ((), _) (List.mem_append_right _ (List.mem_singleton_self _))
        · cases g <;> exact fun l hl => by cases hl
    exact inv_after_reading hsafe ⟨ho, hs⟩
  | sweep s =>
    rcases midway_after ho s with hsame | ⟨cutoff, hm⟩
    · rw [hsame]
      exact ⟨ho, hs⟩
    · refine ⟨hm.orderly, fun key v hv => ?_⟩
      obtain ⟨hnamed, rfl⟩ := hm.orderly.get?_named hv
      by_cases hl : ∃ l, v = .latest l
      · obtain ⟨l, rfl⟩ := hl
        exact hs _ _ ((hm.settled_of_new hv).resolve_right id)
      · exact hnamed.keyOf (not_exists.1 hl)

/-- One call on two stores that hold the same of a device. -/
theorem alike_after (ho : h.Orderly) (ho' : h'.Orderly)
    (halike : h.store.Alike device h'.store) (e : Entry α) (he : e.RunsThrough h)
    (he' : e.RunsThrough h') : (e.after h).store.Alike device (e.after h').store := by
  cases e with
  | reading settings r =>
    rw [store_after_reading, store_after_reading]
    by_cases hr : r.device = device
    · subst hr
      exact Ingest.apply_alike ho.tidy ho'.tidy halike
    · intro key hkey
      have hother : ¬ KeyOf r.device key := fun hk => hr (hk.device_eq hkey)
      rw [Ingest.apply_confined ho.tidy hother, Ingest.apply_confined ho'.tidy hother]
      exact halike key hkey
  | sweep s =>
    by_cases hdoes : 0 < s.settings.pageSize.toNat ∧ ∃ cutoff, s.CutsAt cutoff
    · obtain ⟨hpage, cutoff, hcut⟩ := hdoes
      have hcuts (h : History Unit α) : (s.ample h).CutsAt cutoff := hcut
      exact LoneSweep.run_alike ho ho' (hcuts h) (hcuts h') (he hpage cutoff hcut)
        (he' hpage cutoff hcut) halike
    · rw [after_sweep_of_idle hdoes, after_sweep_of_idle hdoes]
      exact halike

/-- A reading of another device. -/
theorem alike_after_other (ho : h.Orderly) {settings : IngestSettings} {r : Reading α}
    (hr : r.device ≠ device) : h.store.Alike device ((reading settings r).after h).store := by
  intro key hkey
  rw [store_after_reading,
    Ingest.apply_confined ho.tidy fun hk => hr (hk.device_eq hkey)]

/-- The call is not a reading of another device. -/
def concerns (device : String) : Entry α → Bool
  | reading _ r => r.device = device
  | sweep _ => true

end Entry

namespace Journal

/-- A journal, and what is left of it without the readings of other devices, on two stores that hold
    the same of a device. -/
theorem ofDevice_foldl {entries : List (Entry α)} {h h' : History Unit α} (ho : h.Orderly)
    (ho' : h'.Orderly) (hs : h.store.Owned) (hs' : h'.store.Owned)
    (halike : h.store.Alike device h'.store) (hp : Along Entry.RunsThrough entries h)
    (hp' : Along Entry.RunsThrough (entries.filter (Entry.concerns device)) h') :
    (entries.foldl (fun h e => e.after h) h).store.ofDevice device =
      ((entries.filter (Entry.concerns device)).foldl (fun h e => e.after h) h').store.ofDevice
        device := by
  induction entries generalizing h h' with
  | nil => exact halike.ofDevice hs hs'
  | cons e rest ih =>
    obtain ⟨ho₁, hs₁⟩ := Entry.owned_after ho hs e
    by_cases he : e.concerns device
    · rw [List.filter_cons_of_pos he] at hp' ⊢
      obtain ⟨ho₁', hs₁'⟩ := Entry.owned_after ho' hs' e
      exact ih ho₁ ho₁' hs₁ hs₁' (Entry.alike_after ho ho' halike e hp.1 hp'.1) hp.2 hp'.2
    · rw [List.filter_cons_of_neg he] at hp' ⊢
      cases e with
      | sweep s => exact absurd rfl he
      | reading settings r =>
        have hr : r.device ≠ device := fun hr => he (decide_eq_true hr)
        have hstays : h.store.Alike device ((Entry.reading settings r).after h).store :=
          Entry.alike_after_other ho hr
        exact ih ho₁ ho' hs₁ hs' (hstays.symm.trans halike) hp.2 hp'

/-- What is stored of a device after any journal whose sweeps run through or do nothing is what would
    be stored of it if no other device had sent a reading, but for versions. -/
theorem noninterference (device : String) (entries : List (Entry α))
    (h : Along Entry.RunsThrough entries .empty)
    (h' : Along Entry.RunsThrough (entries.filter (Entry.concerns device)) .empty) :
    (run entries).store.ofDevice device =
      (run (entries.filter (Entry.concerns device))).store.ofDevice device :=
  ofDevice_foldl History.orderly_empty History.orderly_empty Store.owned_empty Store.owned_empty
    (.refl device _) h h'

/-- Two readings of one afternoon, from two devices, and a sweep two days later. The name of one
    device is the key of the other one's latest view. -/
def twoStations : List (Entry ℚ) :=
  [.reading .standard (Sweep.reading "first" 10),
    .reading .standard { Sweep.reading "first" 20 with device := "dev|latest" },
    .sweep (LoneSweep.onTheThirteenth 1 fun _ => none)]

/-- The week of one device is written with another version if the other device is left out. -/
theorem two_stations :
    let alone := twoStations.filter (Entry.concerns "dev")
    Along Entry.RunsThrough twoStations .empty ∧ Along Entry.RunsThrough alone .empty ∧
      (run twoStations).store.ofDevice "dev" = (run alone).store.ofDevice "dev" ∧
      ((run twoStations).store.get? "dev|weekly|2025-W37").map View.version = some (some "7") ∧
      ((run alone).store.get? "dev|weekly|2025-W37").map View.version = some (some "4") := by
  intro alone
  let s : LoneSweep ℚ := .onTheThirteenth 1 fun _ => none
  have hbudget : ((Instant.ofSeconds? 1757746800).get (by decide)).since
      ((Instant.ofSeconds? 1757746800).get (by decide)) ≤
        (s.settings.timeBudget.nanoseconds : ℤ) := by decide +kernel
  have hsweep (h : History Unit ℚ) : (Entry.sweep s).RunsThrough h :=
    Entry.runsThrough_of_clock (s := s) (fun _ => rfl) rfl
      (fun _ => ⟨_, rfl, hbudget⟩) h
  have hboth : Along Entry.RunsThrough twoStations .empty := ⟨trivial, trivial, hsweep _, trivial⟩
  have hrest : alone = [.reading .standard (Sweep.reading "first" 10), .sweep s] := by
    simp [alone, s, twoStations, Entry.concerns, Sweep.reading]
  have halone : Along Entry.RunsThrough alone .empty := by
    rw [hrest]
    exact ⟨trivial, hsweep _, trivial⟩
  have hsame := noninterference "dev" twoStations hboth halone
  have hweek : ((run twoStations).store.get? "dev|weekly|2025-W37").map View.version =
      some (some "7") := by decide +kernel
  have hweek' : ((run alone).store.get? "dev|weekly|2025-W37").map View.version =
      some (some "4") := by decide +kernel
  with_reducible exact ⟨hboth, halone, hsame, hweek, hweek'⟩

end Journal

end WeatherStation
