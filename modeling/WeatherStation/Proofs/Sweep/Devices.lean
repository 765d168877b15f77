import WeatherStation.Proofs.Ingest.Devices
import WeatherStation.Proofs.Sweep.Chain
import WeatherStation.Proofs.View.Sealed

/-!
# Sweeps and the views of one device

A sweep goes through the open days of all devices at once. But what it does to a day and to a week
depends only on views of their device, and not on versions: on two stores that hold the same of a
device, sweeps up to one cutoff that run through leave the same of it.

Results:
* `Sweep.closing_alike`: the days that are sealed.
* `Sweep.Midway.week_alike`: the weeks that they are written into.
* `Sweep.Midway.alike`: whole stores.
* `LoneSweep.run_alike`: two sweeps that run through.
-/

namespace WeatherStation

variable {ι α : Type} {device : String}

theorem Store.Alike.week? {s s' : Store α} (h : s.Alike device s') {week : IsoWeek}
    {w : WeeklyView α} (hw : s.week? device week = some w) :
    ∃ t, s'.week? device week = some { w with version := t } := by
  cases hv : s.get? (ViewId.weekly device week).key with
  | none =>
    have hsame := h _ (keyOf_weekly device week)
    rw [hv, Option.map_none] at hsame
    rw [Store.week?_of_none hv, Option.some_inj] at hw
    subst hw
    exact ⟨none, Store.week?_of_none (Option.map_eq_none_iff.1 hsame.symm)⟩
  | some v =>
    rw [Store.week?_of_some hv] at hw
    obtain rfl := View.eq_weekly_of_ofKind? hw
    obtain ⟨t, hv'⟩ := h.get? (keyOf_weekly device week) hv
    exact ⟨t, Store.week?_of_some hv'⟩

variable [Quantity α]

namespace Sweep

open History WeeklyView

variable {h h' h₁ h₁' : History ι α} {cutoff : Instant} {c : DailyView α}

theorem keyOf_closing (ho : h.Orderly) (hc : h.Closing cutoff c) : KeyOf c.device c.id.key := by
  have hid : c.id = Granularity.daily.id c.device c.start := hc.named ho
  rw [hid]
  exact keyOf_window .daily c.device c.start

/-- The days of a device that can be sealed are the same. -/
theorem closing_alike (ho : h.Orderly) (hs : h.store.Alike device h'.store)
    (hc : h.Closing cutoff c) (hdevice : c.device = device) :
    ∃ t, h'.Closing cutoff (c.setVersion t) := by
  have hkey := hdevice ▸ keyOf_closing ho hc
  obtain ⟨d, hd, hdc⟩ := hc
  rw [(DailyView.close_frame hdc).2.id] at hkey
  obtain ⟨t, ht⟩ := hs.get? hkey hd.stored
  refine ⟨t, d.setVersion t, ⟨ht, hd.isOpen, hd.start_lt⟩, ?_⟩
  rw [DailyView.close_setVersion, hdc]
  rfl

namespace Midway

/-- A week of the device holds the same. -/
theorem week_alike (hm : Midway h cutoff h₁) (hm' : Midway h' cutoff h₁') (hs : Swept h₁ cutoff)
    (hs' : Swept h₁' cutoff) (halike : h.store.Alike device h'.store) (hc : h.Closing cutoff c)
    (hdevice : c.device = device) : ∃ w t, h₁.store.get? c.weekKey = some (.weekly w) ∧
      h₁'.store.get? c.weekKey = some (.weekly { w with version := t }) := by
  subst hdevice
  have halike' : h.store.Alike c.owner.1 h'.store := halike
  -- What is known of a closed day of the owner in both stores.
  have hboth {d : DailyView α} (hd : h.Closing cutoff d) (ho : d.owner = c.owner) :
      InFilled h cutoff d h₁ ∧ ∃ t, InFilled h' cutoff (d.setVersion t) h₁' := by
    obtain ⟨t, ht⟩ := closing_alike hm.began halike hd (congrArg Prod.fst ho)
    exact ⟨(hm.sealed_of_swept hs hd).2, t, (hm'.sealed_of_swept hs' ht).2⟩
  obtain ⟨⟨w, hw, ⟨w₀, hw₀, hplaces⟩, hrecomputed, -⟩,
    t, w', hw', ⟨w₀', hw₀', hplaces'⟩, hrecomputed', -⟩ := hboth hc rfl
  have hw' : h₁'.store.get? c.weekKey = some (.weekly w') := hw'
  have hw₀' : h'.store.week? c.owner.1 c.owner.2 = some w₀' := hw₀'
  obtain ⟨t₀, ht₀⟩ := halike'.week? hw₀
  rw [ht₀, Option.some_inj] at hw₀'
  subst hw₀'
  have hplace (p : Fin 7) : SamePlace p w w' := by
    by_cases hp : ∃ d, h.Closing cutoff d ∧ d.owner = c.owner ∧ place d.start.date = p
    · obtain ⟨d, hd, ho, rfl⟩ := hp
      obtain ⟨⟨w₁, hw₁, -, -, ha⟩, t', w₁', hw₁', -, -, ha'⟩ := hboth hd ho
      have hw₁' : h₁'.store.get? d.weekKey = some (.weekly w₁') := hw₁'
      rw [DailyView.weekKey_eq_iff.2 ho, ← DailyView.weekKey] at hw₁ hw₁'
      rw [hw] at hw₁
      rw [hw'] at hw₁'
      cases hw₁
      cases hw₁'
      exact ha.samePlace ha'
    · have hold : SamePlace p w₀ w := by
        refine (hplaces p).resolve_right ?_
        rintro ⟨d, hd, ho, hdp, -⟩
        exact hp ⟨d, hd, ho, hdp⟩
      have hold' : SamePlace p w₀ w' := by
        refine (hplaces' p).resolve_right ?_
        rintro ⟨d, hd, ho, hdp, -⟩
        obtain ⟨t', ht'⟩ := closing_alike hm'.began halike.symm hd (congrArg Prod.fst ho)
        exact hp ⟨d.setVersion t', ht', ho, hdp⟩
      exact hold.symm.trans hold'
  refine ⟨w, w'.version, hw, ?_⟩
  obtain ⟨hd₁, hk₁, hid₁⟩ := hm.orderly.week?_named (Store.week?_of_some hw)
  obtain ⟨hd₂, hk₂, hid₂⟩ := hm'.orderly.week?_named (Store.week?_of_some hw')
  rw [hw']
  refine congrArg (fun w => some (View.weekly w)) (eq_of_samePlace ⟨?_, ?_, ?_, rfl⟩ hplace
    ⟨hrecomputed.metrics, hrecomputed.rain⟩ hrecomputed')
  · show w'.id = w.id
    rw [hid₁, hid₂, hd₁, hd₂, hk₁, hk₂]
  · exact hd₂.trans hd₁.symm
  · exact hk₂.trans hk₁.symm

/-- Two stores hold the same of a device when no days are left over, if they held the same in the
    beginning. -/
theorem alike (hm : Midway h cutoff h₁) (hm' : Midway h' cutoff h₁') (hs : Swept h₁ cutoff)
    (hs' : Swept h₁' cutoff) (halike : h.store.Alike device h'.store) :
    h₁.store.Alike device h₁'.store := by
  intro key hkey
  by_cases hday : ∃ c, h.Closing cutoff c ∧ key = c.id.key
  · obtain ⟨c, hc, rfl⟩ := hday
    obtain ⟨t, ht⟩ := closing_alike hm.began halike hc
      ((keyOf_closing hm.began hc).device_eq hkey)
    obtain ⟨⟨v, hv⟩, -⟩ := hm.sealed_of_swept hs hc
    obtain ⟨⟨v', hv'⟩, -⟩ := hm'.sealed_of_swept hs' ht
    have hv' : h₁'.store.get? c.id.key = _ := hv'
    rw [hv, hv']
    rfl
  by_cases hweek : ∃ c, h.Closing cutoff c ∧ key = c.weekKey
  · obtain ⟨c, hc, rfl⟩ := hweek
    obtain ⟨w, t, hw, hw'⟩ := hm.week_alike hm' hs hs' halike hc
      ((keyOf_weekly c.owner.1 c.owner.2).device_eq hkey)
    rw [hw, hw']
    rfl
  · have hnone (c : DailyView α) (hc : h.Closing cutoff c) : key ≠ c.id.key ∧ key ≠ c.weekKey :=
      ⟨fun he => hday ⟨c, hc, he⟩, fun he => hweek ⟨c, hc, he⟩⟩
    have hnone' (c : DailyView α) (hc : h'.Closing cutoff c) :
        key ≠ c.id.key ∧ key ≠ c.weekKey := by
      have hother (hdevice : c.device = device) : key ≠ c.id.key ∧ key ≠ c.weekKey := by
        obtain ⟨t, ht⟩ := closing_alike hm'.began halike.symm hc hdevice
        exact hnone (c.setVersion t) ht
      refine ⟨fun he => (hother ?_).1 he, fun he => (hother ?_).2 he⟩
      · exact (he ▸ keyOf_closing hm'.began hc).device_eq hkey
      · exact (he ▸ keyOf_weekly c.owner.1 c.owner.2 : KeyOf c.device key).device_eq hkey
    rw [hm.others hnone, hm'.others hnone']
    exact halike key hkey

end Midway

end Sweep

namespace LoneSweep

open Sweep

variable {s s' : LoneSweep α} {i : ι} {h h' : History ι α} {cutoff : Instant}

/-- Two sweeps with one cutoff that run through, on stores that hold the same of a device. -/
theorem run_alike (ho : h.Orderly) (ho' : h'.Orderly) (hs : s.CutsAt cutoff)
    (hs' : s'.CutsAt cutoff) (ht : s.RunsThrough i h) (ht' : s'.RunsThrough i h')
    (halike : h.store.Alike device h'.store) :
    (s.run i h).2.store.Alike device (s'.run i h').2.store :=
  (midway_run hs (midway_refl ho cutoff)).alike (midway_run hs' (midway_refl ho' cutoff))
    (finished_run hs (midway_refl ho cutoff) ht).2
    (finished_run hs' (midway_refl ho' cutoff) ht').2 halike

end LoneSweep

end WeatherStation
