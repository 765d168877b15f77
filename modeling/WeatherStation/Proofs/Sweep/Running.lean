import WeatherStation.Proofs.Sweep.Inherited
import WeatherStation.Proofs.View.Sealed

/-!
# Open days can be closed

A tally begins with a value and takes more of them, and only closing a day closes its tallies. So
all tallies of an open day are active, none of them is empty, and the day can be closed.

Results:
* `Tally.Running`: an active tally with at least one value.
* `DailyView.running_fold`: folding a reading in leaves all tallies running.
* `WindowView.inherited_openRuns`: the tallies of stored days that are open are running.
* `History.Due.exists_close`: open days can be closed.
-/

namespace WeatherStation

variable {ι α : Type} [Quantity α]

/-! ## Tallies -/

/-- The tally is active and has taken at least one value. -/
def Tally.Running (t : Tally α) : Prop :=
  ∃ sum count min max, t = .active sum count min max ∧ count ≠ 0

namespace Tally

omit [Quantity α] in
theorem running_single (x : α) : (single x).Running := ⟨x, 1, x, x, rfl, by decide⟩

theorem Running.add {t t' : Tally α} {x : α} (h : t.Running) (ht : t.add x = .ok t') :
    t'.Running := by
  obtain ⟨sum, count, min, max, rfl, -⟩ := h
  rw [Tally.add] at ht
  split_ifs at ht with hroom
  · cases ht
    refine ⟨_, _, _, _, rfl, fun hzero => ?_⟩
    have hcount := congrArg UInt64.toNat hzero
    rw [UInt64.toNat_add, UInt64.toNat_one, Nat.mod_eq_of_lt hroom] at hcount
    exact absurd hcount (Nat.succ_ne_zero _)

theorem Running.close {t : Tally α} (h : t.Running) : ∃ c, t.close = .ok c := by
  obtain ⟨sum, count, min, max, rfl, hne⟩ := h
  simp only [Tally.close, summary, average, if_neg hne]
  exact ⟨_, rfl⟩

/-- One more value, whether there was a tally or not. -/
theorem running_addValue {t : Option (Tally α)} {t' : Tally α} {x : α}
    (h : ∀ u, t = some u → u.Running) (ht : WindowView.addValue x t = .ok t') : t'.Running := by
  cases t with
  | none =>
    cases ht
    exact running_single x
  | some u => exact (h u rfl).add ht

end Tally

/-! ## Days -/

namespace DailyView

/-- All tallies of the day are running. -/
def Running (d : DailyView α) : Prop := ∀ q t, d.tally? q = some t → t.Running

/-- A value goes into the tally of its metric and into that of its hour. -/
theorem addMetric_eq {hour : UInt32} {v : Metric × α} {d d' : DailyView α}
    (h : d.addMetric hour v = .ok d') :
    ∃ t t', WindowView.addValue v.2 (d.tally? (v.1, none)) = .ok t ∧
      WindowView.addValue v.2 (d.tally? (v.1, some hour)) = .ok t' ∧
      d' = (d.setTally t (v.1, none)).setTally t' (v.1, some hour) := by
  obtain ⟨t, ht, h⟩ := bind_eq_ok.1 h
  obtain ⟨detail, hdetail, h⟩ := bind_eq_ok.1 h
  obtain ⟨t', ht', hdetail⟩ := bind_eq_ok.1 hdetail
  cases hdetail
  cases h
  exact ⟨t, t', ht, ht', rfl⟩

theorem Running.addMetric {hour : UInt32} {v : Metric × α} {d d' : DailyView α} (hd : d.Running)
    (h : d.addMetric hour v = .ok d') : d'.Running := by
  obtain ⟨t, t', ht, ht', rfl⟩ := addMetric_eq h
  intro q u hu
  by_cases hq : q = (v.1, some hour)
  · rw [hq, tally?_setTally_self, Option.some_inj] at hu
    exact hu ▸ Tally.running_addValue (hd _) ht'
  rw [tally?_setTally_ne _ _ hq] at hu
  by_cases hq' : q = (v.1, none)
  · rw [hq', tally?_setTally_self, Option.some_inj] at hu
    exact hu ▸ Tally.running_addValue (hd _) ht
  · rw [tally?_setTally_ne _ _ hq'] at hu
    exact hd q u hu

/-- Folding a reading in leaves all tallies running. -/
theorem running_fold {settings : IngestSettings} {r : Reading α} {buckets : Option (Buckets α)}
    {d d' : DailyView α} (hd : d.Running) (h : d.fold settings r buckets = .ok d') :
    d'.Running := by
  rw [WindowView.fold_eq] at h
  split at h
  · cases h
  · next inside _ =>
    obtain ⟨folded, hm, h⟩ : ∃ folded, (WindowView.rained settings buckets d).metered r inside =
        .ok folded ∧ folded.noted r = d' := by
      cases hm : (WindowView.rained settings buckets d).metered r inside with
      | error e =>
        rw [hm] at h
        cases h
      | ok folded =>
        rw [hm] at h
        exact ⟨folded, rfl, Except.ok.inj h⟩
    have hrained : Running (WindowView.rained settings buckets d) := by
      cases buckets <;> exact hd
    have hfolded : Running folded := by
      rw [WindowView.metered] at hm
      split_ifs at hm
      · exact foldlM_ok (p := Running) (fun _ _ _ _ hv hw => Running.addMetric hw hv) hrained hm
      · cases hm
        exact hrained
    subst h
    exact hfolded

omit [Quantity α] in
theorem running_empty (device : String) (start : Instant) :
    Running (.empty device start : DailyView α) := by
  rintro ⟨m, hour | hour⟩ t ht
  · simp [tally?, WindowView.empty] at ht
  · simp [tally?, WindowView.empty, DailyView.hours, Granularity.noDetail] at ht

end DailyView

/-- If the window is a day that is open, its tallies are running. -/
def WindowView.OpenRuns : (g : Granularity) → WindowView g α → Prop
  | .hourly, _ => True
  | .daily, d => d.isSealed = false → DailyView.Running d

/-- Tallies of open days are running, whatever the readings are. -/
theorem WindowView.inherited_openRuns (among : IngestSettings → Reading α → Prop) :
    WindowView.Inherited among WindowView.OpenRuns where
  setVersion {g w} t hw := by
    cases g with
    | hourly => trivial
    | daily => exact hw
  empty {_ r g _ _ start} _ _ _ := by
    cases g with
    | hourly => trivial
    | daily => exact fun _ => DailyView.running_empty r.device start
  fold {_ _ g _ w w'} _ hopen hw hfold := by
    cases g with
    | hourly => trivial
    | daily => exact fun _ => DailyView.running_fold (hw hopen) hfold
  close {d c} _ hdc := by
    intro hopen
    rw [(DailyView.close_frame hdc).1] at hopen
    cases hopen

/-- Open days that are stored can be closed. -/
theorem History.Due.exists_close {h : History ι α} (hi : h.Inherits WindowView.OpenRuns)
    {cutoff : Instant} {d : DailyView α} (hd : h.Due cutoff d) :
    ∃ c, DailyView.close.result d = .ok c := by
  have hruns : WindowView.OpenRuns .daily d :=
    hi.get? (g := .daily) (WindowView.inherited_openRuns fun _ _ => True) hd.stored
  exact DailyView.exists_close hd.isOpen fun q t ht => (hruns hd.isOpen q t ht).close

end WeatherStation
