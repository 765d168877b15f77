import WeatherStation.Proofs.Sweep.Kept

/-!
# What windows hand on

A stored window began without readings, and came to be by folding readings in and, in the end, by
closing. So a property that windows without readings have, and that folding and closing keep, holds
of every stored window, whatever readings and sweeps do and in whichever order.

Results:
* `WindowView.Inherited`: such a property.
* `History.Inherits`: all windows that were written have it.
* `WindowView.Inherited.kept`: all writes keep it.
* `Sweep.inherits_of_jobs`: every run.
-/

namespace WeatherStation

variable {ι α : Type} {g : Granularity} {Q : (g : Granularity) → WindowView g α → Prop}

/-- A property of windows, as a property of views. -/
def View.WindowHas (Q : (g : Granularity) → WindowView g α → Prop) : View α → Prop
  | .hourly w => Q .hourly w
  | .daily w => Q .daily w
  | _ => True

theorem View.windowHas_ofWindow {w : WindowView g α} : (ofWindow w).WindowHas Q ↔ Q g w := by
  cases g <;> exact Iff.rfl

/-- All windows that were written have a property. -/
structure History.Inherits (Q : (g : Granularity) → WindowView g α → Prop) (h : History ι α) :
    Prop where
  orderly : h.Orderly
  windows : ∀ e ∈ h.log, e.2.WindowHas Q

theorem History.inherits_empty : Inherits Q (empty : History ι α) :=
  ⟨orderly_empty, fun e he => by cases he⟩

theorem History.Inherits.put {h : History ι α} (hi : h.Inherits Q) {i : ι} {v : View α}
    (ho : (h.put i v).Orderly) (hv : v.WindowHas Q) : (h.put i v).Inherits Q := by
  refine ⟨ho, fun e he => ?_⟩
  rcases List.mem_append.1 he with he | he
  · exact hi.windows e he
  · rw [List.mem_singleton.1 he]
    exact hv

variable [Quantity α]

/-- Windows without readings have the property if a reading of some kind begins them, and folding
    such a reading in and closing keep it. It is not about versions. -/
structure WindowView.Inherited (among : IngestSettings → Reading α → Prop)
    (Q : (g : Granularity) → WindowView g α → Prop) : Prop where
  setVersion : ∀ {g w} (t : Option Version), Q g w → Q g (w.setVersion t)
  empty : ∀ {settings r g buckets starts start}, among settings r →
    Ingest.Touched settings g r buckets starts → start ∈ starts → Q g (.empty r.device start)
  fold : ∀ {settings r g buckets} {w w' : WindowView g α}, among settings r → w.isSealed = false →
    Q g w → w.fold settings r buckets = .ok w' → Q g w'
  close : ∀ {d c : DailyView α}, Q .daily d → DailyView.close.result d = .ok c → Q .daily c

variable {among : IngestSettings → Reading α → Prop} {h : History ι α}

/-- As a property of views, it is one that all writes keep. -/
theorem WindowView.Inherited.kept (hQ : WindowView.Inherited among Q) :
    View.Kept among (View.WindowHas Q) where
  withVersion {v} t hv := by
    cases v with
    | latest v => trivial
    | weekly w => trivial
    | hourly w => exact hQ.setVersion t hv
    | daily w => exact hQ.setVersion t hv
  latest _ _ := trivial
  empty hr ht hs := View.windowHas_ofWindow.2 (hQ.empty hr ht hs)
  fold hr _ hopen hw hfold := View.windowHas_ofWindow.2
    (hQ.fold hr hopen (View.windowHas_ofWindow.1 hw) hfold)
  close hd hdc := hQ.close hd hdc
  emptyWeek _ _ := trivial
  applyDays _ _ _ := trivial

omit [Quantity α] in
theorem History.inherits_iff : h.Inherits Q ↔ h.Holds (View.WindowHas Q) :=
  ⟨fun hi => ⟨hi.orderly, hi.windows⟩, fun hi => ⟨hi.orderly, hi.views⟩⟩

/-- Stored windows have the property. -/
theorem History.Inherits.get? (hi : h.Inherits Q) (hQ : WindowView.Inherited among Q) {key : String}
    {w : WindowView g α} (hw : h.store.get? key = some (.ofWindow w)) : Q g w :=
  View.windowHas_ofWindow.1 ((inherits_iff.1 hi).get? hQ.kept hw)

/-- What a reading of the kind writes instead of a window has the property. -/
theorem History.Inherits.folded (hi : h.Inherits Q) (hQ : WindowView.Inherited among Q)
    {settings : IngestSettings} {r : Reading α} (hr : among settings r)
    {buckets : Option (Buckets α)} {starts : List Instant}
    (ht : Ingest.Touched settings g r buckets starts) {start : Instant} (hs : start ∈ starts)
    {folded : WindowView g α} (hf : h.store.FoldsTo settings r buckets start folded) :
    Q g folded :=
  View.windowHas_ofWindow.1 ((inherits_iff.1 hi).folded hQ.kept hr ht hs hf)

namespace Sweep

/-- Windows keep a property, and nothing is taken from the record. -/
def inheritedTerms (Q : (g : Granularity) → WindowView g α → Prop) (i : ι) : Terms ι α :=
  .growing i (History.Inherits Q)

omit [Quantity α] in
theorem inheritedTerms_eq (i : ι) :
    (inheritedTerms Q i : Terms ι α) = holdingTerms (View.WindowHas Q) i :=
  congrArg (Terms.growing i) (funext fun _ => propext History.inherits_iff)

theorem apply_safe_inherited (hQ : WindowView.Inherited among Q) (i : ι)
    {settings : IngestSettings} {r : Reading α} (hr : among settings r) (h : History ι α) :
    Client.Safe (inheritedTerms Q i) (fun _ _ => True) (Ingest.apply settings r) h := by
  rw [inheritedTerms_eq]
  exact apply_safe_holding hQ.kept i (fun _ => hr) h

theorem maySweep_inherited (hQ : WindowView.Inherited among Q) (i : ι) (cutoff : Instant) :
    MaySweep (inheritedTerms Q i) (fun _ => inheritedTerms Q i)
      (fun c _ => (View.daily c).Named ∧ Q .daily c) (fun c _ => (View.daily c).Named ∧ Q .daily c)
      cutoff := by
  rw [inheritedTerms_eq]
  exact maySweep_holding hQ.kept i cutoff

end Sweep

/-- All windows that readings and sweeps write have the property, whatever the order is in which
    they make their calls. -/
theorem Sweep.inherits_of_jobs [DecidableEq ι] {jobs : ι → Job α}
    (hQ : WindowView.Inherited (fun settings r => ∃ i, jobs i = .reading settings r) Q)
    (moves : List (Move ι)) :
    ((Traffic.start fun i => (jobs i).program).run moves).history.Inherits Q := by
  refine History.inherits_iff.2 (holds_of_jobs ?_ moves)
  exact hQ.kept.mono fun _ _ hr => hr.2

end WeatherStation
