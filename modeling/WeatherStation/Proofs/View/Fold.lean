import WeatherStation.Proofs.Except
import WeatherStation.View.Basic

/-!
# Folding into a window

What a window keeps when a reading is folded in, and what changes.

Results:
* `WindowView.fold_frame`: id, device, start, seal and version stay, and the delivery is added to
  the applied ones.
* `WindowView.contains_of_fold`: the deliveries that a window has seen.
* `WindowView.fold_setVersion`: folding does not look at versions.
-/

namespace WeatherStation

variable {α : Type} {g : Granularity}

namespace WindowView

/-- The window with another version. -/
def setVersion (t : Option Version) (w : WindowView g α) : WindowView g α := { w with version := t }

/-- Everything about a window but its tallies, its detail and its rain. -/
structure SameFrame (w w' : WindowView g α) : Prop where
  id : w'.id = w.id
  device : w'.device = w.device
  start : w'.start = w.start
  applied : w'.applied = w.applied
  isSealed : w'.isSealed = w.isSealed
  version : w'.version = w.version

theorem SameFrame.refl (w : WindowView g α) : SameFrame w w := ⟨rfl, rfl, rfl, rfl, rfl, rfl⟩

theorem SameFrame.trans {w w' w'' : WindowView g α} (h : SameFrame w w') (h' : SameFrame w' w'') :
    SameFrame w w'' :=
  ⟨h'.id.trans h.id, h'.device.trans h.device, h'.start.trans h.start, h'.applied.trans h.applied,
    h'.isSealed.trans h.isSealed, h'.version.trans h.version⟩

variable [Quantity α]

theorem addRain_frame (settings : IngestSettings) (w : WindowView g α) (buckets : Buckets α) :
    SameFrame w (w.addRain settings buckets) := ⟨rfl, rfl, rfl, rfl, rfl, rfl⟩

theorem addMetric_frame {hour : UInt32} {w w' : WindowView g α} {v : Metric × α}
    (h : w.addMetric hour v = .ok w') : SameFrame w w' := by
  obtain ⟨tally, -, h⟩ := bind_eq_ok.1 h
  obtain ⟨detail, -, h⟩ := bind_eq_ok.1 h
  cases h
  exact ⟨rfl, rfl, rfl, rfl, rfl, rfl⟩

/-- The window after its rain was folded in. -/
def rained (settings : IngestSettings) (buckets : Option (Buckets α)) (w : WindowView g α) :
    WindowView g α :=
  (buckets.map (addRain settings w)).getD w

theorem rained_frame (settings : IngestSettings) (buckets : Option (Buckets α))
    (w : WindowView g α) : SameFrame w (w.rained settings buckets) := by
  cases buckets with
  | none => exact .refl w
  | some buckets => exact addRain_frame settings w buckets

/-- The window after the metrics of a reading were folded in, if it contains the reading. -/
def metered (r : Reading α) (inside : Bool) (w : WindowView g α) :
    Except (Failure TallyError) (WindowView g α) :=
  if inside then r.carried.foldlM (addMetric (UInt32.ofNat r.time.hour)) w else .ok w

theorem metered_frame {r : Reading α} {inside : Bool} {w w' : WindowView g α}
    (h : w.metered r inside = .ok w') : SameFrame w w' := by
  rw [metered] at h
  split at h
  · exact foldlM_ok (fun _ _ _ _ hv hw => hw.trans (addMetric_frame hv)) (.refl w) h
  · cases h
    exact .refl w

/-- The window after a delivery was noted. -/
def noted (r : Reading α) (w : WindowView g α) : WindowView g α :=
  { w with applied := w.applied.add r.sourceId }

/-- Rain first, then the metrics where the window contains the reading, then its name. -/
theorem fold_eq (settings : IngestSettings) (r : Reading α) (buckets : Option (Buckets α))
    (w : WindowView g α) :
    w.fold settings r buckets =
      match w.contains r.time with
      | .error o => .error (.overflow o)
      | .ok inside => ((w.rained settings buckets).metered r inside).map (noted r) := by
  simp only [fold, bind, Except.bind]
  cases w.contains r.time with
  | error o => rfl
  | ok inside =>
    cases inside with
    | false => rfl
    | true =>
      simp only [Except.mapError, metered, rained, if_true]
      generalize (buckets.map (addRain settings w)).getD w = w'
      cases r.carried.foldlM (addMetric (UInt32.ofNat r.time.hour)) w' <;> rfl

/-- Id, device, start, seal and version of a window stay, and the delivery is added to the applied
    ones. -/
theorem fold_frame {settings : IngestSettings} {r : Reading α} {buckets : Option (Buckets α)}
    {w w' : WindowView g α} (h : w.fold settings r buckets = .ok w') :
    SameFrame (w.noted r) w' := by
  rw [fold_eq] at h
  split at h
  · cases h
  · next inside _ =>
    cases hm : (w.rained settings buckets).metered r inside with
    | error e =>
      rw [hm] at h
      cases h
    | ok folded =>
      rw [hm] at h
      cases h
      have hf := (rained_frame settings buckets w).trans (metered_frame hm)
      exact ⟨hf.id, hf.device, hf.start, congrArg (·.add r.sourceId) hf.applied, hf.isSealed,
        hf.version⟩

/-- A window that a reading was folded into has seen what it had seen before, and the reading. -/
theorem contains_of_fold {settings : IngestSettings} {r : Reading α} {buckets : Option (Buckets α)}
    {w w' : WindowView g α} (h : w.fold settings r buckets = .ok w') (id : String) :
    w'.applied.contains id = true ↔ id = r.sourceId ∨ w.applied.contains id = true := by
  have happlied : w'.applied = w.applied.add r.sourceId := (fold_frame h).applied
  rw [happlied]
  by_cases hid : id = r.sourceId
  · simp [hid]
  · rw [SortedSet.contains_add_ne _ hid]
    simp [hid]

/-! ## Versions -/

theorem addMetric_setVersion (hour : UInt32) (w : WindowView g α) (v : Metric × α)
    (t : Option Version) :
    (w.setVersion t).addMetric hour v = (w.addMetric hour v).map (setVersion t) := by
  simp only [addMetric, setVersion, bind, Except.bind]
  cases addValue v.2 (w.tallies.get v.1) with
  | error e => rfl
  | ok tally =>
    simp only
    cases addDetail v.1 hour v.2 g w.detail <;> rfl

/-- A change that metrics do not look at. -/
theorem metered_map {m : WindowView g α → WindowView g α}
    (hm : ∀ hour w v, (m w).addMetric hour v = (w.addMetric hour v).map m) (r : Reading α)
    (inside : Bool) (w : WindowView g α) :
    (m w).metered r inside = (w.metered r inside).map m := by
  rw [metered, metered]
  split
  · exact foldlM_map (fun w v => hm _ w v) w
  · rfl

theorem metered_setVersion (r : Reading α) (inside : Bool) (w : WindowView g α)
    (t : Option Version) :
    (w.setVersion t).metered r inside = (w.metered r inside).map (setVersion t) :=
  metered_map (fun hour w v => addMetric_setVersion hour w v t) r inside w

theorem rained_setVersion (settings : IngestSettings) (buckets : Option (Buckets α))
    (w : WindowView g α) (t : Option Version) :
    (w.setVersion t).rained settings buckets = (w.rained settings buckets).setVersion t := by
  cases buckets <;> rfl

/-- Folding does not look at versions. -/
theorem fold_setVersion (settings : IngestSettings) (r : Reading α) (buckets : Option (Buckets α))
    (w : WindowView g α) (t : Option Version) :
    (w.setVersion t).fold settings r buckets =
      (w.fold settings r buckets).map (setVersion t) := by
  rw [fold_eq, fold_eq, show (w.setVersion t).contains r.time = w.contains r.time from rfl]
  cases w.contains r.time with
  | error o => rfl
  | ok inside =>
    simp only [rained_setVersion, metered_setVersion]
    cases (w.rained settings buckets).metered r inside <;> rfl

end WindowView

/-! ## Windows as views -/

namespace View

theorem key_ofWindow (w : WindowView g α) : (ofWindow w).key = w.id.key := by cases g <;> rfl

theorem version_ofWindow (w : WindowView g α) : (ofWindow w).version = w.version := by
  cases g <;> rfl

theorem ofWindow_withVersion (w : WindowView g α) (t : Option Version) :
    (ofWindow w).withVersion t = ofWindow (w.setVersion t) := by cases g <;> rfl

theorem ofWindow_inj {g' : Granularity} {w : WindowView g α} {w' : WindowView g' α}
    (h : ofWindow w = ofWindow w') : g = g' ∧ w ≍ w' := by
  cases g <;> cases g' <;> cases h <;> exact ⟨rfl, .rfl⟩

theorem eq_ofWindow_of_window? {v : View α} {w : WindowView g α} (h : v.window? g = some w) :
    v = ofWindow w := by
  cases g <;> cases v <;> simp only [window?] at h <;> cases h <;> rfl

theorem bind_daily?_eq_some {v : Option (View α)} {d : DailyView α} :
    v.bind daily? = some d ↔ v = some (.daily d) := by
  constructor
  · intro h
    obtain ⟨u, rfl, hu⟩ := Option.bind_eq_some_iff.1 h
    rw [eq_ofWindow_of_window? hu]
    rfl
  · rintro rfl
    rfl

end View

end WeatherStation
