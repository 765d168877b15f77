import WeatherStation.Proofs.Commuting
import WeatherStation.Proofs.Exact
import WeatherStation.Proofs.View.Rain
import WeatherStation.Proofs.View.Sealed

/-!
# Readings in any order

Over the rationals a window does not depend on the order in which readings are folded in: values go
into tallies one by one, rain goes into slots one by one, and within a tally or a slot their order
does not matter.

Results:
* `Tally.addValue_comm`: two values of one tally.
* `RainWindow.merge_comm`: the rain of two readings.
* `WindowView.commuting_take`: two readings.
* `WindowView.foldlM_take_perm`: many readings.
* `WindowView.take_of_subperm`: one of many readings.
-/

namespace WeatherStation

/-! ## Tallies -/

/-- Two values go into a tally in any order. -/
theorem Tally.addValue_comm (x y : ℚ) (t : Option (Tally ℚ)) :
    WindowView.addValue x t >>= (fun t => WindowView.addValue y (some t)) =
      WindowView.addValue y t >>= fun t => WindowView.addValue x (some t) := by
  rcases t with _ | ⟨sum, count, min, max⟩ | s
  · change (single x).add y = (single y).add x
    simp only [single, add, Quantity.lesser_rat, Quantity.greater_rat, min_comm x, max_comm x]
    rw [show x + y = y + x from add_comm x y]
  · simp only [WindowView.addValue, add]
    split_ifs with hroom
    · simp only [bind, Except.bind, Quantity.lesser_rat, Quantity.greater_rat]
      rw [show sum + x + y = sum + y + x from add_right_comm sum x y, min_right_comm,
        max_right_comm]
    · rfl
  · rfl

namespace WindowView

variable {α : Type} {g : Granularity}

/-- The tally of a metric. -/
def tallyCell (m : Metric) : Cell (WindowView g α) (Tally α) where
  get w := w.tallies.get m
  set w t := { w with tallies := w.tallies.set m (some t) }
  get_set _ _ := PerMetric.get_set_self _ _ _
  set_set w t u := by simp only [PerMetric.set_set]

/-- The tally of a metric in an hour of a day. -/
def hourCell (m : Metric) (hour : UInt32) : Cell (DailyView α) (Tally α) where
  get d := d.tally? (m, some hour)
  set d t := d.setTally t (m, some hour)
  get_set d t := d.tally?_setTally_self t (m, some hour)
  set_set d t u := d.setTally_setTally_self t u (m, some hour)

/-- The tallies that a value of a metric goes into. -/
def cells (m : Metric) (hour : UInt32) : (g : Granularity) → List (Cell (WindowView g α) (Tally α))
  | .hourly => [tallyCell m]
  | .daily => [tallyCell m, hourCell m hour]

theorem tallyCell_apart {m k : Metric} (h : k ≠ m) :
    (tallyCell m : Cell (WindowView g α) (Tally α)).Apart (tallyCell k) where
  get_set w t := PerMetric.get_set_ne _ h _
  get_set' w t := PerMetric.get_set_ne _ h.symm _
  set_comm w t u := by simp only [tallyCell, PerMetric.set_comm _ h]

theorem hourCell_apart {m k : Metric} {hour hour' : UInt32} (h : (k, hour') ≠ (m, hour)) :
    (hourCell m hour : Cell (DailyView α) (Tally α)).Apart (hourCell k hour') := by
  have hne : (k, some hour') ≠ (m, some hour) := by simpa using h
  exact ⟨fun d t => d.tally?_setTally_ne t hne, fun d t => d.tally?_setTally_ne t hne.symm,
    fun d t u => d.setTally_comm t u hne⟩

theorem tallyCell_apart_hourCell (m k : Metric) (hour : UInt32) :
    (tallyCell m : Cell (DailyView α) (Tally α)).Apart (hourCell k hour) :=
  ⟨fun _ _ => rfl, fun _ _ => rfl, fun _ _ _ => rfl⟩

theorem cells_apart {m k : Metric} {hour hour' : UInt32} {p q : Cell (WindowView g α) (Tally α)}
    (hp : p ∈ cells m hour g) (hq : q ∈ cells k hour' g) : p = q ∨ p.Apart q := by
  have htallies : (tallyCell m : Cell (WindowView g α) (Tally α)) = tallyCell k ∨
      (tallyCell m : Cell (WindowView g α) (Tally α)).Apart (tallyCell k) := by
    by_cases hk : k = m
    · exact .inl (by rw [hk])
    · exact .inr (tallyCell_apart hk)
  cases g with
  | hourly =>
    rw [List.mem_singleton.1 hp, List.mem_singleton.1 hq]
    exact htallies
  | daily =>
    simp only [cells, List.mem_cons, List.not_mem_nil, or_false] at hp hq
    rcases hp with rfl | rfl <;> rcases hq with rfl | rfl
    · exact htallies
    · exact .inr (tallyCell_apart_hourCell m k hour')
    · exact .inr (tallyCell_apart_hourCell k m hour).symm
    · by_cases hk : (k, hour') = (m, hour)
      · cases hk
        exact .inl rfl
      · exact .inr (hourCell_apart hk)

/-- A value goes into its tallies, one after the other. -/
theorem addMetric_eq_foldlM [Quantity α] (hour : UInt32) (w : WindowView g α) (v : Metric × α) :
    w.addMetric hour v = (cells v.1 hour g).foldlM (fun w p => p.fill (addValue v.2) w) w := by
  cases g with
  | hourly =>
    change w.addMetric hour v = (addValue v.2 (w.tallies.get v.1)).map _ >>= pure
    simp only [addMetric]
    cases addValue v.2 (w.tallies.get v.1) <;> rfl
  | daily =>
    change w.addMetric hour v = (addValue v.2 (w.tallies.get v.1)).map _ >>= fun w =>
      (addValue v.2 (DailyView.tally? w (v.1, some hour))).map _ >>= pure
    simp only [addMetric, addDetail]
    cases addValue v.2 (w.tallies.get v.1) with
    | error e => rfl
    | ok t =>
      change _ = (addValue v.2 (DailyView.tally? w (v.1, some hour))).map _ >>= pure
      simp only [DailyView.tally?, DailyView.hours]
      cases addValue v.2 (((PerMetric.get w.detail v.1).getD SortedMap.empty).find? hour) <;> rfl

/-- Values of any metrics. -/
theorem commuting_addMetric (hour hour' : UInt32) (v v' : Metric × ℚ) :
    Commuting (fun w : WindowView g ℚ => w.addMetric hour v) fun w => w.addMetric hour' v' := by
  simp only [addMetric_eq_foldlM]
  refine Commuting.foldlM fun q hq => (Commuting.foldlM fun p hp => ?_).symm
  rcases cells_apart hp hq with rfl | hapart
  · exact p.commuting fun t => Tally.addValue_comm v'.2 v.2 t
  · exact (hapart.commuting _ _).symm

end WindowView

/-! ## Rain -/

theorem MergeMode.join_comm (mode : MergeMode) (v x y : ℚ) :
    mode.join (mode.join v x) y = mode.join (mode.join v y) x := by
  cases mode with
  | sum => exact add_right_comm v x y
  | max => simp only [join, Quantity.greater_rat, max_right_comm]

namespace RainWindow

/-- The rain of two buckets. -/
theorem mergeBucket_comm (mode : MergeMode) (w : RainWindow ℚ) (x y : Instant × ℚ) :
    (w.mergeBucket mode x).mergeBucket mode y = (w.mergeBucket mode y).mergeBucket mode x := by
  refine foldl_mergeBucket_ext (l := [x, y]) (k := [y, x]) fun j v => ?_
  simp only [List.filter_cons, List.filter_nil, decide_eq_true_eq]
  split_ifs
  · exact mode.join_comm v x.2 y.2
  all_goals rfl

/-- The rain of two readings. -/
theorem merge_comm (mode : MergeMode) (w : RainWindow ℚ) (x y : Buckets ℚ) :
    (w.merge mode x).merge mode y = (w.merge mode y).merge mode x := by
  rw [merge_merge, merge_merge]
  split_ifs
  · rfl
  · exact List.perm_append_comm.foldl_eq' (fun u _ v _ w => mergeBucket_comm mode w u v) w

end RainWindow

/-! ## Readings -/

namespace WindowView

variable {g : Granularity} {settings : IngestSettings}

theorem rained_comm (b b' : Option (Buckets ℚ)) (w : WindowView g ℚ) :
    (w.rained settings b).rained settings b' = (w.rained settings b').rained settings b := by
  cases b with
  | none => rfl
  | some x =>
    cases b' with
    | none => rfl
    | some y =>
      change { w with rain := some (RainWindow.merge _ (RainWindow.merge _ _ x) y) } =
        { w with rain := some (RainWindow.merge _ (RainWindow.merge _ _ y) x) }
      rw [RainWindow.merge_comm]

/-- Metrics do not look at rain. -/
theorem addMetric_rained (b : Option (Buckets ℚ)) (hour : UInt32) (w : WindowView g ℚ)
    (v : Metric × ℚ) :
    (w.rained settings b).addMetric hour v = (w.addMetric hour v).map (rained settings b) := by
  cases b with
  | none =>
    change w.addMetric hour v = (w.addMetric hour v).map fun w => w
    cases w.addMetric hour v <;> rfl
  | some x =>
    simp only [addMetric, rained, Option.map_some, Option.getD_some, addRain, bind, Except.bind]
    cases addValue v.2 (w.tallies.get v.1) with
    | error e => rfl
    | ok tally =>
      simp only
      cases addDetail v.1 hour v.2 g w.detail <;> rfl

/-- Metrics do not look at deliveries. -/
theorem addMetric_noted (r : Reading ℚ) (hour : UInt32) (w : WindowView g ℚ) (v : Metric × ℚ) :
    (w.noted r).addMetric hour v = (w.addMetric hour v).map (noted r) := by
  simp only [addMetric, noted, bind, Except.bind]
  cases addValue v.2 (w.tallies.get v.1) with
  | error e => rfl
  | ok tally =>
    simp only
    cases addDetail v.1 hour v.2 g w.detail <;> rfl

/-- The metrics of a reading, if the window contains it. -/
def measured (r : Reading ℚ) (w : WindowView g ℚ) : Except (Failure TallyError) (WindowView g ℚ) :=
  (w.contains r.time).mapError .overflow >>= fun inside => w.metered r inside

/-- What folding a reading in does: rain first, then the metrics, then the name of the delivery. -/
def steps (settings : IngestSettings) (r : Reading ℚ) (b : Option (Buckets ℚ)) :
    List (WindowView g ℚ → Except (Failure TallyError) (WindowView g ℚ)) :=
  [fun w => .ok (w.rained settings b), measured r, fun w => .ok (w.noted r)]

theorem fold_eq_foldlM (r : Reading ℚ) (b : Option (Buckets ℚ)) (w : WindowView g ℚ) :
    w.fold settings r b = (steps settings r b).foldlM (fun w step => step w) w := by
  have hcontains : (w.rained settings b).contains r.time = w.contains r.time := by
    rw [contains, contains, (rained_frame settings b w).start]
  rw [fold_eq]
  change _ = (w.rained settings b).measured r >>= fun w => .ok (w.noted r)
  rw [measured, hcontains]
  cases w.contains r.time with
  | error o => rfl
  | ok inside =>
    change ((w.rained settings b).metered r inside).map (noted r) =
      (w.rained settings b).metered r inside >>= fun w => .ok (w.noted r)
    cases (w.rained settings b).metered r inside <;> rfl

theorem measured_frame {r : Reading ℚ} {w w' : WindowView g ℚ} (h : w.measured r = .ok w') :
    SameFrame w w' := by
  obtain ⟨inside, -, h⟩ := bind_eq_ok.1 h
  exact metered_frame h

/-- A change of something that metrics do not look at, other than the start of the window. -/
theorem measured_map {m : WindowView g ℚ → WindowView g ℚ} (hstart : ∀ w, (m w).start = w.start)
    (hm : ∀ hour w v, (m w).addMetric hour v = (w.addMetric hour v).map m) (r : Reading ℚ)
    (w : WindowView g ℚ) : (m w).measured r = (w.measured r).map m := by
  have hcontains : (m w).contains r.time = w.contains r.time := by
    rw [contains, contains, hstart]
  rw [measured, measured, hcontains]
  cases w.contains r.time with
  | error o => rfl
  | ok inside => exact metered_map hm r inside w

theorem commuting_metered (r r' : Reading ℚ) (inside inside' : Bool) :
    Commuting (metered (g := g) r inside) (metered r' inside') := by
  cases inside with
  | false => exact .of_pure _
  | true =>
    cases inside' with
    | false => exact (Commuting.of_pure _).symm
    | true =>
      exact Commuting.foldlM fun v' _ => (Commuting.foldlM fun v _ =>
        commuting_addMetric _ _ v' v).symm

/-- The metrics of two readings. -/
theorem commuting_measured (r r' : Reading ℚ) :
    Commuting (measured (g := g) r) (measured r') := by
  have hstart (r : Reading ℚ) {w w' : WindowView g ℚ} (hw : w'.start = w.start) :
      (w'.contains r.time).mapError Failure.overflow =
        (w.contains r.time).mapError (@Failure.overflow TallyError) := by
    rw [contains, contains, hw]
  refine Commuting.guard (fun w w' h => hstart r (measured_frame h).start) fun inside => ?_
  exact (Commuting.guard (fun w w' h => hstart r' (metered_frame h).start) fun inside' =>
    commuting_metered r' r inside' inside).symm

/-- Two readings with their rain. -/
theorem commuting_fold (r r' : Reading ℚ) (b b' : Option (Buckets ℚ)) :
    Commuting (fun w : WindowView g ℚ => w.fold settings r b) fun w => w.fold settings r' b' := by
  have hrained (b : Option (Buckets ℚ)) (r : Reading ℚ) :
      Commuting (fun w : WindowView g ℚ => .ok (w.rained settings b)) (measured r) :=
    .of_map fun w => measured_map (fun w => (rained_frame settings b w).start)
      (addMetric_rained b) r w
  have hnoted (r r' : Reading ℚ) :
      Commuting (fun w : WindowView g ℚ => .ok (w.noted r)) (measured r') :=
    .of_map fun w => measured_map (m := noted r) (fun _ => rfl) (addMetric_noted r) r' w
  have hboth (b : Option (Buckets ℚ)) (r : Reading ℚ) :
      Commuting (fun w : WindowView g ℚ => @Except.ok (Failure TallyError) _ (w.rained settings b))
        fun w => .ok (w.noted r) := .of_comm fun w => by cases b <;> rfl
  simp only [fold_eq_foldlM]
  refine Commuting.foldlM fun q hq => (Commuting.foldlM fun p hp => ?_).symm
  simp only [steps, List.mem_cons, List.not_mem_nil, or_false] at hp hq
  rcases hp with rfl | rfl | rfl <;> rcases hq with rfl | rfl | rfl
  · exact .of_comm fun w => rained_comm b' b w
  · exact (hrained b r').symm
  · exact (hboth b r').symm
  · exact hrained b' r
  · exact commuting_measured r' r
  · exact hnoted r' r
  · exact hboth b' r
  · exact (hnoted r r').symm
  · exact .of_comm fun w => congrArg (fun applied => { w with applied := applied })
      (SortedSet.add_comm w.applied r'.sourceId r.sourceId)

/-- Two readings. -/
theorem commuting_take (r r' : Reading ℚ) :
    Commuting (fun w : WindowView g ℚ => w.take settings r) fun w => w.take settings r' := by
  have hmapped (b b' : Option (Buckets ℚ)) : Commuting
      (fun w : WindowView g ℚ => (w.fold settings r b).mapError (Failure.map IngestError.tally))
      fun w => (w.fold settings r' b').mapError (Failure.map IngestError.tally) :=
    (commuting_fold r r' b b').of_eq_ok (fun _ _ => mapError_eq_ok_iff)
      fun _ _ => mapError_eq_ok_iff
  exact Commuting.guard (fun _ _ _ => rfl) fun b =>
    (Commuting.guard (fun _ _ _ => rfl) fun b' => (hmapped b b').symm).symm

/-- Readings can be folded in in any order. -/
theorem foldlM_take_perm {rs rs' : List (Reading ℚ)} (hp : rs.Perm rs') (w w' : WindowView g ℚ) :
    rs.foldlM (take settings) w = .ok w' ↔ rs'.foldlM (take settings) w = .ok w' :=
  foldlM_perm commuting_take hp w w'

/-- A reading that is folded in with others can be folded in before some of them. -/
theorem take_of_subperm {us rs : List (Reading ℚ)} {r : Reading ℚ} (hsub : (us ++ [r]).Subperm rs)
    {w₀ w full : WindowView g ℚ} (hus : us.foldlM (take settings) w₀ = .ok w)
    (hrs : rs.foldlM (take settings) w₀ = .ok full) : ∃ w', w.take settings r = .ok w' := by
  obtain ⟨first, hfirst, hsublist⟩ := hsub
  obtain ⟨rest, hrest⟩ := hsublist.exists_perm_append
  rw [foldlM_take_perm (hrest.trans (hfirst.append_right rest)), List.foldlM_append,
    List.foldlM_append, hus] at hrs
  obtain ⟨w', hlast, -⟩ := bind_eq_ok.1 hrs
  change w.take settings r >>= pure = .ok w' at hlast
  rw [bind_pure] at hlast
  exact ⟨w', hlast⟩

end WindowView

end WeatherStation
