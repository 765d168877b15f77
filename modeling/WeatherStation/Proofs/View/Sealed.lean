import WeatherStation.Proofs.SortedMap
import WeatherStation.Proofs.View.Fold
import WeatherStation.Proofs.View.Weeks

/-!
# What closing does to a day

Closing a day goes through its tallies, those of its hours last, and puts the closed form of each in
its place. It fails if there is a tally that cannot be closed, and changes nothing else about the
day.

Results:
* `DailyView.tally?`: the tallies of a day, by metric and hour.
* `DailyView.outcome_closeAt`: one tally is closed.
* `DailyView.closes_forM_closeAt`: some tallies are closed, and the others stay.
* `DailyView.SealedAs`, `DailyView.sealedAs_of_close`: a closed day.
* `DailyView.exists_close`: a day whose tallies can be closed can be closed.
* `DailyView.close_setVersion`: closing does not look at versions.
-/

namespace WeatherStation

variable {α : Type} [Quantity α]

namespace PerMetric

variable {β : Type}

theorem set_set (f : PerMetric β) (m : Metric) (b c : β) : (f.set m b).set m c = f.set m c := by
  cases m <;> rfl

theorem set_comm (f : PerMetric β) {m k : Metric} (h : k ≠ m) (b c : β) :
    (f.set m b).set k c = (f.set k c).set m b := by
  cases m <;> cases k <;> first | rfl | exact absurd rfl h

end PerMetric

/-- The closed form of a tally: its extremes and its average. -/
def Tally.Closes (t c : Tally α) : Prop :=
  ∃ avg, t.average = .ok avg ∧ c = .closed ⟨t.min, t.max, avg⟩

theorem Tally.closes_of_close {t c : Tally α} (h : t.close = .ok c) : t.Closes c := by
  cases t with
  | closed s => cases h
  | active sum count min max =>
    simp only [close, summary] at h
    cases havg : (Tally.active sum count min max).average with
    | error e =>
      rw [havg] at h
      cases h
    | ok avg =>
      rw [havg] at h
      cases h
      exact ⟨avg, havg, rfl⟩

namespace DailyView

/-! ## One tally -/

/-- The tally of a metric on the whole day, or in one of its hours. -/
def tally? (d : DailyView α) : Metric × Option UInt32 → Option (Tally α)
  | (m, none) => d.tallies.get m
  | (m, some hour) => (d.hours m).find? hour

/-- The day with another tally. -/
def setTally (d : DailyView α) (t : Tally α) : Metric × Option UInt32 → DailyView α
  | (m, none) => { d with tallies := d.tallies.set m (some t) }
  | (m, some hour) =>
    { d with detail := PerMetric.set d.detail m (some ((d.hours m).insert hour t)) }

/-- Closes one of the tallies of a day. -/
def closeAt : Metric × Option UInt32 → Revision TallyError (DailyView α) Unit
  | (m, none) => closeTally m
  | (m, some hour) => closeHour m hour

omit [Quantity α] in
theorem hours_setDetail_self (d : DailyView α) (m : Metric) (hours : HourTallies α) :
    DailyView.hours { d with detail := PerMetric.set d.detail m (some hours) } m = hours := by
  simp [DailyView.hours]

omit [Quantity α] in
theorem hours_setDetail_ne (d : DailyView α) {m k : Metric} (hk : k ≠ m) (hours : HourTallies α) :
    DailyView.hours { d with detail := PerMetric.set d.detail m (some hours) } k = d.hours k := by
  simp [DailyView.hours, PerMetric.get_set_ne _ hk]

omit [Quantity α] in
@[simp] theorem tally?_setTally_self (d : DailyView α) (t : Tally α)
    (p : Metric × Option UInt32) : (d.setTally t p).tally? p = some t := by
  obtain ⟨m, hour | hour⟩ := p
  · exact PerMetric.get_set_self _ _ _
  · simp only [tally?, setTally]
    rw [hours_setDetail_self, SortedMap.find?_insert_self]

omit [Quantity α] in
theorem tally?_setTally_ne (d : DailyView α) (t : Tally α) {p q : Metric × Option UInt32}
    (hq : q ≠ p) : (d.setTally t p).tally? q = d.tally? q := by
  obtain ⟨m, place⟩ := p
  obtain ⟨k, place'⟩ := q
  cases place with
  | none => cases place' with
    | none => exact PerMetric.get_set_ne _ (fun hk => hq (by rw [hk])) _
    | some hour' => rfl
  | some hour => cases place' with
    | none => rfl
    | some hour' =>
      simp only [tally?, setTally]
      by_cases hk : k = m
      · subst hk
        rw [hours_setDetail_self, SortedMap.find?_insert_ne _ fun hh => hq (by rw [hh])]
      · rw [hours_setDetail_ne d hk]

omit [Quantity α] in
theorem setTally_setTally_self (d : DailyView α) (t u : Tally α) (p : Metric × Option UInt32) :
    (d.setTally t p).setTally u p = d.setTally u p := by
  obtain ⟨m, hour | hour⟩ := p
  · simp only [setTally, PerMetric.set_set]
  · simp only [setTally, hours_setDetail_self, SortedMap.insert_insert_self, PerMetric.set_set]

omit [Quantity α] in
theorem setTally_comm (d : DailyView α) (t u : Tally α) {p q : Metric × Option UInt32}
    (hq : q ≠ p) : (d.setTally t p).setTally u q = (d.setTally u q).setTally t p := by
  obtain ⟨m, place⟩ := p
  obtain ⟨k, place'⟩ := q
  cases place with
  | none => cases place' with
    | none => simp only [setTally, PerMetric.set_comm _ fun hk : k = m => hq (by rw [hk])]
    | some hour' => rfl
  | some hour => cases place' with
    | none => rfl
    | some hour' =>
      simp only [setTally]
      by_cases hk : k = m
      · subst hk
        have hhour : hour ≠ hour' := fun hh => hq (by rw [hh])
        simp only [hours_setDetail_self, PerMetric.set_set, SortedMap.insert_comm _ hhour]
      · simp only [hours_setDetail_ne d hk, hours_setDetail_ne d (Ne.symm hk),
          PerMetric.set_comm _ hk]

/-- One tally is closed, if it is there and can be closed. -/
theorem outcome_closeAt (p : Metric × Option UInt32) (d : DailyView α) :
    (closeAt p).outcome d = match d.tally? p with
      | none => (.ok (), d)
      | some t => match t.close with
        | .ok c => (.ok (), d.setTally c p)
        | .error e => (.error e, d) := by
  have hbegin {f : DailyView α → Revision TallyError (DailyView α) Unit} :
      Revision.outcome (get >>= f) d = Revision.outcome (f d) d := by
    rw [Revision.outcome_bind]
    rfl
  obtain ⟨m, place⟩ := p
  cases place with
  | none =>
    rw [closeAt, closeTally, hbegin]
    simp only [tally?]
    cases d.tallies.get m with
    | none => rfl
    | some t =>
      dsimp only
      cases t.close <;> rfl
  | some hour =>
    rw [closeAt, closeHour, hbegin]
    simp only [tally?]
    cases (d.hours m).find? hour with
    | none => rfl
    | some t =>
      dsimp only
      cases t.close <;> rfl

/-! ## Some tallies -/

/-- Some tallies of a day were closed. The others are the same, and so is everything else. -/
structure ClosedIn (p : Metric × Option UInt32 → Prop) (d d' : DailyView α) : Prop where
  frame : d' = { d with tallies := d'.tallies, detail := d'.detail }
  closes : ∀ q, p q → Option.Rel Tally.Closes (d.tally? q) (d'.tally? q)
  same : ∀ q, ¬ p q → d'.tally? q = d.tally? q
  detail : ∀ m, (PerMetric.get d'.detail m).isSome = (PerMetric.get d.detail m).isSome

theorem closedIn_refl (d : DailyView α) : ClosedIn (fun _ => False) d d :=
  ⟨rfl, fun _ hq => hq.elim, fun _ _ => rfl, fun _ => rfl⟩

/-- Some tallies are closed, and then some others. -/
theorem ClosedIn.trans {p p' : Metric × Option UInt32 → Prop} {d d' d'' : DailyView α}
    (h : ClosedIn p d d') (h' : ClosedIn p' d' d'') (hp : ∀ q, p q → ¬ p' q) :
    ClosedIn (fun q => p q ∨ p' q) d d'' := by
  refine ⟨?_, fun q hq => ?_, fun q hq => ?_, fun m => (h'.detail m).trans (h.detail m)⟩
  · rw [h'.frame, h.frame]
  · rcases hq with hq | hq
    · rw [h'.same q (hp q hq)]
      exact h.closes q hq
    · rw [← h.same q fun hpq => hp q hpq hq]
      exact h'.closes q hq
  · rw [not_or] at hq
    exact (h'.same q hq.2).trans (h.same q hq.1)

theorem ClosedIn.congr {p p' : Metric × Option UInt32 → Prop} {d d' : DailyView α}
    (h : ClosedIn p d d') (hp : ∀ q, p q ↔ p' q) : ClosedIn p' d d' := by
  obtain rfl : p = p' := funext fun q => propext (hp q)
  exact h

theorem closedIn_closeAt {q : Metric × Option UInt32} {d d' : DailyView α}
    (h : (closeAt q).outcome d = (.ok (), d')) : ClosedIn (· = q) d d' := by
  rw [outcome_closeAt] at h
  cases ht : d.tally? q with
  | none =>
    rw [ht] at h
    cases h
    refine ⟨rfl, fun q' hq' => ?_, fun _ _ => rfl, fun _ => rfl⟩
    rw [hq', ht]
    exact .none
  | some t =>
    rw [ht] at h
    dsimp only at h
    cases hc : t.close with
    | error e =>
      rw [hc] at h
      cases h
    | ok c =>
      rw [hc] at h
      cases h
      refine ⟨?_, fun q' hq' => ?_, fun q' hq' => tally?_setTally_ne d c hq', fun m => ?_⟩
      · obtain ⟨m, hour | hour⟩ := q <;> rfl
      · rw [hq', ht, tally?_setTally_self]
        exact .some (Tally.closes_of_close hc)
      · obtain ⟨k, place⟩ := q
        cases place with
        | none => rfl
        | some hour =>
          by_cases hk : m = k
          · subst hk
            -- A metric with a tally in some hour has tallies of hours.
            have hsome : (PerMetric.get d.detail m).isSome = true := by
              simp only [tally?, hours] at ht
              cases hd : PerMetric.get d.detail m with
              | none =>
                rw [hd] at ht
                cases ht
              | some hours => rfl
            simp [setTally, hsome]
          · simp [setTally, PerMetric.get_set_ne _ hk]

theorem closedIn_forM_closeAt {qs : List (Metric × Option UInt32)} (hn : qs.Nodup)
    {d d' : DailyView α} (h : (qs.forM closeAt).outcome d = (.ok (), d')) :
    ClosedIn (· ∈ qs) d d' := by
  induction qs generalizing d with
  | nil =>
    cases h
    exact (closedIn_refl d').congr fun q => by simp
  | cons q qs ih =>
    obtain ⟨hq, hn⟩ := List.nodup_cons.1 hn
    obtain ⟨_, d₁, hd₁, h⟩ := Revision.outcome_bind_ok h
    refine ((closedIn_closeAt hd₁).trans (ih hn h) fun q' hq' hmem => ?_).congr
      fun q' => List.mem_cons.symm
    exact hq (hq' ▸ hmem)

/-- Tallies that can be closed are closed. -/
theorem exists_forM_closeAt {qs : List (Metric × Option UInt32)} (hn : qs.Nodup) {d : DailyView α}
    (hd : ∀ q ∈ qs, ∀ t, d.tally? q = some t → ∃ c, t.close = .ok c) :
    ∃ d', (qs.forM closeAt).outcome d = (.ok (), d') := by
  induction qs generalizing d with
  | nil => exact ⟨d, rfl⟩
  | cons q qs ih =>
    obtain ⟨hq, hn⟩ := List.nodup_cons.1 hn
    obtain ⟨d₁, hd₁⟩ : ∃ d₁, (closeAt q).outcome d = (.ok (), d₁) := by
      rw [outcome_closeAt]
      cases ht : d.tally? q with
      | none => exact ⟨d, rfl⟩
      | some t =>
        obtain ⟨c, hc⟩ := hd q List.mem_cons_self t ht
        exact ⟨d.setTally c q, by dsimp only; rw [hc]⟩
    have hsame := (closedIn_closeAt hd₁).same
    obtain ⟨d', hd'⟩ := ih hn (d := d₁) fun q' hq' t ht => by
      rw [hsame q' fun he => hq (he ▸ hq')] at ht
      exact hd q' (List.mem_cons_of_mem q hq') t ht
    refine ⟨d', ?_⟩
    show (closeAt q >>= fun _ => qs.forM closeAt).outcome d = _
    rw [Revision.outcome_bind, hd₁]
    exact hd'

/-! ## All tallies -/

/-- Where there is no tally, none has to be closed. -/
theorem ClosedIn.widen {p p' : Metric × Option UInt32 → Prop} {d d' : DailyView α}
    (h : ClosedIn p d d') (hp : ∀ q, p q → p' q) (hnone : ∀ q, p' q → ¬ p q → d.tally? q = none) :
    ClosedIn p' d d' := by
  refine ⟨h.frame, fun q hq => ?_, fun q hq => h.same q fun hpq => hq (hp q hpq), h.detail⟩
  by_cases hpq : p q
  · exact h.closes q hpq
  · rw [h.same q hpq, hnone q hq hpq]
    exact .none

/-- The tallies of the hours of a metric. -/
def hourTallies (d : DailyView α) (m : Metric) : List (Metric × Option UInt32) :=
  (d.hours m).keys.map fun hour => (m, some hour)

omit [Quantity α] in
theorem nodup_hourTallies (d : DailyView α) (m : Metric) : (d.hourTallies m).Nodup :=
  (SortedMap.nodup_keys _).map fun hour hour' he => by simpa using he

omit [Quantity α] in
theorem tally?_of_notMem_hourTallies {d : DailyView α} {m : Metric} {hour : UInt32}
    (h : (m, some hour) ∉ d.hourTallies m) : d.tally? (m, some hour) = none := by
  by_contra hne
  obtain ⟨t, ht⟩ := Option.ne_none_iff_exists'.1 hne
  exact h (List.mem_map.2 ⟨hour, SortedMap.mem_keys_iff.2 ⟨t, ht⟩, rfl⟩)

/-- Closes the tallies of the hours of a metric. -/
def closeHours (m : Metric) : Revision TallyError (DailyView α) Unit := do
  ((← get).hours m).keys.forM (closeHour m)

theorem outcome_closeHours (m : Metric) (d : DailyView α) :
    (closeHours m).outcome d = ((d.hourTallies m).forM closeAt).outcome d := by
  have hbegin : (closeHours m).outcome d =
      ((d.hours m).keys.forM (closeHour (α := α) m)).outcome d := by
    rw [closeHours, Revision.outcome_bind]
    rfl
  rw [hbegin, hourTallies]
  generalize (d.hours m).keys = keys
  congr 1
  induction keys with
  | nil => rfl
  | cons hour keys ih => exact congrArg (closeHour m hour >>= fun _ => ·) ih

theorem closedIn_closeHours {m : Metric} {d d' : DailyView α}
    (h : (closeHours m).outcome d = (.ok (), d')) :
    ClosedIn (fun q => q.1 = m ∧ q.2.isSome) d d' := by
  rw [outcome_closeHours] at h
  refine (closedIn_forM_closeAt (d.nodup_hourTallies m) h).widen (fun q hq => ?_)
    fun q hq hnot => ?_
  · obtain ⟨hour, -, rfl⟩ := List.mem_map.1 hq
    exact ⟨rfl, rfl⟩
  · obtain ⟨k, hour | hour⟩ := q
    · cases hq.2
    · obtain rfl : k = m := hq.1
      exact tally?_of_notMem_hourTallies hnot

theorem closedIn_forM_closeHours {ms : List Metric} (hn : ms.Nodup) {d d' : DailyView α}
    (h : (ms.forM closeHours).outcome d = (.ok (), d')) :
    ClosedIn (fun q => q.1 ∈ ms ∧ q.2.isSome) d d' := by
  induction ms generalizing d with
  | nil =>
    cases h
    exact (closedIn_refl d').congr fun q => by simp
  | cons m ms ih =>
    obtain ⟨hm, hn⟩ := List.nodup_cons.1 hn
    obtain ⟨_, d₁, hd₁, h⟩ := Revision.outcome_bind_ok h
    refine ((closedIn_closeHours hd₁).trans (ih hn h) fun q hq hmem => hm (hq.1 ▸ hmem.1)).congr
      fun q => ?_
    rw [List.mem_cons, or_and_right]

theorem exists_forM_closeHours {ms : List Metric} (hn : ms.Nodup) {d : DailyView α}
    (hd : ∀ m ∈ ms, ∀ hour t, d.tally? (m, some hour) = some t → ∃ c, t.close = .ok c) :
    ∃ d', (ms.forM closeHours).outcome d = (.ok (), d') := by
  induction ms generalizing d with
  | nil => exact ⟨d, rfl⟩
  | cons m ms ih =>
    obtain ⟨hm, hn⟩ := List.nodup_cons.1 hn
    obtain ⟨d₁, hd₁⟩ : ∃ d₁, (closeHours m).outcome d = (.ok (), d₁) := by
      rw [outcome_closeHours]
      refine exists_forM_closeAt (d.nodup_hourTallies m) fun q hq t ht => ?_
      obtain ⟨hour, -, rfl⟩ := List.mem_map.1 hq
      exact hd m List.mem_cons_self hour t ht
    have hsame := (closedIn_closeHours hd₁).same
    obtain ⟨d', hd'⟩ := ih hn (d := d₁) fun k hk hour t ht => by
      rw [hsame _ fun he => hm (he.1 ▸ hk)] at ht
      exact hd k (List.mem_cons_of_mem m hk) hour t ht
    refine ⟨d', ?_⟩
    show (closeHours m >>= fun _ => ms.forM closeHours).outcome d = _
    rw [Revision.outcome_bind, hd₁]
    exact hd'

/-- The tallies of the metrics on the whole day. -/
def wholeTallies : List (Metric × Option UInt32) := Metric.all.map fun m => (m, none)

theorem closeOpen_eq : closeOpen (α := α) = (do
    wholeTallies.forM closeAt
    Metric.all.forM closeHours
    modify fun d => { d with isSealed := true }) := rfl

theorem nodup_all : Metric.all.Nodup := by decide

theorem nodup_wholeTallies : wholeTallies.Nodup := by decide

/-- What closing makes of a day: every tally has its closed form, the day is sealed, and everything
    else is the same. -/
structure SealedAs (d c : DailyView α) : Prop where
  frame : c = { d with tallies := c.tallies, detail := c.detail, isSealed := true }
  closes : ∀ q, Option.Rel Tally.Closes (d.tally? q) (c.tally? q)
  detail : ∀ m, (PerMetric.get c.detail m).isSome = (PerMetric.get d.detail m).isSome

theorem mem_wholeTallies {q : Metric × Option UInt32} : q ∈ wholeTallies ↔ q.2 = none := by
  obtain ⟨m, place⟩ := q
  simp [wholeTallies, m.mem_all, eq_comm]

/-- A day that was closed. -/
theorem sealedAs_of_close {d c : DailyView α} (h : close.result d = .ok c) : d.SealedAs c := by
  rw [Revision.result_eq_ok, outcome_close] at h
  split_ifs at h
  · cases h
  rw [closeOpen_eq] at h
  obtain ⟨_, d₁, hd₁, h⟩ := Revision.outcome_bind_ok h
  obtain ⟨_, d₂, hd₂, h⟩ := Revision.outcome_bind_ok h
  cases h
  have hall : ClosedIn (fun _ => True) d d₂ := by
    refine ((closedIn_forM_closeAt nodup_wholeTallies hd₁).trans
      (closedIn_forM_closeHours nodup_all hd₂) fun q hq hhour => ?_).congr fun q => ?_
    · rw [mem_wholeTallies.1 hq] at hhour
      cases hhour.2
    · rw [mem_wholeTallies]
      cases hq : q.2 <;> simp [q.1.mem_all]
  refine ⟨?_, fun q => hall.closes q trivial, hall.detail⟩
  rw [hall.frame]

/-- A day that is open and whose tallies can be closed can be closed. -/
theorem exists_close {d : DailyView α} (hopen : d.isSealed = false)
    (hd : ∀ q t, d.tally? q = some t → ∃ c, t.close = .ok c) : ∃ c, close.result d = .ok c := by
  obtain ⟨d₁, hd₁⟩ := exists_forM_closeAt nodup_wholeTallies fun q _ => hd q
  have hsame := (closedIn_forM_closeAt nodup_wholeTallies hd₁).same
  obtain ⟨d₂, hd₂⟩ := exists_forM_closeHours nodup_all (d := d₁) fun m _ hour t ht => by
    rw [hsame _ fun hmem => by cases mem_wholeTallies.1 hmem] at ht
    exact hd _ t ht
  refine ⟨{ d₂ with isSealed := true }, ?_⟩
  rw [Revision.result_eq_ok, outcome_close, if_neg (by simp [hopen]), closeOpen_eq,
    Revision.outcome_bind, hd₁]
  dsimp only
  rw [Revision.outcome_bind, hd₂]
  rfl

/-! ## Versions -/

theorem commutes_closeAt (t : Option Version) (q : Metric × Option UInt32) :
    Revision.Commutes (WindowView.setVersion t) (closeAt (α := α) q) := by
  intro d
  have hsame : tally? (WindowView.setVersion t d) q = tally? d q := by
    obtain ⟨m, hour | hour⟩ := q <;> rfl
  rw [outcome_closeAt, outcome_closeAt, hsame]
  cases tally? d q with
  | none => rfl
  | some u =>
    dsimp only
    cases u.close with
    | error e => rfl
    | ok c => obtain ⟨m, hour | hour⟩ := q <;> rfl

/-- Closing a day does not look at versions. -/
theorem close_setVersion (d : DailyView α) (t : Option Version) :
    close.result (d.setVersion t) = (close.result d).map (WindowView.setVersion t) := by
  refine Revision.Commutes.result (fun d => ?_) d
  have hopen : Revision.Commutes (WindowView.setVersion t) (closeOpen (α := α)) := by
    rw [closeOpen_eq]
    refine (Revision.commutes_forM (commutes_closeAt t) _).bind fun _ =>
      (Revision.commutes_forM (fun m d => ?_) _).bind fun _ =>
        Revision.commutes_modify fun _ => rfl
    rw [outcome_closeHours, outcome_closeHours]
    exact Revision.commutes_forM (commutes_closeAt t) _ d
  rw [outcome_close, outcome_close]
  split_ifs with hs hs' hs'
  · rfl
  · exact absurd hs hs'
  · exact absurd hs' hs
  · exact hopen d

end DailyView

end WeatherStation
