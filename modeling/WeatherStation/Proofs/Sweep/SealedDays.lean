import WeatherStation.Proofs.Exact
import WeatherStation.Proofs.Sweep.Exclusive
import WeatherStation.Proofs.Sweep.Overlap
import WeatherStation.Proofs.Traffic.Moves

/-!
# Sealed days and their weeks

Any number of readings and sweeps work on one store, and their requests come in any order. The week
of a sealed day is always there. As long as sweeps do not overlap, the week agrees with the day.
When they do, it holds the summaries of a state in which the day was written, which need not be the
last one.

Results:
* `Job.safe_shared`, `Job.safe_alone`: readings and sweeps keep their terms.
* `Sweep.sealed_days`: the weeks of sealed days.
* `Sweep.late_reading_missing`: two sweeps that overlap, and a week without the last reading.
-/

namespace WeatherStation

/-- A client of the store. -/
inductive Job (α : Type) where
  | reading (settings : IngestSettings) (r : Reading α)
  | sweep (settings : SweepSettings) (schedule : Rollup.Schedule α (Except RollupError String))
    (weaves : ∀ ps, Program.Weave ps (schedule ps)) (limit : ℕ) (lookbackHours : UInt32)

namespace Job

variable {ι α : Type}

/-- Whether the client is a sweep. -/
def isSweep : Job α → Bool
  | reading .. => false
  | sweep .. => true

/-- A sweep whose weeks take turns. -/
def takingTurns (settings : SweepSettings) (limit : ℕ) : Job α :=
  .sweep settings (Rollup.turns settings)
    (fun _ => Program.Weave.together _ _) limit settings.lookbackHours

variable [Quantity α]

/-- What a client does. Nobody looks at the result. -/
def program : Job α → Program α Unit
  | reading settings r => do let _ ← (Ingest.apply settings r).run
  | sweep settings schedule _ limit lookbackHours => do
    let _ ← (Sweep.execute settings schedule limit lookbackHours).run

/-- The terms of a client, where sweeps do not overlap. -/
def terms (i : ι) : Job α → Terms ι α
  | reading .. => Sweep.readingTerms History.InWeek i
  | sweep .. => Sweep.sweepTerms History.InWeek i

@[simp]
theorem faulty_terms (i : ι) (job : Job α) : (job.terms i).faulty := by
  cases job <;> exact trivial

theorem safe_shared (i : ι) (job : Job α) (h : History ι α) :
    job.program.Safe (Sweep.sharedTerms i) (fun _ _ => True) h := by
  cases job with
  | reading settings r =>
    exact (Sweep.apply_safe_shared i settings r h).bind fun _ _ _ _ _ _ _ => trivial
  | sweep settings schedule weaves limit lookbackHours =>
    exact (Sweep.execute_safe_shared i settings weaves limit lookbackHours h).bind
      fun _ _ _ _ _ _ _ => trivial

theorem safe_alone (i : ι) (job : Job α) (h : History ι α) :
    job.program.Safe (job.terms i) (fun _ _ => True) h := by
  cases job with
  | reading settings r =>
    exact (Sweep.apply_safe_alone Sweep.followsWeek_inWeek i settings r h).bind
      fun _ _ _ _ _ _ _ => trivial
  | sweep settings schedule weaves limit lookbackHours =>
    exact (Sweep.execute_safe_alone Sweep.followsWeek_inWeek i settings weaves limit lookbackHours
      h).bind
      fun _ _ _ _ _ _ _ => trivial

/-- Readings put up with everybody, and sweeps with readings. -/
theorem terms_fit {i j : ι} {job job' : Job α} (hs : ¬ (job.isSweep ∧ job'.isSweep))
    {h h' : History ι α} (hg : (job.terms i).grant h h') : (job'.terms j).rely h h' := by
  cases job with
  | reading => cases job' with
    | reading => exact hg.1
    | sweep => exact hg
  | sweep => cases job' with
    | reading => exact hg
    | sweep => exact absurd ⟨rfl, rfl⟩ hs

end Job

namespace Sweep

variable {ι α : Type} [DecidableEq ι] [Quantity α]

/-- Whenever a stored day is sealed, its week is stored and holds the summaries of a state in which
    the day was written; if the sweeps do not overlap, it is the state in which it is stored. -/
theorem sealed_days (jobs : ι → Job α) (moves : List (Move ι)) {key : String} {d : DailyView α} :
    let t := (Traffic.start fun i => (jobs i).program).run moves
    t.history.store.get? key = some (.daily d) → d.isSealed = true →
      (∃ c, t.history.ClosedFrom c ∧ c.device = d.device ∧ c.start.date = d.start.date ∧
        t.history.InWeek c ∧ (t.history.InWeek d ↔ c.SameSummaries d)) ∧
      (Traffic.Exclusive (fun i => (jobs i).isSweep) moves → t.history.InWeek d) := by
  intro t hd hsealed
  have hshared := Traffic.run_safe (T := sharedTerms) (fun _ _ _ => True)
    (t := .start fun i => (jobs i).program) (fun _ => rfl) (fun _ => rfl)
    (fun _ _ _ _ _ hg => hg) History.rolledUp_empty (fun i => (jobs i).safe_shared i _) moves
  refine ⟨?_, fun he => ?_⟩
  · obtain ⟨c, hc, hdevice, hdate, hin⟩ := hshared.1.sealed_days hd hsealed
    exact ⟨c, hc, hdevice, hdate, hin, hin.iff_sameSummaries hdevice hdate⟩
  have hinv (i : ι) : ((jobs i).terms i).inv = History.RolledUp History.InWeek := by
    cases jobs i <;> rfl
  have halone := Traffic.run_safe_exclusive (T := fun i => (jobs i).terms i) (fun _ _ _ => True)
    (fun i => by cases jobs i <;> rfl) hinv (fun i j _ _ _ hs hg => Job.terms_fit hs hg)
    History.rolledUp_empty (fun i h => (jobs i).safe_alone i h) he
  exact halone.1.sealed_days hd hsealed

/-- A reading of 11 September 2025, 15:00. -/
def reading (source : String) (temperature : ℚ) : Reading ℚ where
  device := "dev"
  source := some source
  time := (Instant.ofSeconds? 1757602800).get (by decide)
  values := ⟨some temperature, none, none⟩
  rain := none

/-- Clients that move two days later. The store answers every call. -/
def twoDaysLater {ι : Type} (clients : List ι) : List (Move ι) :=
  clients.map fun i => ⟨i, .ok ((Instant.ofSeconds? 1757743200).get (by decide)), none⟩

/-- A reading and two sweeps, one after the other. -/
theorem sealed_days_in_order :
    let jobs : Fin 3 → Job ℚ := ![.reading .standard (reading "first" 10),
      .takingTurns .standard 1, .takingTurns .standard 1]
    let t := (Traffic.start fun i => (jobs i).program).run
      (twoDaysLater [0, 0, 0, 0, 0, 1, 1, 1, 1, 1, 1, 2, 2, 2])
    ∃ d, t.history.store.get? "dev|daily|2025-09-11" = some (.daily d) ∧ d.isSealed = true ∧
      t.history.InWeek d := by
  intro jobs t
  have hday : ((t.history.store.get? "dev|daily|2025-09-11").bind View.daily?).map
      (fun d => d.isSealed) = some true := by decide +kernel
  obtain ⟨d, hd, hsealed⟩ := Option.map_eq_some_iff.1 hday
  obtain ⟨v, hv, hvd⟩ := Option.bind_eq_some_iff.1 hd
  rw [View.eq_ofWindow_of_window? hvd] at hv
  exact ⟨d, hv, hsealed, (sealed_days jobs _ hv hsealed).2 (by decide +kernel)⟩

/-- The first sweep reads the day before the second reading comes, and writes the week after the
    second sweep has written it. The second sweep seals the day, with both readings. -/
theorem late_reading_missing :
    let jobs : Fin 4 → Job ℚ := ![.reading .standard (reading "first" 10),
      .reading .standard (reading "second" 30), .takingTurns .standard 1,
      .takingTurns .standard 1]
    let t := (Traffic.start fun i => (jobs i).program).run
      (twoDaysLater [0, 0, 0, 0, 0, 2, 2, 2, 1, 1, 1, 1, 1, 3, 3, 3, 3, 3, 2, 2, 2, 3])
    ∃ d, t.history.store.get? "dev|daily|2025-09-11" = some (.daily d) ∧ d.isSealed = true ∧
      ¬ t.history.InWeek d := by
  intro jobs t
  have hday : ((t.history.store.get? "dev|daily|2025-09-11").bind View.daily?).map
      (fun d => (d.isSealed, d.tallies.get .temperature, d.weekKey,
        WeeklyView.place d.start.date)) =
      some (true, some (.closed ⟨10, 30, 20⟩), "dev|weekly|2025-W37", 3) := by decide +kernel
  have hweek : ((t.history.store.get? "dev|weekly|2025-W37").bind (View.ofKind? .weekly)).map
      (fun w => (w.metrics.get .temperature).days.get 3) = some (some ⟨10, 10, 10⟩) := by
    decide +kernel
  obtain ⟨d, hd, hfacts⟩ := Option.map_eq_some_iff.1 hday
  obtain ⟨v, hv, hvd⟩ := Option.bind_eq_some_iff.1 hd
  rw [View.eq_ofWindow_of_window? hvd] at hv
  simp only [Prod.mk.injEq] at hfacts
  obtain ⟨hsealed, htally, hkey, hplace⟩ := hfacts
  refine ⟨d, hv, hsealed, ?_⟩
  rintro ⟨w, hw, hagrees, -⟩
  rw [hkey] at hw
  rw [hw] at hweek
  have hslot : (w.metrics.get .temperature).days.get 3 = some ⟨10, 10, 10⟩ :=
    Option.some_inj.1 hweek
  have hsummary := hagrees .temperature
  rw [htally, hplace] at hsummary
  have hsummary : (w.metrics.get .temperature).days.get 3 = some ⟨10, 30, 20⟩ :=
    (Except.ok.inj hsummary).symm
  rw [hsummary] at hslot
  exact absurd hslot (by decide)

end Sweep

end WeatherStation
