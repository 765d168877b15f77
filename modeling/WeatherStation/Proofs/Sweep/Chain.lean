import WeatherStation.Proofs.Sweep.Finish
import WeatherStation.Proofs.Sweep.Interrupted

/-!
# Chains of sweeps

Sweeps up to one cutoff follow each other, with different settings, and most of them break off:
because of the time, or because the store refuses a call. Once one of them runs through, nothing
can be told from the store about those before: it is as if a single sweep had run through in the
beginning.

Results:
* `LoneSweep.run`: a sweep that has the store to itself.
* `LoneSweep.run_eq`: how a sweep begins.
* `LoneSweep.run_of_no_cutoff`: a sweep that fails at once.
* `LoneSweep.run_idle`: a sweep whose pages have no room for a day.
* `LoneSweep.midway_run`, `LoneSweep.finished_run`: what it leaves behind, and what it leaves behind
  and counts if it runs through.
* `LoneSweep.run_eq_of_swept`: when no days are left over, a sweep changes nothing.
* `LoneSweep.in_time_of_clock`: a sweep for which the time suffices.
* `LoneSweep.chained_sweeps`: the end of every chain of sweeps.
* `LoneSweep.broken_off_twice`: a week that is split across pages and sweeps.
-/

namespace WeatherStation

open Sweep

/-- A sweep that has the store to itself: its settings, the schedule of its weeks, and what its
    requests meet. -/
structure LoneSweep (α : Type) where
  settings : SweepSettings
  schedule : Rollup.Schedule α (Except RollupError String)
  weaves : ∀ ps, Program.Weave ps (schedule ps)
  limit : ℕ
  lookbackHours : UInt32
  weather : ℕ → Weather

namespace LoneSweep

variable {ι α : Type}

/-- The sweep begins at a time that determines the cutoff. -/
def CutsAt (s : LoneSweep α) (cutoff : Instant) : Prop :=
  ∃ started, (s.weather 0).now = .ok started ∧ Sweep.cutoff started s.lookbackHours = .ok cutoff

variable [Quantity α]

/-- The result of the sweep, and the store after it. -/
def run (s : LoneSweep α) (i : ι) (h : History ι α) : Except Overflow SweepResult × History ι α :=
  (execute s.settings s.schedule s.limit s.lookbackHours).run.runUnder i s.weather h

/-- The store answers every call of the sweep, there are enough portions for all that is stored, and
    the time suffices. -/
structure RunsThrough (s : LoneSweep α) (i : ι) (h : History ι α) : Prop where
  /-- Without room for a day on its pages, a sweep finds no days (`LoneSweep.run_idle`). Settings
      that pass their check have room for one. -/
  pageSize_pos : 0 < s.settings.pageSize.toNat
  answered : ∀ n, (s.weather n).fault = none
  size_lt : h.store.views.size < s.limit
  in_time : ∃ r, (s.run i h).1 = .ok r ∧ r.budgetExhausted = false

variable {s : LoneSweep α} {i : ι} {h₀ h : History ι α} {cutoff : Instant}

/-- A sweep looks at the clock, from which its cutoff follows, and goes on page by page. -/
theorem run_eq (s : LoneSweep α) (i : ι) (h : History ι α) : s.run i h =
    match (s.weather 0).now with
    | .error e => (.error e, h)
    | .ok started =>
      match Sweep.cutoff started s.lookbackHours with
      | .error e => (.error e, h)
      | .ok cutoff =>
        (pages s.settings s.schedule started cutoff s.limit none .start).run.runUnder i
          (fun n => s.weather (n + 1)) h := by
  have hstart : s.run i h = Program.runUnder i (ExceptT.bindCont (fun started =>
      Client.compute (Sweep.cutoff started s.lookbackHours) >>= fun cutoff =>
        pages s.settings s.schedule started cutoff s.limit none .start) (s.weather 0).now)
      (fun n => s.weather (n + 1)) h := rfl
  rw [hstart]
  cases (s.weather 0).now with
  | error e => rfl
  | ok started =>
    dsimp only [ExceptT.bindCont]
    cases Sweep.cutoff started s.lookbackHours <;> rfl

/-- Once the cutoff is known, there is nothing but pages. -/
theorem run_eq_pages {started : Instant} (hstarted : (s.weather 0).now = .ok started)
    (hcutoff : Sweep.cutoff started s.lookbackHours = .ok cutoff) (i : ι) (h : History ι α) :
    s.run i h = (pages s.settings s.schedule started cutoff s.limit none .start).run.runUnder i
      (fun n => s.weather (n + 1)) h := by
  rw [run_eq, hstarted]
  dsimp only
  rw [hcutoff]

/-- Without a cutoff, a sweep fails before it has done anything. -/
theorem run_of_no_cutoff (hs : ∀ cutoff, ¬ s.CutsAt cutoff) (i : ι) (h : History ι α) :
    ∃ e, s.run i h = (.error e, h) := by
  rw [run_eq]
  cases hnow : (s.weather 0).now with
  | error e => exact ⟨e, rfl⟩
  | ok started =>
    cases hcutoff : Sweep.cutoff started s.lookbackHours with
    | error e => exact ⟨e, by simp only [hcutoff]⟩
    | ok cutoff => exact absurd ⟨started, hnow, hcutoff⟩ (hs cutoff)

/-- A sweep whose pages have no room for a day leaves the store as it is, whatever it meets. -/
theorem run_idle (hsize : s.settings.pageSize.toNat = 0) (i : ι) (h : History ι α) :
    (s.run i h).2 = h := by
  by_cases hcut : ∃ cutoff, s.CutsAt cutoff
  · obtain ⟨cutoff, started, hstarted, hcutoff⟩ := hcut
    rw [run_eq_pages hstarted hcutoff]
    exact (Program.Safe.runUnder (T := Terms.lone i (· = h) True)
      (pages_idle hsize started s.limit none .start) rfl fun _ _ => trivial).1
  · obtain ⟨e, he⟩ := run_of_no_cutoff (not_exists.1 hcut) i h
    rw [he]

/-- A sweep may break off anywhere. -/
theorem midway_run (hs : s.CutsAt cutoff) (hm : Midway h₀ cutoff h) :
    Midway h₀ cutoff (s.run i h).2 := by
  obtain ⟨started, hstarted, hcutoff⟩ := hs
  rw [run_eq_pages hstarted hcutoff]
  exact (Program.Safe.runUnder (pages_safe (maySweep_midway i h₀ cutoff True) s.weaves started
    s.limit none .start) hm fun _ _ => trivial).1

/-- A sweep that runs through has counted all open days before the cutoff, and leaves none of them
    over that can be closed. -/
theorem finished_run (hs : s.CutsAt cutoff) (hm : Midway h₀ cutoff h) (ht : s.RunsThrough i h) :
    (s.run i h).1 = .ok (counted (h.store.openDays cutoff none).values .start) ∧
      Swept (s.run i h).2 cutoff := by
  obtain ⟨r, hr, hexhausted⟩ := ht.in_time
  obtain ⟨started, hstarted, hcutoff⟩ := hs
  rw [run_eq_pages hstarted hcutoff] at hr ⊢
  have hlimit : (h.store.openDays cutoff none).values.length < s.limit :=
    hm.orderly.sound.length_openDays_le.trans_lt ht.size_lt
  obtain ⟨hswept, hcount⟩ := (Program.Safe.runUnder (pages_finishes s.weaves ht.pageSize_pos hm
    started (behind_none cutoff h) hlimit) hm fun n hn => by
      rw [ht.answered] at hn
      cases hn).2 r hr hexhausted
  exact ⟨hcount ▸ hr, hswept⟩

/-- When no days are left over, a sweep changes nothing. -/
theorem run_eq_of_swept (hs : s.CutsAt cutoff) (ho : h.Orderly) (hd : Swept h cutoff) :
    (s.run i h).2 = h := by
  have hm : MaySweep (Terms.lone i (· = h) True) (partTerms i (· = h) True) (fun _ _ => False)
      (fun _ _ => False) cutoff :=
    { fits := partTerms_fits
      apart := partTerms_apart
      sound := fun hi => hi ▸ ho.sound
      grows := fun hr => hr.1
      known_rely := fun _ _ hc => hc
      ready_rely := fun _ _ hc => hc
      write := fun _ hne hdays _ _ _ => by
        obtain ⟨d, hd⟩ := List.exists_mem_of_ne_nil _ hne
        exact (hdays d hd).2.elim
      read := fun hi hc => hd _ (hi ▸ hc)
      write_day := fun _ hc _ => hc.elim }
  obtain ⟨started, hstarted, hcutoff⟩ := hs
  rw [run_eq_pages hstarted hcutoff]
  exact (Program.Safe.runUnder (pages_safe hm s.weaves started s.limit none .start) rfl
    fun _ _ => trivial).1

/-- A sweep that keeps within its budget, whenever it looks at the clock, comes to a result in
    time. -/
theorem in_time_of_clock {started : Instant} (hstarted : (s.weather 0).now = .ok started)
    (hcutoff : Sweep.cutoff started s.lookbackHours = .ok cutoff)
    (hclock : ∀ n, ∃ now, (s.weather n).now = .ok now ∧
      now.since started ≤ (s.settings.timeBudget.nanoseconds : ℤ)) (i : ι) (h : History ι α) :
    ∃ r, (s.run i h).1 = .ok r ∧ r.budgetExhausted = false := by
  rw [run_eq_pages hstarted hcutoff]
  obtain ⟨xs, hxs, htimes⟩ := Program.exists_traces_runUnder i
    (pages s.settings s.schedule started cutoff s.limit none .start).run
    (fun n => s.weather (n + 1)) h
  refine (pages_traces hxs).in_time (fun time htime => ?_) rfl
  obtain ⟨n, hn⟩ := htimes time htime
  obtain ⟨now, hnow, hle⟩ := hclock (n + 1)
  exact ⟨now, hn.symm.trans hnow, hle⟩

/-- Sweeps, one after the other. -/
def runAll (i : ι) (h : History ι α) (sweeps : List (LoneSweep α)) : History ι α :=
  sweeps.foldl (fun h s => (s.run i h).2) h

theorem midway_runAll {sweeps : List (LoneSweep α)} (hs : ∀ s ∈ sweeps, s.CutsAt cutoff)
    (hm : Midway h₀ cutoff h) : Midway h₀ cutoff (runAll i h sweeps) := by
  induction sweeps generalizing h with
  | nil => exact hm
  | cons s sweeps ih =>
    obtain ⟨hs, hrest⟩ := List.forall_mem_cons.1 hs
    exact ih hrest (midway_run hs hm)

/-- What readings and sweeps leave behind, at any moment, is orderly. -/
theorem orderly_of_jobs [DecidableEq ι] (jobs : ι → Job α) (moves : List (Move ι)) :
    ((Traffic.start fun j => (jobs j).program).run moves).history.Orderly :=
  (Traffic.run_safe (T := sharedTerms) (fun _ _ _ => True)
    (t := .start fun j => (jobs j).program) (fun _ => rfl) (fun _ => rfl)
    (fun _ _ _ _ _ hg => hg) History.rolledUp_empty (fun j => (jobs j).safe_shared j _)
    moves).1.orderly

/-- Sweeps up to one cutoff, any of which may break off, and a last one that runs through: the views
    are those that a single sweep would have left behind, and more sweeps change nothing. -/
theorem chained_sweeps [DecidableEq ι] (jobs : ι → Job α) (moves : List (Move ι)) (i : ι)
    {sweeps : List (LoneSweep α)} {last single : LoneSweep α}
    (hsweeps : ∀ s ∈ sweeps, s.CutsAt cutoff) (hlast : last.CutsAt cutoff)
    (hsingle : single.CutsAt cutoff) :
    let h := ((Traffic.start fun j => (jobs j).program).run moves).history
    let h₁ := runAll i h sweeps
    last.RunsThrough i h₁ → single.RunsThrough i h →
      (last.run i h₁).2.store.SameViews (single.run i h).2.store ∧
        ∀ again : LoneSweep α, again.CutsAt cutoff →
          (again.run i (last.run i h₁).2).2 = (last.run i h₁).2 := by
  intro h h₁ hthrough hthrough'
  have hm : Midway h cutoff h := midway_refl (orderly_of_jobs jobs moves) cutoff
  have hm₁ : Midway h cutoff h₁ := midway_runAll hsweeps hm
  have hm₂ : Midway h cutoff (last.run i h₁).2 := midway_run hlast hm₁
  have hswept : Swept (last.run i h₁).2 cutoff := (finished_run hlast hm₁ hthrough).2
  refine ⟨hm₂.sameViews hswept (midway_run hsingle hm) (finished_run hsingle hm hthrough').2, ?_⟩
  exact fun again hagain => run_eq_of_swept hagain hm₂.orderly hswept

/-- A sweep on 13 September 2025 whose weeks take turns. -/
def onTheThirteenth (pageSize : UInt64) (fault : ℕ → Option StoreError) : LoneSweep ℚ where
  settings := { SweepSettings.standard with pageSize := pageSize }
  schedule := Rollup.turns { SweepSettings.standard with pageSize := pageSize }
  weaves _ := Program.Weave.together _ _
  limit := 20
  lookbackHours := 24
  weather n := ⟨.ok ((Instant.ofSeconds? 1757746800).get (by decide)), fault n⟩

/-- Two days of one week on a page each. The first sweep seals one of them, and the second one fails
    to seal the other, whose week it has written. -/
theorem broken_off_twice :
    let jobs : Fin 2 → Job ℚ := ![.reading .standard (reading "first" 10),
      .reading .standard { reading "second" 20 with
        time := (Instant.ofSeconds? 1757516400).get (by decide) }]
    let h := ((Traffic.start fun j => (jobs j).program).run
      (twoDaysLater [0, 0, 0, 0, 0, 1, 1, 1, 1, 1])).history
    let locked (n : ℕ) := onTheThirteenth 1 fun k => if k = n then some .lock else none
    let h₁ := runAll 0 h [locked 8, locked 5]
    let last := onTheThirteenth 1 fun _ => none
    let single := onTheThirteenth 100 fun _ => none
    ["dev|daily|2025-09-10", "dev|daily|2025-09-11"].map h₁.store.holdsSealed = [true, false] ∧
      (last.run 0 h₁).1 = .ok ⟨true, 1, 0, 0, false, none⟩ ∧
      (single.run 0 h).1 = .ok ⟨true, 2, 0, 0, false, none⟩ ∧
      (last.run 0 h₁).2.store.SameViews (single.run 0 h).2.store := by
  intro jobs h locked h₁ last single
  have hlast : (last.run 0 h₁).1 = .ok ⟨true, 1, 0, 0, false, none⟩ := by decide +kernel
  have hsingle : (single.run 0 h).1 = .ok ⟨true, 2, 0, 0, false, none⟩ := by decide +kernel
  have hcutoff : Sweep.cutoff ((Instant.ofSeconds? 1757746800).get (by decide)) 24 =
      .ok ((Instant.ofSeconds? 1757635200).get (by decide)) := by decide +kernel
  have hcuts (pageSize : UInt64) (fault : ℕ → Option StoreError) :
      (onTheThirteenth pageSize fault).CutsAt ((Instant.ofSeconds? 1757635200).get (by decide)) :=
    ⟨_, rfl, hcutoff⟩
  have hsweeps : ∀ s ∈ [locked 8, locked 5],
      s.CutsAt ((Instant.ofSeconds? 1757635200).get (by decide)) :=
    List.forall_mem_cons.2 ⟨hcuts 1 _, List.forall_mem_cons.2 ⟨hcuts 1 _, by simp⟩⟩
  have hthrough : last.RunsThrough 0 h₁ :=
    ⟨by decide +kernel, fun _ => rfl, by decide +kernel, _, hlast, rfl⟩
  have hthrough' : single.RunsThrough 0 h :=
    ⟨by decide +kernel, fun _ => rfl, by decide +kernel, _, hsingle, rfl⟩
  have hchain := chained_sweeps jobs (twoDaysLater [0, 0, 0, 0, 0, 1, 1, 1, 1, 1]) 0 hsweeps
    (hcuts 1 _) (hcuts 100 _) hthrough hthrough'
  -- The stores are long runs, which must not be computed to see that they are the same.
  with_reducible exact ⟨by decide +kernel, hlast, hsingle, hchain.1⟩

end LoneSweep

end WeatherStation
