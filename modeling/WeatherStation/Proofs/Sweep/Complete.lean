import WeatherStation.Proofs.Sweep.Chain
import WeatherStation.Proofs.Sweep.Running

/-!
# Complete sweeps

Whatever readings and sweeps have left behind, a sweep that has the store to itself, whose calls are
answered and which keeps within its time seals every open day before its cutoff. No day fails and
none is skipped, and nothing changes but these days and their weeks.

Results:
* `LoneSweep.Completed`: what such a sweep leaves behind.
* `LoneSweep.complete_sweep`: every such sweep.
* `LoneSweep.two_days_completed`: two days of one week.
-/

namespace WeatherStation

variable {ι α : Type} [Quantity α]

namespace LoneSweep

open Sweep

/-- Some days were sealed: `due` are all days that were open and started before the cutoff, each of
    them once, and `closed` are their closed forms, which are stored now. Each of their weeks is what
    it was, or a week without days, with all closed days that it owns written into it. Nothing else
    has changed. -/
structure Completed (h : History ι α) (cutoff : Instant) (due closed : List (DailyView α))
    (h' : History ι α) : Prop where
  nodup : due.Nodup
  mem_due : ∀ d, d ∈ due ↔ d.isSealed = false ∧ d.start < cutoff ∧
    ∃ key, h.store.get? key = some (.daily d)
  sealedAs : List.Forall₂ DailyView.SealedAs due closed
  days : ∀ c ∈ closed, ∃ t, h'.store.get? c.id.key = some (.daily { c with version := t })
  weeks : ∀ c ∈ closed, ∃ w₀ w t, h.store.week? c.owner.1 c.owner.2 = some w₀ ∧
    Rollup.applyDays (closed.filter fun d => d.owner = c.owner) w₀ = .ok w ∧
    h'.store.get? c.weekKey = some (.weekly { w with version := t })
  others : ∀ key, (∀ c ∈ closed, key ≠ c.id.key ∧ key ≠ c.weekKey) →
    h'.store.get? key = h.store.get? key

/-- Days that can be closed, one by one. -/
theorem forall₂_closed {days : List (DailyView α)}
    (hdays : ∀ d ∈ days, ∃ c, DailyView.close.result d = .ok c) :
    List.Forall₂ DailyView.SealedAs days
      (days.filterMap fun d => (DailyView.close.result d).toOption) := by
  induction days with
  | nil => exact .nil
  | cons d days ih =>
    obtain ⟨⟨c, hc⟩, hrest⟩ := List.forall_mem_cons.1 hdays
    rw [List.filterMap_cons_some (by rw [hc]; rfl)]
    exact .cons (DailyView.sealedAs_of_close hc) (ih hrest)

/-- Where all open days can be closed, they are all counted as sealed. -/
theorem counted_of_closable {days : List (DailyView α)}
    (hdays : ∀ d ∈ days, ∃ c, DailyView.close.result d = .ok c) (result : SweepResult) :
    counted days result = { result with processed := result.processed + days.length } := by
  have hok (d : DailyView α) (hd : d ∈ days) : (DailyView.close.result d).isOk = true := by
    obtain ⟨c, hc⟩ := hdays d hd
    rw [hc]
    rfl
  have hsealed : days.countP (fun d => (DailyView.close.result d).isOk) = days.length :=
    List.countP_eq_length.2 hok
  have hfailed : days.countP (fun d => !(DailyView.close.result d).isOk) = 0 :=
    List.countP_eq_zero.2 fun d hd => by simp [hok d hd]
  rw [counted, hsealed, hfailed, Nat.add_zero]

variable {s : LoneSweep α} {i : ι} {h h' : History ι α} {cutoff : Instant}

/-- What is left behind when no open day is left over. -/
theorem completed_of_swept (hm : Midway h cutoff h') (hs : Swept h' cutoff)
    (hclosable : ∀ d, h.Due cutoff d → ∃ c, DailyView.close.result d = .ok c) :
    Completed h cutoff (h.store.openDays cutoff none).values (h.closings cutoff) h' where
  nodup := hm.began.sound.nodup_openDays cutoff none
  mem_due d := by
    rw [hm.began.sound.mem_openDays]
    constructor
    · rintro ⟨hd, -⟩
      exact ⟨hd.isOpen, hd.start_lt, d.id.key, hd.stored⟩
    · rintro ⟨hopen, hstart, key, hkey⟩
      have hid : d.id.key = key := (hm.began.get?_named hkey).2
      exact ⟨⟨hid ▸ hkey, hopen, hstart⟩, fun _ hc => by cases hc⟩
  sealedAs := forall₂_closed fun d hd => hclosable d (hm.began.sound.mem_openDays.1 hd).1
  days c hc := (hm.sealed_of_swept hs (hm.began.sound.mem_closings.1 hc)).1
  weeks c hc := hm.week_of_swept hs (hm.began.sound.mem_closings.1 hc)
  others key hkey := hm.others fun c hc => hkey c (hm.began.sound.mem_closings.2 hc)

/-- After any readings and sweeps, a sweep with pages of at least one day, calls that are all
    answered and a clock that stays within its budget succeeds: it has sealed all open days before
    its cutoff, has written them into their weeks, and has left everything else alone. The limit only
    has to leave room for all that is stored. -/
theorem complete_sweep [DecidableEq ι] (jobs : ι → Job α) (moves : List (Move ι)) (i : ι)
    {started : Instant} (hstarted : (s.weather 0).now = .ok started)
    (hcutoff : Sweep.cutoff started s.lookbackHours = .ok cutoff)
    (hsize : 1 ≤ s.settings.pageSize) (hanswered : ∀ n, (s.weather n).fault = none)
    (hclock : ∀ n, ∃ now, (s.weather n).now = .ok now ∧
      now.since started ≤ (s.settings.timeBudget.nanoseconds : ℤ)) :
    let h := ((Traffic.start fun j => (jobs j).program).run moves).history
    h.store.views.size < s.limit → ∃ due closed,
      (s.run i h).1 = .ok ⟨true, due.length, 0, 0, false, none⟩ ∧
      Completed h cutoff due closed (s.run i h).2 := by
  intro h hlimit
  have hi : h.Inherits WindowView.OpenRuns :=
    inherits_of_jobs (WindowView.inherited_openRuns _) moves
  have hclosable (d : DailyView α) (hd : h.Due cutoff d) :
      ∃ c, DailyView.close.result d = .ok c := hd.exists_close hi
  have hcuts : s.CutsAt cutoff := ⟨started, hstarted, hcutoff⟩
  have hm : Midway h cutoff h := midway_refl hi.orderly cutoff
  obtain ⟨hresult, hswept⟩ := finished_run (i := i) hcuts hm
    ⟨UInt64.le_iff_toNat_le.1 hsize, hanswered, hlimit, in_time_of_clock hstarted hcutoff hclock i h⟩
  refine ⟨(h.store.openDays cutoff none).values, h.closings cutoff, ?_,
    completed_of_swept (midway_run hcuts hm) hswept hclosable⟩
  rw [hresult, counted_of_closable fun d hd => hclosable d (hi.orderly.sound.mem_openDays.1 hd).1]
  simp [SweepResult.start]

/-- Two days of one week, on a page each. -/
theorem two_days_completed :
    let jobs : Fin 2 → Job ℚ := ![.reading .standard (reading "first" 10),
      .reading .standard { reading "second" 20 with
        time := (Instant.ofSeconds? 1757516400).get (by decide) }]
    let h := ((Traffic.start fun j => (jobs j).program).run
      (twoDaysLater [0, 0, 0, 0, 0, 1, 1, 1, 1, 1])).history
    let s := onTheThirteenth 1 fun _ => none
    let cutoff := (Instant.ofSeconds? 1757635200).get (by decide)
    (s.run 0 h).1 = .ok ⟨true, 2, 0, 0, false, none⟩ ∧
      ∃ due closed, due.length = 2 ∧ Completed h cutoff due closed (s.run 0 h).2 := by
  intro jobs h s cutoff
  have hresult : (s.run 0 h).1 = .ok ⟨true, 2, 0, 0, false, none⟩ := by decide +kernel
  obtain ⟨due, closed, hcount, hcompleted⟩ :=
    complete_sweep (s := s) jobs (twoDaysLater [0, 0, 0, 0, 0, 1, 1, 1, 1, 1]) 0 rfl
      (show _ = Except.ok cutoff by decide +kernel) (by decide +kernel) (fun _ => rfl)
      (fun _ => ⟨_, rfl, by decide +kernel⟩) (by decide +kernel)
  have hlength : due.length = 2 := by
    have := hcount.symm.trans hresult
    simpa using this
  with_reducible exact ⟨hresult, due, closed, hlength, hcompleted⟩

end LoneSweep

end WeatherStation
