import WeatherStation.Proofs.Rain.Words
import WeatherStation.Proofs.Sweep.Chain
import WeatherStation.Proofs.Time.LeapSeconds

/-!
# Sweeps that return

A sweep goes on until the store has no more pages for it. Every page moves its cursor over some of
the open days, and no others become due on the way, so that as many portions as there are views
suffice, whatever the store refuses. What keeps a sweep from coming to a result is its clock or its
cutoff: midnight and the time budget have values to fall back to, but the lookback is taken from
midnight without one, and can leave the calendar.

Results:
* `Instant.exists_shiftSeconds_neg_iff`, `Instant.shift_neg_le`: going back by whole seconds.
* `Sweep.Reaches`, `Sweep.exists_cutoff_iff`: the lookbacks for which there is a cutoff.
* `Sweep.since_le_longest`: elapsed times are far from the longest length of time.
* `Program.runUnder_bind`: one step after the other in bad weather.
* `Sweep.page_shrinks`: each page leaves fewer open days to the next one.
* `Sweep.runUnder_pages_eq`: more portions than open days change nothing.
* `LoneSweep.sweep_returns`: every sweep.
* `LoneSweep.longest_lookback_fails`: a sweep without a result.
-/

namespace WeatherStation

variable {ι α β γ : Type}

/-! ## The cutoff -/

namespace Instant

variable {t s : Instant}

/-- Going back never comes out later. -/
theorem shift_neg_le {back : ℤ} (hback : 0 ≤ back) (h : t.shift (-back) = .ok s) : s ≤ t := by
  show s.rank ≤ t.rank
  unfold rank
  cases hl : t.isLeap with
  | true =>
    have hnanos : 1000000000 ≤ t.nanos := by simpa [isLeap] using hl
    have hnanos_lt := t.nanos_lt
    rcases shift_neg_of_isLeap hl hback h with ⟨-, hsec, hnan⟩ | ⟨hlong, hlt, hsum⟩ <;> omega
  | false =>
    have hnanos : t.nanos < 1000000000 := by simpa [isLeap] using hl
    obtain ⟨hsum, hlt⟩ := shift_spec hl h
    omega

/-- Going back by whole seconds leads out of the calendar only before its first second. From a leap
    second it is counted back from the second after it. -/
theorem exists_shiftSeconds_neg_iff {n : ℕ} : (∃ s, t.shiftSeconds (-n) = .ok s) ↔
    firstSecond + n ≤ t.seconds + if t.isLeap then 1 else 0 := by
  have hfirst := t.first_le
  have hlast := t.le_last
  have hlt := t.nanos_lt
  have hback : (0 : ℤ) ≤ n * 1000000000 := by omega
  have hdiv : (n : ℤ) * 1000000000 / 1000000000 = n := by omega
  have hmod : (n : ℤ) * 1000000000 % 1000000000 = 0 := by omega
  rw [shiftSeconds, neg_mul]
  cases hl : t.isLeap with
  | true =>
    have hnanos : 1000000000 ≤ t.nanos := by simpa [isLeap] using hl
    rw [if_pos rfl]
    constructor
    · rintro ⟨s, hs⟩
      have hfirst' := s.first_le
      rcases shift_neg_of_isLeap hl hback hs with ⟨hshort, -, -⟩ | ⟨-, hlt', hsum⟩ <;> omega
    · intro hroom
      have hparts : ∃ s, ofParts? (t.shiftedParts (-(n * 1000000000))).1
          (t.shiftedParts (-(n * 1000000000))).2.toNat = some s := by
        rw [shiftedParts_neg_of_isLeap hl hback, hdiv, hmod]
        split_ifs
        · exact exists_ofParts? hfirst hlast (by simp only; omega)
            fun _ => t.leap_ends_minute hnanos
        · exact exists_ofParts? (by simp only; omega) (by simp only; omega) (by simp only; omega)
            fun hn => by simp only at hn; omega
      obtain ⟨s, hs⟩ := hparts
      exact ⟨s, by simp only [shift, hs]⟩
  | false =>
    have hnanos : t.nanos < 1000000000 := by simpa [isLeap] using hl
    rw [if_neg (by decide)]
    constructor
    · rintro ⟨s, hs⟩
      have hfirst' := s.first_le
      obtain ⟨hsum, hlt'⟩ := shift_spec hl hs
      omega
    · intro hroom
      have hparts : ∃ s, ofParts? (t.shiftedParts (-(n * 1000000000))).1
          (t.shiftedParts (-(n * 1000000000))).2.toNat = some s := by
        simp only [shiftedParts, hl, Bool.false_eq_true, if_false, Int.neg_tdiv, Int.neg_tmod,
          Int.tdiv_eq_ediv_of_nonneg hback, Int.tmod_eq_emod_of_nonneg hback, hdiv, hmod]
        exact exists_ofParts? (by omega) (by omega) (by omega) fun hn => by omega
      obtain ⟨s, hs⟩ := hparts
      exact ⟨s, by simp only [shift, hs]⟩

theorem shiftSeconds_eq_error {n : ℤ} {e : Overflow} (h : t.shiftSeconds n = .error e) :
    e = .calendar := by
  simp only [shiftSeconds, shift] at h
  split at h <;> cases h
  rfl

end Instant

namespace Sweep

variable {now cutoff : Instant} {lookbackHours : UInt32}

/-- The calendar reaches back over the lookback from the midnight before `now`. -/
def Reaches (now : Instant) (lookbackHours : UInt32) : Prop :=
  let midnight := (now.truncate? 86400).getD now
  firstSecond + lookbackHours.toNat * 3600 ≤ midnight.seconds + if midnight.isLeap then 1 else 0

instance (now : Instant) (lookbackHours : UInt32) : Decidable (Reaches now lookbackHours) :=
  inferInstanceAs (Decidable (_ ≤ _))

/-- There is a cutoff exactly for the lookbacks over which the calendar reaches back. -/
theorem exists_cutoff_iff :
    (∃ cutoff, Sweep.cutoff now lookbackHours = .ok cutoff) ↔ Reaches now lookbackHours := by
  have hiff := Instant.exists_shiftSeconds_neg_iff (t := (now.truncate? 86400).getD now)
    (n := lookbackHours.toNat * 3600)
  rw [Nat.cast_mul, Nat.cast_ofNat] at hiff
  exact hiff

theorem cutoff_eq_error (h : ¬ Reaches now lookbackHours) :
    Sweep.cutoff now lookbackHours = .error .calendar := by
  cases hc : Sweep.cutoff now lookbackHours with
  | ok cutoff => exact absurd (exists_cutoff_iff.1 ⟨cutoff, hc⟩) h
  | error e => rw [Instant.shiftSeconds_eq_error hc]

/-- What is truncated is not later. -/
theorem getD_truncate?_le (now : Instant) : (now.truncate? 86400).getD now ≤ now := by
  cases hm : now.truncate? 86400 with
  | none => exact Int.le_refl _
  | some midnight =>
    obtain ⟨-, -, -, hshift⟩ := Instant.truncate?_eq_some hm
    exact Instant.shift_neg_le (Int.emod_nonneg _ (by norm_num)) hshift

/-- The cutoff is never later than now. -/
theorem cutoff_le (h : Sweep.cutoff now lookbackHours = .ok cutoff) : cutoff ≤ now := by
  have hback : (0 : ℤ) ≤ lookbackHours.toNat * 3600 * 1000000000 := by omega
  rw [Sweep.cutoff, Instant.shiftSeconds, neg_mul] at h
  exact Int.le_trans (Instant.shift_neg_le hback h) (getD_truncate?_le now)

/-! ## The budget -/

/-- The longest length of time in nanoseconds: milliseconds that a signed 64-bit number holds. -/
def longest : ℤ := 9223372036854775807 * 1000000

/-- Elapsed times are within the lengths of time, in both directions. -/
theorem since_le_longest (t started : Instant) :
    -longest ≤ t.since started ∧ t.since started ≤ longest := by
  obtain ⟨hlow, hhigh⟩ := Word.since_bounds t started
  have hsplit := Int.tmod_add_mul_tdiv (t.since started) 1000000000
  have hlt := Int.tmod_lt_of_pos (t.since started) (by norm_num : (0 : ℤ) < 1000000000)
  have hgt := Int.lt_tmod_of_pos (t.since started) (by norm_num : (0 : ℤ) < 1000000000)
  unfold longest
  omega

/-- A budget beyond the longest length of time is as good as the longest one. -/
theorem over_budget_iff (budget : Duration) (t started : Instant) :
    (budget.nanoseconds : ℤ) < t.since started ↔
      min (budget.nanoseconds : ℤ) longest < t.since started := by
  rw [min_lt_iff, or_iff_left (not_lt.2 (since_le_longest t started).2)]

end Sweep

/-! ## One step after the other -/

/-- A step in bad weather, and the steps after it in the weather that is left. -/
theorem Program.runUnder_bind (i : ι) (p : Program α β) (weather : ℕ → Weather)
    (h : History ι α) : ∃ k, ∀ f : β → Program α γ, (p >>= f).runUnder i weather h =
      (f (p.runUnder i weather h).1).runUnder i (fun n => weather (n + k))
        (p.runUnder i weather h).2 := by
  induction p generalizing weather h with
  | done x => exact ⟨0, fun f => rfl⟩
  | ask r next ih =>
    obtain ⟨k, hk⟩ := ih (h.serve (weather 0).now (weather 0).fault i r).1
      (fun n => weather (n + 1)) (h.serve (weather 0).now (weather 0).fault i r).2
    exact ⟨k + 1, fun f => hk f⟩

/-! ## Portion after portion -/

namespace Sweep

open History

variable [Quantity α] {h h' : History ι α} {cutoff : Instant} {cursor : Option Cursor} {i : ι}
  {settings : SweepSettings} {schedule : Rollup.Schedule α (Except RollupError String)}
  {result : SweepResult}

/-- The open days that are left over for the next page are fewer, whatever became of those on the
    page. -/
theorem Midway.length_openDays_lt (hm : Midway h cutoff h') {size : ℕ} (hsize : 0 < size)
    {k : Cursor} (hk : (h.store.page cutoff size cursor).next = some k) :
    (h'.store.openDays cutoff (some k)).values.length <
      (h.store.openDays cutoff cursor).values.length := by
  have hs := hm.began.sound
  have hlt : size < (h.store.openDays cutoff cursor).values.length := by
    rw [← Sound.next_isSome_iff hsize, hk]
    rfl
  obtain ⟨last, hlast, hplace⟩ := Sound.mem_of_next hk
  have hlast := List.mem_of_mem_take hlast
  have hsub : (h'.store.openDays cutoff (some k)).values.Subperm
      ((h.store.openDays cutoff cursor).values.drop size) := by
    refine List.subperm_of_subset (hm.orderly.sound.nodup_openDays _ _) fun d hd => ?_
    obtain ⟨hdue, hafter⟩ := hm.orderly.sound.mem_openDays.1 hd
    have hafter := hafter k rfl
    refine (hs.mem_drop_openDays hk).2 ⟨hs.mem_openDays.2 ⟨hm.due hdue, fun c hc => ?_⟩, hafter⟩
    exact Key.trans ((hs.mem_openDays.1 hlast).2 c hc) (hplace ▸ hafter)
  have hle := hsub.length_le
  rw [List.length_drop] at hle
  omega

/-- After a page is dealt with, the sweep goes on where the page says, if it goes on. -/
theorem sealDays_yields (next : Option Cursor) (closed : List (DailyView α)) :
    (sealDays settings schedule next closed result).run.Yields fun x =>
      ∀ step, x = .ok step → ∀ k ∈ step.cursor?, next = some k := by
  refine Program.Yields.bind (Program.yields_true _) fun x _ => ?_
  cases x with
  | error e =>
    intro step hx
    cases hx
  | ok rolled =>
    cases rolled with
    | error e =>
      intro step hx k hk
      cases hx
      cases hk
    | ok keys =>
      refine Program.Yields.bind (Program.yields_true _) fun y _ => ?_
      cases y with
      | error e =>
        intro step hx
        cases hx
      | ok r' =>
        intro step hx k hk
        cases hx
        cases next with
        | none => cases hk
        | some k' => exact hk

/-- Each page leaves fewer open days to the next one, whatever the store refuses. -/
theorem page_shrinks (hweave : ∀ ps, Program.Weave ps (schedule ps)) (ho : h.Orderly)
    (hsize : 0 < settings.pageSize.toNat) (started : Instant) :
    Client.Safe (Terms.lone i (Midway h cutoff) True) (fun x h' => ∀ step, x = .ok step →
      ∀ k ∈ step.cursor?, (h'.store.openDays cutoff (some k)).values.length <
        (h.store.openDays cutoff cursor).values.length)
      (page settings schedule started cutoff cursor result) h := by
  have hs := ho.sound
  have hstop {r : SweepResult} {h₁ : History ι α} :
      Client.Safe (Terms.lone i (Midway h cutoff) True) (fun x h' => ∀ step, x = .ok step →
        ∀ k ∈ step.cursor?, (h'.store.openDays cutoff (some k)).values.length <
          (h.store.openDays cutoff cursor).values.length)
        (pure (.stop r) : Client α Overflow Step) h₁ :=
    Client.safe_pure_result (Terms.lasts_lone fun _ k hk => by cases hk)
  refine Client.safe_bind_result (P := fun _ h' => h' = h) (Client.safe_look (fun _ _ _ => rfl)
      fun _ _ hr _ _ _ => Terms.lasts_lone fun _ => hr) fun time h₁ hi₁ hr => ?_
  obtain rfl := hr.now hi₁
  dsimp only
  split_ifs
  · exact hstop
  refine Client.safe_bind_result (P := fun x h' => h' = h₁ ∧ ∀ fetched, x = .ok (.ok fetched) →
      fetched = h₁.store.page cutoff settings.pageSize.toNat cursor)
    (Client.safe_lift (Client.safe_look (fun _ _ _ => rfl)
      fun h₂ _ hr now fault hf => Terms.lasts_lone fun _ => ?_))
    fun fetched h₂ hi₂ hf => ?_
  · obtain rfl := hr
    refine ⟨rfl, fun fetched hfetched => ?_⟩
    cases fault with
    | some e => cases hfetched
    | none => exact (Except.ok.inj (Except.ok.inj hfetched)).symm
  · obtain ⟨rfl, hpage⟩ := hf.now hi₂
    cases fetched with
    | error e => exact hstop
    | ok fetched =>
      obtain rfl := hpage fetched rfl
      dsimp only
      split
      · exact hstop
      · refine Program.Safe.mono ((sealDays_yields _ _).safe
          (sealDays_safe (maySweep_midway i h₂ cutoff True) hweave
            (fun c hc => closing_of_mem hs hc)
            (fun c hc c' hc' => (closing_of_mem hs hc).eq_of_key (closing_of_mem hs hc')) _ _))
          fun x h' hi' hx step he k hk => ?_
        exact hi'.length_openDays_lt hsize (hx.1 step he k hk)

/-- Once there are more portions than open days, it does not matter how many there are. -/
theorem runUnder_pages_eq (hweave : ∀ ps, Program.Weave ps (schedule ps))
    (hsize : 0 < settings.pageSize.toNat) (started : Instant) {limit limit' : ℕ}
    (ho : h.Orderly) (hlimit : (h.store.openDays cutoff cursor).values.length < limit)
    (hlimit' : (h.store.openDays cutoff cursor).values.length < limit') (weather : ℕ → Weather) :
    (pages settings schedule started cutoff limit cursor result).run.runUnder i weather h =
      (pages settings schedule started cutoff limit' cursor result).run.runUnder i weather h := by
  induction limit generalizing limit' h cursor result weather with
  | zero => exact absurd hlimit (Nat.not_lt_zero _)
  | succ limit ih =>
    cases limit' with
    | zero => exact absurd hlimit' (Nat.not_lt_zero _)
    | succ limit' =>
      have hsafe : Client.Safe (Terms.lone i (Midway h cutoff) True) _
          (page settings schedule started cutoff cursor result) h :=
        page_shrinks hweave ho hsize started
      have hfaults : ∀ n, (weather n).fault.isSome → True := fun _ _ => trivial
      obtain ⟨hm, hshrinks⟩ := hsafe.runUnder (midway_refl ho cutoff) hfaults
      obtain ⟨n, hbind⟩ := Program.runUnder_bind (γ := Except Overflow SweepResult) i
        (page settings schedule started cutoff cursor result).run weather h
      rw [pages, pages, ExceptT.run_bind, ExceptT.run_bind, hbind, hbind]
      cases hpage : (Program.runUnder i (page settings schedule started cutoff cursor result).run
        weather h).1 with
      | error e => rfl
      | ok step =>
        cases step with
        | stop r => rfl
        | next k r =>
          have hlt := hshrinks _ hpage k rfl
          exact ih hm.orderly (by omega) (by omega) _

/-- The clock has shown a time whenever it was asked. -/
def Timed (xs : List (Exchange α)) : Prop := ∀ time, ⟨.now, time⟩ ∈ xs → time.isOk = true

/-- Only the clock keeps a portion from coming to a result. -/
theorem Portion.exists_step {started : Instant} {xs : List (Exchange α)} {y : Except Overflow Step}
    (h : Portion settings schedule started cutoff cursor result xs y) (ht : Timed xs) :
    ∃ step, y = .ok step := by
  cases h with
  | @noTime e =>
    have hnow := ht (.error e) List.mem_cons_self
    cases hnow
  | exhausted _ => exact ⟨_, rfl⟩
  | unfetched _ => exact ⟨_, rfl⟩
  | empty _ _ => exact ⟨_, rfl⟩
  | aborted _ _ => exact ⟨_, rfl⟩
  | kept _ _ _ => exact ⟨_, rfl⟩

/-- Only the clock keeps a sweep with a cutoff from coming to a result. -/
theorem Portions.exists_result {started : Instant} {limit : ℕ} {xs : List (Exchange α)}
    {y : Except Overflow SweepResult}
    (h : Portions settings schedule started cutoff limit cursor result xs y) (ht : Timed xs) :
    ∃ r, y = .ok r := by
  induction h with
  | unlimited => exact ⟨_, rfl⟩
  | failed hp =>
    obtain ⟨step, hstep⟩ := hp.exists_step ht
    cases hstep
  | stop hp => exact ⟨_, rfl⟩
  | next hp _ ih => exact ih fun time htime => ht time (List.mem_append_right _ htime)

end Sweep

/-! ## Every sweep -/

/-- Settings that pass the check have pages of at least one day. -/
theorem SweepSettings.pageSize_pos {settings : SweepSettings} (hv : settings.validate = .ok ()) :
    0 < settings.pageSize.toNat := by
  rw [Nat.pos_iff_ne_zero, ← UInt64.toNat_zero, Ne, UInt64.toNat_inj]
  intro hzero
  rw [validate, if_pos hzero] at hv
  cases hv

namespace LoneSweep

open Sweep

variable [Quantity α] {s : LoneSweep α} {h : History ι α} {now cutoff : Instant} {i : ι}

/-- Without a cutoff, a sweep fails in the way the cutoff does. -/
theorem run_eq_error (hnow : (s.weather 0).now = .ok now) {e : Overflow}
    (hcutoff : Sweep.cutoff now s.lookbackHours = .error e) (i : ι) (h : History ι α) :
    s.run i h = (.error e, h) := by
  rw [run_eq, hnow]
  dsimp only
  rw [hcutoff]

/-- A sweep with a cutoff comes to one result, however many portions are allowed, if they are more
    than the open days. -/
theorem exists_result (ho : h.Orderly) (hsize : 0 < s.settings.pageSize.toNat)
    (hclock : ∀ n, ∃ t, (s.weather n).now = .ok t) (hnow : (s.weather 0).now = .ok now)
    (hcutoff : Sweep.cutoff now s.lookbackHours = .ok cutoff) :
    ∃ r, ∀ limit, h.store.views.size < limit → ({ s with limit := limit }.run i h).1 = .ok r := by
  have hlimit {limit : ℕ} (hl : h.store.views.size < limit) :
      (h.store.openDays cutoff none).values.length < limit :=
    ho.sound.length_openDays_le.trans_lt hl
  obtain ⟨xs, hxs, htimes⟩ := Program.exists_traces_runUnder i
    (pages s.settings s.schedule now cutoff (h.store.views.size + 1) none .start).run
    (fun n => s.weather (n + 1)) h
  obtain ⟨r, hr⟩ := (pages_traces hxs).exists_result fun time htime => by
    obtain ⟨n, hn⟩ := htimes time htime
    obtain ⟨t, ht⟩ := hclock (n + 1)
    rw [← hn, ht]
    rfl
  refine ⟨r, fun limit hl => ?_⟩
  rw [run_eq_pages (s := { s with limit := limit }) hnow hcutoff]
  dsimp only
  rw [runUnder_pages_eq s.weaves hsize now ho (hlimit hl) (hlimit (Nat.lt_succ_self _)), hr]

/-- A sweep with settings that pass the check, after any readings and sweeps, while the clock shows
    any times and the store refuses any calls. Its cutoff is not later than now, and neither the
    time that has passed nor the budget leaves the lengths of time. It comes to a result, which does
    not depend on how many portions are allowed, exactly if the calendar reaches back over its
    lookback; and if it does not, the sweep fails before it has asked the store for anything. -/
theorem sweep_returns [DecidableEq ι] (jobs : ι → Job α) (moves : List (Move ι)) (i : ι)
    (hvalid : s.settings.validate = .ok ()) (hclock : ∀ n, ∃ t, (s.weather n).now = .ok t)
    (hnow : (s.weather 0).now = .ok now) :
    let h := ((Traffic.start fun j => (jobs j).program).run moves).history
    (∀ cutoff, Sweep.cutoff now s.lookbackHours = .ok cutoff → cutoff ≤ now) ∧
      (∀ t : Instant, (-longest ≤ t.since now ∧ t.since now ≤ longest) ∧
        ((s.settings.timeBudget.nanoseconds : ℤ) < t.since now ↔
          min (s.settings.timeBudget.nanoseconds : ℤ) longest < t.since now)) ∧
      (Reaches now s.lookbackHours → ∃ r, ∀ limit, h.store.views.size < limit →
        ({ s with limit := limit }.run i h).1 = .ok r) ∧
      (¬ Reaches now s.lookbackHours →
        ∀ limit, { s with limit := limit }.run i h = (.error .calendar, h)) := by
  intro h
  have ho : h.Orderly := orderly_of_jobs jobs moves
  refine ⟨fun cutoff hcutoff => cutoff_le hcutoff,
    fun t => ⟨since_le_longest t now, over_budget_iff _ t now⟩, fun hreaches => ?_,
    fun hreaches limit => ?_⟩
  · obtain ⟨cutoff, hcutoff⟩ := exists_cutoff_iff.2 hreaches
    exact exists_result ho (SweepSettings.pageSize_pos hvalid) hclock hnow hcutoff
  · exact run_eq_error (s := { s with limit := limit }) hnow (cutoff_eq_error hreaches) i h

/-- A sweep after one reading, whose first page the store refuses. -/
theorem sweep_returns_refused :
    let jobs : Fin 1 → Job ℚ := ![.reading .standard (reading "first" 10)]
    let h := ((Traffic.start fun j => (jobs j).program).run (twoDaysLater [0, 0, 0, 0, 0])).history
    let s := onTheThirteenth 100 fun n => if n = 2 then some .lock else none
    h.store.views.size = 3 ∧ ∃ r, r.success = false ∧
      ∀ limit, 3 < limit → ({ s with limit := limit }.run 0 h).1 = .ok r := by
  intro jobs h s
  have hsize : h.store.views.size = 3 := by decide +kernel
  have hvalid : s.settings.validate = .ok () := by decide
  obtain ⟨-, -, hreturns, -⟩ := sweep_returns (s := s) jobs (twoDaysLater [0, 0, 0, 0, 0]) 0 hvalid
    (fun _ => ⟨_, rfl⟩) rfl
  obtain ⟨r, hr⟩ := hreturns (by decide +kernel)
  have hstopped : (s.run 0 h).1.map SweepResult.success = .ok false := by decide +kernel
  have hrun : (s.run 0 h).1 = .ok r := hr 20 (by rw [hsize]; decide)
  rw [hrun] at hstopped
  exact ⟨hsize, r, Except.ok.inj hstopped, fun limit hl => hr limit (hsize ▸ hl)⟩

/-- The longest lookback goes back before the first year of the calendar. The sweep fails with
    settings that pass the check, a clock that shows the time, and a store that answers every
    call. -/
theorem longest_lookback_fails :
    let jobs : Fin 1 → Job ℚ := ![.reading .standard (reading "first" 10)]
    let h := ((Traffic.start fun j => (jobs j).program).run (twoDaysLater [0, 0, 0, 0, 0])).history
    let s := { onTheThirteenth 100 fun _ => none with lookbackHours := 4294967295 }
    s.settings.validate = .ok () ∧ (∀ n, ∃ t, s.weather n = ⟨.ok t, none⟩) ∧
      h.store.views.size = 3 ∧
      ∀ limit, ({ s with limit := limit }.run 0 h).1 = .error .calendar := by
  intro jobs h s
  have hcutoff : Sweep.cutoff ((Instant.ofSeconds? 1757746800).get (by decide)) 4294967295 =
      .error .calendar := by decide +kernel
  exact ⟨by decide, fun _ => ⟨_, rfl⟩, by decide +kernel, fun limit =>
    congrArg Prod.fst (run_eq_error (s := { s with limit := limit }) rfl hcutoff 0 h)⟩

end LoneSweep

end WeatherStation
