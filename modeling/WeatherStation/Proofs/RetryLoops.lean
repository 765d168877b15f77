import WeatherStation.Ingest
import WeatherStation.Proofs.Exact
import WeatherStation.Proofs.Traffic.Attempts
import WeatherStation.Proofs.View.Fold
import WeatherStation.Proofs.View.Weeks

/-!
# Retry loops

A window that takes a reading in and a week that takes days in are changed in the same way: in
attempts that are repeated after conflicts. Both loops come to an end against every store, make at
least one attempt and no more than their settings allow, and report what their last write came to.
An attempt that reads an open window without the reading, or a week, tries to write it, unless the
reading or the days are refused.

Results:
* `Ingest.makes_windowLoop`, `Rollup.makes_weekLoop`: what an attempt tries to write.
* `Ingest.attempts_attemptWindow`, `Rollup.attempts_attemptWeek`: the attempts of both loops.
* `Ingest.foldIntoWindow_eq`, `Rollup.syncWeek_eq`: both loops as instances of one.
* `retry_loops`: what they write, when they go on, and what they report.
-/

namespace WeatherStation

variable {α σ : Type}

namespace Ingest

variable {settings : IngestSettings} {g : Granularity} {r : Reading α}
  {buckets : Option (Buckets α)} {start : Instant}

theorem recognise_window {v : Option (View α)} {key : String} {stored : Option (WindowView g α)}
    (h : Client.recognise g.kind (View.window? g) key v = .ok stored) :
    v = stored.map .ofWindow := by
  cases v with
  | none =>
    cases h
    rfl
  | some v => cases g <;> cases v <;> cases h <;> rfl

/-- The version of the window that was read is that of the view. -/
theorem version_recognise {v : Option (View α)} {key : String} {stored : Option (WindowView g α)}
    (h : Client.recognise g.kind (View.window? g) key v = .ok stored) :
    (stored.getD (.empty r.device start)).version = v.bind View.version := by
  rw [recognise_window h]
  cases stored with
  | none => rfl
  | some w => cases g <;> rfl

variable [Quantity α]

/-- What becomes of a window that was read: nothing, or a window to write. -/
def windowPlan (settings : IngestSettings) (r : Reading α) (buckets : Option (Buckets α))
    (w : WindowView g α) : Except (Failure IngestError) (WindowUpdate ⊕ View α) :=
  if w.isSealed then .ok (.inl .isSealed)
  else if w.applied.contains r.sourceId then .ok (.inl .duplicate)
  else ((w.fold settings r buckets).mapError (Failure.map .tally)).map (.inr ∘ .ofWindow)

/-- A window that takes no more readings is left as it is. -/
theorem windowPlan_of_isSealed {w : WindowView g α} (h : w.isSealed = true) :
    windowPlan settings r buckets w = .ok (.inl .isSealed) := if_pos h

/-- A window that has seen the reading is left as it is. -/
theorem windowPlan_of_applied {w : WindowView g α} (h : w.isSealed = false)
    (happlied : w.applied.contains r.sourceId = true) :
    windowPlan settings r buckets w = .ok (.inl .duplicate) := by
  rw [windowPlan, h, if_neg Bool.false_ne_true, if_pos happlied]

/-- A reading is folded into a window that is open and has not seen it. -/
theorem windowPlan_of_fold {w folded : WindowView g α} (h : w.isSealed = false)
    (happlied : w.applied.contains r.sourceId = false)
    (hfold : w.fold settings r buckets = .ok folded) :
    windowPlan settings r buckets w = .ok (.inr (.ofWindow folded)) := by
  rw [windowPlan, h, if_neg Bool.false_ne_true, happlied, if_neg Bool.false_ne_true, hfold]
  rfl

/-- How a reading is folded into a window. -/
def windowLoop (settings : IngestSettings) (g : Granularity) (r : Reading α)
    (buckets : Option (Buckets α)) (start : Instant) :
    Loop α (Failure IngestError) WindowUpdate where
  key := (g.id r.device start).key
  plan v := do
    let stored ← (Client.recognise g.kind (View.window? g) (g.id r.device start).key v).mapError
      storeFailure
    windowPlan settings r buckets (stored.getD (.empty r.device start))
  written := .updated
  pause := none
  failure := storeFailure
  exhausted := storeFailure

theorem plan_windowLoop_ok {stored : Option (View α)} {y : WindowUpdate ⊕ View α}
    (h : (windowLoop settings g r buckets start).plan stored = .ok y) :
    ∃ found : Option (WindowView g α), stored = found.map .ofWindow ∧
      windowPlan settings r buckets (found.getD (.empty r.device start)) = .ok y := by
  obtain ⟨found, hread, hplan⟩ := bind_eq_ok.1 h
  exact ⟨found, recognise_window (mapError_eq_ok hread), hplan⟩

/-- The window that is stored, or the empty one, decides what becomes of an attempt. -/
theorem plan_windowLoop (found : Option (WindowView g α)) :
    (windowLoop settings g r buckets start).plan (found.map .ofWindow) =
      windowPlan settings r buckets (found.getD (.empty r.device start)) := by
  cases found with
  | none => rfl
  | some w =>
    change (Client.recognise g.kind (View.window? g) _ (some (.ofWindow w))).mapError _ >>= _ = _
    rw [Client.recognise, View.window?_ofWindow]
    rfl

/-- The view is the window that was read with the reading folded in, which it had not been before;
    where nothing is stored, the reading is folded into the empty window. -/
def Folds (settings : IngestSettings) (g : Granularity) (r : Reading α)
    (buckets : Option (Buckets α)) (start : Instant) (stored : Option (View α)) (v : View α) :
    Prop :=
  ∃ (found : Option (WindowView g α)) (folded : WindowView g α), stored = found.map .ofWindow ∧
    (found.getD (.empty r.device start)).isSealed = false ∧
    (found.getD (.empty r.device start)).applied.contains r.sourceId = false ∧
    (found.getD (.empty r.device start)).fold settings r buckets = .ok folded ∧ v = .ofWindow folded

theorem makes_windowLoop {stored : Option (View α)} {v : View α} :
    (windowLoop settings g r buckets start).Makes stored v ↔
      Folds settings g r buckets start stored v := by
  constructor
  · intro h
    obtain ⟨found, hread, hplan⟩ := plan_windowLoop_ok h
    rw [windowPlan] at hplan
    split_ifs at hplan with hsealed happlied
    · cases hplan
    · cases hplan
    obtain ⟨folded, hfold, hv⟩ := map_eq_ok hplan
    exact ⟨found, folded, hread, by simpa using hsealed, by simpa using happlied,
      mapError_eq_ok hfold, (Sum.inr.inj hv).symm⟩
  · rintro ⟨found, folded, rfl, hopen, happlied, hfold, rfl⟩
    exact (plan_windowLoop found).trans (windowPlan_of_fold hopen happlied hfold)

/-- Only a write updates a window. -/
theorem plan_windowLoop_ne_updated (stored : Option (View α)) :
    (windowLoop settings g r buckets start).plan stored ≠ .ok (.inl .updated) := fun h => by
  obtain ⟨found, -, hplan⟩ := plan_windowLoop_ok h
  rw [windowPlan] at hplan
  split_ifs at hplan
  · cases hplan
  · cases hplan
  obtain ⟨folded, -, hv⟩ := map_eq_ok hplan
  cases hv

/-- Only the store reports a conflict. -/
theorem plan_windowLoop_ne_conflict {stored : Option (View α)} {e : Failure IngestError}
    (h : (windowLoop settings g r buckets start).plan stored = .error e) (key : String) :
    e ≠ storeFailure (.conflict key) := by
  rcases bind_eq_error.1 h with hread | ⟨found, -, hplan⟩
  · obtain ⟨e', he', rfl⟩ := mapError_eq_error hread
    cases stored with
    | none => cases he'
    | some v =>
      rw [Client.recognise] at he'
      split at he'
      · cases he'
      · cases he'
        exact fun hkey => by cases hkey
  · rw [windowPlan] at hplan
    split_ifs at hplan
    obtain ⟨e', -, rfl⟩ := mapError_eq_error (map_eq_error hplan)
    cases e' <;> exact fun hkey => by cases hkey

theorem attempts_attemptWindow : (windowLoop settings g r buckets start).Attempts
    (attemptWindow settings g r buckets start) := by
  refine Loop.attempts_getAs_bind (l := windowLoop settings g r buckets start) (fun _ => rfl)
    fun v stored hread hplan ys x h => ?_
  have hversion : (stored.getD (.empty r.device start)).version = v.bind View.version :=
    version_recognise hread
  dsimp only at h hplan
  generalize stored.getD (.empty r.device start) = w at h hplan hversion
  rw [windowPlan] at hplan
  split_ifs at h hplan with hsealed happlied
  · obtain ⟨rfl, rfl⟩ := Client.traces_pure.1 h
    exact ⟨⟨.ok v, none⟩, rfl, .settled hplan⟩
  · obtain ⟨rfl, rfl⟩ := Client.traces_pure.1 h
    exact ⟨⟨.ok v, none⟩, rfl, .settled hplan⟩
  rcases Client.traces_compute_bind.1 h with ⟨folded, hfold, h⟩ | ⟨e, hfold, rfl, rfl⟩
  · have hfolded : folded.version = w.version :=
      (WindowView.fold_frame (mapError_eq_ok hfold)).version
    rw [hfold] at hplan
    obtain ⟨reply, xs₁, xs₂, rfl, h₁, h₂⟩ := Client.traces_lift_bind.1 h
    obtain rfl := Program.traces_request.1 h₁
    obtain ⟨rfl, rfl⟩ := Client.traces_pure.1 h₂
    rw [hfolded, hversion]
    exact ⟨_, rfl, .tried reply hplan⟩
  · rw [hfold] at hplan
    exact ⟨⟨.ok v, none⟩, rfl, .failed hplan⟩

/-- A window is tried like this. -/
theorem foldIntoWindow_eq (retries : ℕ) : foldIntoWindow settings g r buckets start retries =
    (windowLoop settings g r buckets start).run (attemptWindow settings g r buckets start)
      retries := by
  induction retries with
  | zero =>
    rw [foldIntoWindow, Loop.run]
    refine congrArg (_ >>= ·) (funext fun x => ?_)
    cases x with
    | ok update => rfl
    | error e => exact congrArg throw (ite_self _).symm
  | succ retries ih =>
    rw [foldIntoWindow, Loop.run, ih]
    refine congrArg (_ >>= ·) (funext fun x => ?_)
    cases x <;> rfl

theorem foldIntoWindow_retried {n : ℕ} {xs : List (Exchange α)}
    {x : Except (Failure IngestError) WindowUpdate}
    (h : (foldIntoWindow settings g r buckets start n).Traces xs x)
    (hread : ∀ key k, ⟨.get key, .error (.conflict k)⟩ ∉ xs) :
    ∃ attempts, xs = attempts.flatMap (Attempt.exchanges (g.id r.device start).key) ∧
      Retried (Folds settings g r buckets start) (n + 1) attempts ∧
      (x = .ok .updated ↔ ∃ a ∈ attempts.getLast?, a.Wrote) ∧
      (∀ a ∈ attempts, ∀ w : WindowView g α, a.read = .ok (some (.ofWindow w)) →
        (w.isSealed = true → a.write = none ∧ x = .ok .isSealed) ∧
        (w.isSealed = false → w.applied.contains r.sourceId = true →
          a.write = none ∧ x = .ok .duplicate)) ∧
      ((∃ key, x = .error (storeFailure (.conflict key))) ↔
        attempts.length = n + 1 ∧ ∀ a ∈ attempts, a.Lost) := by
  rw [foldIntoWindow_eq] at h
  obtain ⟨attempts, rfl, hran⟩ := Loop.traces_run attempts_attemptWindow h
  refine ⟨attempts, ?_, hran.retried.congr fun _ _ => makes_windowLoop, ?_, ?_, ?_⟩
  · exact (Loop.intercalate_nil _).trans List.flatMap_def.symm
  · exact hran.written_iff plan_windowLoop_ne_updated
  · intro a ha w hw
    have hplan : (windowLoop settings g r buckets start).plan (some (.ofWindow w)) =
        windowPlan settings r buckets w := plan_windowLoop (some w)
    refine ⟨fun hsealed => ?_, fun hopen happlied => ?_⟩
    · exact hran.settled ha hw (hplan.trans (windowPlan_of_isSealed hsealed))
    · exact hran.settled ha hw (hplan.trans (windowPlan_of_applied hopen happlied))
  · have hexhausted := hran.exhausted_iff (fun e => ∃ key, e = storeFailure (.conflict key))
      (hread _)
      (fun _ _ hplan ⟨key, hkey⟩ => plan_windowLoop_ne_conflict hplan key hkey)
      (fun e ⟨key, hkey⟩ => by cases hkey; rfl) fun key => ⟨key, rfl⟩
    rw [← hexhausted]
    constructor
    · rintro ⟨key, hx⟩
      exact ⟨_, hx, key, rfl⟩
    · rintro ⟨_, hx, key, rfl⟩
      exact ⟨key, hx⟩

end Ingest

namespace Rollup

variable {settings : SweepSettings} {device : String} {week : IsoWeek} {days : List (DailyView α)}

theorem recognise_week {v : Option (View α)} {key : String} {stored : Option (WeeklyView α)}
    (h : Client.recognise .weekly (View.ofKind? .weekly) key v = .ok stored) :
    v = stored.map .weekly := by
  cases v with
  | none =>
    cases h
    rfl
  | some v =>
    cases v <;> cases h
    rfl

/-- The version of the week that was read is that of the view. -/
theorem version_recognise {v : Option (View α)} {key : String} {stored : Option (WeeklyView α)}
    (h : Client.recognise .weekly (View.ofKind? .weekly) key v = .ok stored) :
    (stored.getD (.empty device week)).version = v.bind View.version := by
  rw [recognise_week h]
  cases stored <;> rfl

variable [Quantity α]

/-- What becomes of a week that was read: days are written into it. -/
def weekPlan (days : List (DailyView α)) (w : WeeklyView α) :
    Except RollupError (String ⊕ View α) :=
  ((applyDays days w).mapError .day).map (.inr ∘ .weekly)

/-- How days are written into a week. -/
def weekLoop (settings : SweepSettings) (device : String) (week : IsoWeek)
    (days : List (DailyView α)) : Loop α RollupError String where
  key := (ViewId.weekly device week).key
  plan v := do
    let stored ← (Client.recognise .weekly (View.ofKind? .weekly)
      (ViewId.weekly device week).key v).mapError .store
    weekPlan days (stored.getD (.empty device week))
  written := (ViewId.weekly device week).key
  pause := some settings.pause
  failure := .store
  exhausted _ := .retriesExhausted device week settings.attempts

/-- The view is the week that was read with all days written into it; where nothing is stored, the
    days are written into the empty week. -/
def Writes (device : String) (week : IsoWeek) (days : List (DailyView α))
    (stored : Option (View α)) (v : View α) : Prop :=
  ∃ (found : Option (WeeklyView α)) (w : WeeklyView α), stored = found.map .weekly ∧
    applyDays days (found.getD (.empty device week)) = .ok w ∧ v = .weekly w

/-- The week that is stored, or the empty one, decides what becomes of an attempt. -/
theorem plan_weekLoop (found : Option (WeeklyView α)) :
    (weekLoop settings device week days).plan (found.map .weekly) =
      weekPlan days (found.getD (.empty device week)) := by
  cases found <;> rfl

theorem makes_weekLoop {stored : Option (View α)} {v : View α} :
    (weekLoop settings device week days).Makes stored v ↔ Writes device week days stored v := by
  constructor
  · intro h
    obtain ⟨found, hread, hplan⟩ := bind_eq_ok.1 h
    obtain ⟨w, happly, hv⟩ := map_eq_ok hplan
    exact ⟨found, w, recognise_week (mapError_eq_ok hread), mapError_eq_ok happly,
      (Sum.inr.inj hv).symm⟩
  · rintro ⟨found, w, rfl, happly, rfl⟩
    refine (plan_weekLoop found).trans ?_
    rw [weekPlan, happly]
    rfl

/-- A week is done only if it is written. -/
theorem plan_weekLoop_ne_inl (stored : Option (View α)) (key : String) :
    (weekLoop settings device week days).plan stored ≠ .ok (.inl key) := fun h => by
  obtain ⟨found, -, hplan⟩ := bind_eq_ok.1 h
  obtain ⟨w, -, hv⟩ := map_eq_ok hplan
  cases hv

/-- A week whose days are refused does not use up the attempts. -/
theorem plan_weekLoop_ne_exhausted {stored : Option (View α)} {e : RollupError}
    (h : (weekLoop settings device week days).plan stored = .error e) (n : ℕ) :
    e ≠ .retriesExhausted device week n := by
  rcases bind_eq_error.1 h with hread | ⟨found, -, hplan⟩
  · obtain ⟨e', -, rfl⟩ := mapError_eq_error hread
    exact fun he => by cases he
  · obtain ⟨e', -, rfl⟩ := mapError_eq_error (map_eq_error hplan)
    exact fun he => by cases he

theorem attempts_attemptWeek : (weekLoop settings device week days).Attempts do
    return (← attemptWeek device week days).map fun _ => (ViewId.weekly device week).key := by
  rw [attemptWeek, bind_assoc]
  refine Loop.attempts_getAs_bind (l := weekLoop settings device week days) (fun _ => rfl)
    fun v stored hread hplan ys x h => ?_
  have hversion : (stored.getD (.empty device week)).version = v.bind View.version :=
    version_recognise hread
  rw [bind_assoc] at h
  generalize stored.getD (.empty device week) = w at h hplan hversion
  rcases Client.traces_compute_bind.1 h with ⟨w', happly, h⟩ | ⟨e, happly, rfl, rfl⟩
  · have happlied : w'.version = w.version :=
      (WeeklyView.applyDays_sameWeek (mapError_eq_ok happly)).version
    rw [weekPlan, happly] at hplan
    obtain ⟨reply, xs₁, xs₂, rfl, h₁, h₂⟩ := Client.traces_lift_bind.1 h
    obtain rfl := Program.traces_request.1 h₁
    obtain ⟨rfl, rfl⟩ := Client.traces_pure.1 h₂
    rw [happlied, hversion]
    exact ⟨_, rfl, .tried reply hplan⟩
  · rw [weekPlan, happly] at hplan
    exact ⟨⟨.ok v, none⟩, rfl, .failed hplan⟩

/-- A week is tried like this. -/
theorem syncWeek_eq (retries : ℕ) : syncWeek settings device week days retries =
    (weekLoop settings device week days).run
      (do return (← attemptWeek device week days).map fun _ => (ViewId.weekly device week).key)
      retries := by
  induction retries with
  | zero =>
    rw [syncWeek, Loop.run, bind_assoc]
    refine congrArg (_ >>= ·) (funext fun x => ?_)
    cases x with
    | ok update => rfl
    | error e => rfl
  | succ retries ih =>
    rw [syncWeek, Loop.run, ih, bind_assoc]
    refine congrArg (_ >>= ·) (funext fun x => ?_)
    cases x <;> rfl

theorem syncWeek_retried {n : ℕ} {xs : List (Exchange α)} {x : Except RollupError String}
    (h : (syncWeek settings device week days n).Traces xs x)
    (hread : ∀ key k, ⟨.get key, .error (.conflict k)⟩ ∉ xs) :
    ∃ attempts, xs = [⟨.pause settings.pause, ()⟩].intercalate
        (attempts.map (Attempt.exchanges (ViewId.weekly device week).key)) ∧
      Retried (Writes device week days) (n + 1) attempts ∧
      (∀ key, x = .ok key ↔ key = (ViewId.weekly device week).key ∧
        ∃ a ∈ attempts.getLast?, a.Wrote) ∧
      (x = .error (.retriesExhausted device week settings.attempts) ↔
        attempts.length = n + 1 ∧ ∀ a ∈ attempts, a.Lost) := by
  rw [syncWeek_eq] at h
  obtain ⟨attempts, rfl, hran⟩ := Loop.traces_run attempts_attemptWeek h
  refine ⟨attempts, rfl, hran.retried.congr fun _ _ => makes_weekLoop, fun key => ?_, ?_⟩
  · constructor
    · intro hx
      obtain rfl := hran.eq_written plan_weekLoop_ne_inl hx
      exact ⟨rfl, (hran.written_iff fun stored => plan_weekLoop_ne_inl stored _).1 hx⟩
    · rintro ⟨rfl, hwrote⟩
      exact (hran.written_iff fun stored => plan_weekLoop_ne_inl stored _).2 hwrote
  · have hexhausted := hran.exhausted_iff
      (fun e => e = .retriesExhausted device week settings.attempts) (hread _)
      (fun _ _ hplan => plan_weekLoop_ne_exhausted hplan _) (fun e he => by cases he)
      fun _ => rfl
    rw [← hexhausted]
    exact ⟨fun hx => ⟨_, hx, rfl⟩, fun ⟨_, hx, he⟩ => he ▸ hx⟩

end Rollup

/-- Both loops, against a store that never refuses a look as a conflict: their attempts, and what
    they report. That their exchanges are kept does not change the result. -/
theorem retry_loops {α : Type} [Quantity α] (answer : (r : Request α) → σ → r.Reply × σ) (s : σ)
    (hread : ∀ key s k, (answer (.get key) s).1 ≠ .error (.conflict k)) :
    (∀ (settings : IngestSettings) (g : Granularity) (r : Reading α) (buckets : Option (Buckets α))
        (start : Instant),
      let most := max 1 settings.windowAttempts.toNat
      let loop := Ingest.foldIntoWindow settings g r buckets start
        (settings.windowAttempts.toNat - 1)
      let ran := (loop.run.traced.run answer s).1
      ran.1 = (loop.run.run answer s).1 ∧
      ∃ attempts, ran.2 = attempts.flatMap (Attempt.exchanges (g.id r.device start).key) ∧
        Retried (Ingest.Folds settings g r buckets start) most attempts ∧
        (ran.1 = .ok .updated ↔ ∃ a ∈ attempts.getLast?, a.Wrote) ∧
        (∀ a ∈ attempts, ∀ w : WindowView g α, a.read = .ok (some (.ofWindow w)) →
          (w.isSealed = true → a.write = none ∧ ran.1 = .ok .isSealed) ∧
          (w.isSealed = false → w.applied.contains r.sourceId = true →
            a.write = none ∧ ran.1 = .ok .duplicate)) ∧
        ((∃ key, ran.1 = .error (Ingest.storeFailure (.conflict key))) ↔
          attempts.length = most ∧ ∀ a ∈ attempts, a.Lost)) ∧
    ∀ (settings : SweepSettings) (device : String) (week : IsoWeek) (days : List (DailyView α)),
      let most := max 1 settings.weeklyAttempts.toNat
      let loop := Rollup.syncWeek settings device week days (settings.attempts - 1)
      let ran := (loop.run.traced.run answer s).1
      ran.1 = (loop.run.run answer s).1 ∧
      ∃ attempts, ran.2 = [⟨.pause settings.pause, ()⟩].intercalate
          (attempts.map (Attempt.exchanges (ViewId.weekly device week).key)) ∧
        Retried (Rollup.Writes device week days) most attempts ∧
        (∀ key, ran.1 = .ok key ↔ key = (ViewId.weekly device week).key ∧
          ∃ a ∈ attempts.getLast?, a.Wrote) ∧
        (ran.1 = .error (.retriesExhausted device week most) ↔
          attempts.length = most ∧ ∀ a ∈ attempts, a.Lost) := by
  have hlook {β : Type} (p : Program α β) (key k : String) :
      ⟨.get key, .error (.conflict k)⟩ ∉ (p.traced.run answer s).1.2 := fun hmem => by
    obtain ⟨s', hs'⟩ := Program.replies_of_run answer p s _ hmem
    exact hread key s' k hs'.symm
  constructor
  · intro settings g r buckets start most loop ran
    have hmost : settings.windowAttempts.toNat - 1 + 1 = most := by omega
    refine ⟨loop.run.fst_run_traced answer s, ?_⟩
    rw [← hmost]
    exact Ingest.foldIntoWindow_retried ((Program.traced_yields _).run answer s) (hlook _)
  · intro settings device week days most loop ran
    have hmost : settings.attempts - 1 + 1 = settings.attempts :=
      Nat.sub_add_cancel (le_max_left 1 _)
    have htraces : loop.Traces ran.2 ran.1 := (Program.traced_yields _).run answer s
    have hretried := Rollup.syncWeek_retried htraces (hlook _)
    rw [hmost] at hretried
    exact ⟨loop.run.fst_run_traced answer s, hretried⟩

/-- A store without views that refuses some more writes as conflicts. -/
def contendedStore : (r : Request ℚ) → ℕ → r.Reply × ℕ
  | .get _, n => (.ok none, n)
  | .write _ _, 0 => (.ok "1", 0)
  | .write v _, n + 1 => (.error (.conflict v.key), n)
  | .page _ _ _, n => (.ok ⟨[], none⟩, n)
  | .readMany _, n => (.ok [], n)
  | .now, n => (.error .calendar, n)
  | .pause _, n => ((), n)

/-- A reading of ten degrees. -/
def tenDegrees : Reading ℚ where
  device := "dev"
  source := some "a"
  time := (Instant.ofSeconds? 1757603700).get (by decide)
  values := ⟨some 10, none, none⟩
  rain := none

/-- The day of the reading, sealed. -/
def sealedEleventh : DailyView ℚ :=
  { WindowView.empty "dev" ((Instant.ofSeconds? 1757548800).get (by decide)) with isSealed := true }

/-- The third attempt writes the hour, and all five attempts to write the sealed day into its week
    meet conflicts. -/
theorem retry_loops_contended :
    (∃ attempts : List (Attempt ℚ), Retried
        (Ingest.Folds .standard .hourly tenDegrees none tenDegrees.time) 3 attempts ∧
      ∃ a ∈ attempts.getLast?, a.Wrote) ∧
    ∃ attempts : List (Attempt ℚ), Retried
        (Rollup.Writes "dev" (IsoWeek.of sealedEleventh.start.date) [sealedEleventh]) 5 attempts ∧
      attempts.length = 5 ∧ ∀ a ∈ attempts, a.Lost := by
  have hread (key : String) (n : ℕ) (k : String) :
      (contendedStore (.get key) n).1 ≠ .error (.conflict k) := fun h => by cases h
  obtain ⟨hwindows, -⟩ := retry_loops contendedStore 2 hread
  obtain ⟨-, hweeks⟩ := retry_loops contendedStore 5 hread
  constructor
  · obtain ⟨-, attempts, -, hretried, hwritten, -, -⟩ :=
      hwindows .standard .hourly tenDegrees none tenDegrees.time
    exact ⟨attempts, hretried, hwritten.1 (by decide +kernel)⟩
  · obtain ⟨-, attempts, -, hretried, -, hexhausted⟩ :=
      hweeks .standard "dev" (IsoWeek.of sealedEleventh.start.date) [sealedEleventh]
    exact ⟨attempts, hretried, hexhausted.1 (by decide +kernel)⟩

end WeatherStation
