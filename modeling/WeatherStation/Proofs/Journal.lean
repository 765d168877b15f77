import WeatherStation.Proofs.Sweep.Chain
import WeatherStation.Proofs.Sweep.Inherited

/-!
# Journals

Readings and sweeps, one after the other, in any order. Each has the store to itself and ends before
the next one begins. A reading that is refused leaves behind what it wrote before, and so does a
sweep that breaks off.

Results:
* `Journal.run`: what the calls of a journal leave behind.
* `Journal.Along`: what holds of every call, at the time when it begins.
* `Journal.run_induction`: what each call keeps, the journal keeps.
* `Entry.after_sweep_of_idle`, `Entry.midway_after`, `Entry.window_cases`: what is known after a
  sweep.
* `Entry.runsThrough_of_clock`: a sweep for which the time suffices.
* `Entry.inherits_after`: a property that windows hand on.
-/

namespace WeatherStation

variable {α : Type} [Quantity α]

/-- The same sweep, with portions enough for all that is stored. -/
def LoneSweep.ample (s : LoneSweep α) (h : History Unit α) : LoneSweep α :=
  { s with limit := h.store.views.size + 1 }

/-- A call of a journal: a reading that is delivered, or a sweep. -/
inductive Entry (α : Type) where
  | reading (settings : IngestSettings) (r : Reading α)
  | sweep (s : LoneSweep α)

namespace Entry

/-- A clock that nobody asks. -/
def noClock : Except Overflow Instant := .error .calendar

/-- What is stored after the call. -/
def after (h : History Unit α) : Entry α → History Unit α
  | reading settings r =>
    ((Ingest.apply settings r).run.runUnder () (fun _ => ⟨noClock, none⟩) h).2
  | sweep s => ((s.ample h).run () h).2

/-- A reading is taken in; nothing is asked of a sweep. -/
def Succeeds (h : History Unit α) : Entry α → Prop
  | reading settings r => ∃ o, ((Ingest.apply settings r).alone noClock h.store).1 = .ok o
  | sweep _ => True

/-- A sweep that has a cutoff, and room for a day on its pages, is answered by the store and does
    not run out of time. Nothing is asked of any other sweep, which does nothing, nor of a reading,
    which may be refused. -/
def RunsThrough (h : History Unit α) : Entry α → Prop
  | reading _ _ => True
  | sweep s => 0 < s.settings.pageSize.toNat →
    ∀ cutoff, s.CutsAt cutoff → (s.ample h).RunsThrough () h

variable {h : History Unit α}

theorem store_after_reading (settings : IngestSettings) (r : Reading α) (h : History Unit α) :
    ((reading settings r).after h).store = ((Ingest.apply settings r).alone noClock h.store).2 :=
  (Program.runUnder_eq_run () noClock (Ingest.apply settings r).run h).2

/-- What a reading keeps on a shared store, it keeps on a store of its own. -/
theorem inv_after_reading {T : Terms Unit α}
    {post : Except (Failure IngestError) IngestOutcome → History Unit α → Prop}
    {settings : IngestSettings} {r : Reading α} (hs : (Ingest.apply settings r).Safe T post h)
    (hi : T.inv h) : T.inv ((reading settings r).after h) :=
  (Program.Safe.runUnder hs hi fun _ hn => by cases hn).1

/-- Without room for a day on its pages, or without a cutoff, a sweep does nothing. -/
theorem after_sweep_of_idle {s : LoneSweep α}
    (hs : ¬ (0 < s.settings.pageSize.toNat ∧ ∃ cutoff, s.CutsAt cutoff)) (h : History Unit α) :
    (sweep s).after h = h := by
  by_cases hpage : 0 < s.settings.pageSize.toNat
  · have hcut : ∀ cutoff, ¬ (s.ample h).CutsAt cutoff := fun cutoff hc => hs ⟨hpage, cutoff, hc⟩
    obtain ⟨e, he⟩ := LoneSweep.run_of_no_cutoff hcut () h
    exact congrArg Prod.snd he
  · exact LoneSweep.run_idle (s := s.ample h) (Nat.eq_zero_of_not_pos hpage) () h

/-- A sweep leaves the store alone, or has a cutoff, up to which it may have broken off. -/
theorem midway_after (ho : h.Orderly) (s : LoneSweep α) :
    (sweep s).after h = h ∨ ∃ cutoff, Sweep.Midway h cutoff ((sweep s).after h) := by
  by_cases hcut : ∃ cutoff, s.CutsAt cutoff
  · obtain ⟨cutoff, hcut⟩ := hcut
    exact .inr ⟨cutoff, LoneSweep.midway_run (s := s.ample h) hcut (Sweep.midway_refl ho cutoff)⟩
  · exact .inl (after_sweep_of_idle (fun hs => hcut hs.2) h)

/-- A sweep leaves a window as it was, or it is a day that is sealed now. -/
theorem window_cases (ho : h.Orderly) (s : LoneSweep α) (g : Granularity) (device : String)
    (t : Instant) :
    ((sweep s).after h).store.get? (g.id device t).key = h.store.get? (g.id device t).key ∨
      g = .daily ∧ ∃ d, ((sweep s).after h).store.get? (g.id device t).key = some (.daily d) ∧
        d.isSealed = true := by
  rcases midway_after ho s with hsame | ⟨cutoff, hm⟩
  · exact .inl (by rw [hsame])
  · exact hm.window_cases g device t

/-- A sweep that keeps within its budget whenever it may look at the clock runs through, whatever is
    stored. -/
theorem runsThrough_of_clock {s : LoneSweep α} (hanswered : ∀ n, (s.weather n).fault = none)
    {started : Instant} (hstarted : (s.weather 0).now = .ok started)
    (hclock : ∀ n, ∃ now, (s.weather n).now = .ok now ∧
      now.since started ≤ (s.settings.timeBudget.nanoseconds : ℤ)) (h : History Unit α) :
    (sweep s).RunsThrough h := by
  rintro hpage cutoff ⟨started', hstarted', hcutoff⟩
  rw [hstarted, Except.ok.injEq] at hstarted'
  subst hstarted'
  exact ⟨hpage, hanswered, Nat.lt_succ_self _,
    LoneSweep.in_time_of_clock (s := s.ample h) hstarted hcutoff hclock () h⟩

/-- A property that windows hand on lasts. -/
theorem inherits_after {Q : (g : Granularity) → WindowView g α → Prop}
    {among : IngestSettings → Reading α → Prop} (hQ : WindowView.Inherited among Q)
    (hi : h.Inherits Q) {e : Entry α}
    (he : ∀ settings r, e = reading settings r → among settings r) : (e.after h).Inherits Q := by
  cases e with
  | reading settings r =>
    exact inv_after_reading (Sweep.apply_safe_inherited hQ () (he settings r rfl) h) hi
  | sweep s =>
    have hsafe : Client.Safe (Sweep.inheritedTerms Q ()) (fun _ _ => True)
        (Sweep.execute s.settings s.schedule (h.store.views.size + 1) s.lookbackHours) h :=
      Sweep.execute_safe (Sweep.maySweep_inherited hQ ()) s.weaves _ _
    exact (Program.Safe.runUnder hsafe hi fun _ _ => trivial).1

end Entry

namespace Journal

/-- What is stored after some calls, one after the other, if nothing was stored before. -/
def run (entries : List (Entry α)) : History Unit α :=
  entries.foldl (fun h e => e.after h) History.empty

/-- Every call satisfies `p` at the time when it begins. -/
def Along (p : History Unit α → Entry α → Prop) : List (Entry α) → History Unit α → Prop
  | [], _ => True
  | e :: rest, h => p h e ∧ Along p rest (e.after h)

/-- What holds of all calls holds of every call at the time when it begins. -/
theorem Along.and_mem {p : History Unit α → Entry α → Prop} {q : Entry α → Prop}
    {entries : List (Entry α)} {h : History Unit α} (hp : Along p entries h)
    (hq : ∀ e ∈ entries, q e) : Along (fun h e => p h e ∧ q e) entries h := by
  induction entries generalizing h with
  | nil => trivial
  | cons e rest ih =>
    exact ⟨⟨hp.1, hq e List.mem_cons_self⟩, ih hp.2 fun e he => hq e (List.mem_cons_of_mem _ he)⟩

/-- What holds in the beginning and is kept by every call holds in the end. It may speak of the
    calls that were made so far. -/
theorem run_induction {p : History Unit α → Entry α → Prop}
    {J : List (Entry α) → History Unit α → Prop} (hstart : J [] .empty)
    (hstep : ∀ {before h e}, J before h → p h e → J (before ++ [e]) (e.after h))
    {entries : List (Entry α)} (hp : Along p entries .empty) : J entries (run entries) := by
  have hrest (before rest : List (Entry α)) (h : History Unit α) (hJ : J before h)
      (hp : Along p rest h) : J (before ++ rest) (rest.foldl (fun h e => e.after h) h) := by
    induction rest generalizing before h with
    | nil => rwa [List.append_nil]
    | cons e rest ih =>
      rw [List.append_cons]
      exact ih _ _ (hstep hJ hp.1) hp.2
  exact hrest [] entries .empty hstart hp

end Journal

end WeatherStation
