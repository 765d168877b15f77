import WeatherStation.Proofs.Exact
import WeatherStation.Proofs.Ingest.Folded
import WeatherStation.Proofs.Ingest.Starts
import WeatherStation.Proofs.Traffic.Moves

/-!
# Contended windows

Any number of calls fold readings into the windows of one store at once, the same reading perhaps
several times, and their requests come in any order. No update is lost and none is made twice: a
stored window is the fold of the readings whose writes succeeded, in the order of these writes.

A call writes the windows that it reports as updated. The others it leaves alone, unless it comes to
one window twice: a leap second may be the start of a window, with the key of the hour before it.

Results:
* `Ingest.windowTerms`: the terms on which the calls share the store.
* `Ingest.Course`: the visits of a call, and the window at which it failed.
* `Ingest.Walk.written`: what a call has written is what its visits report.
* `Ingest.contended_windows`: windows are folds of successful writes, and calls report their writes.
-/

namespace WeatherStation

variable {ι α : Type} [DecidableEq ι] {g : Granularity}

namespace History

/-- The keys that a client has written, in order. -/
def written (h : History ι α) (i : ι) : List String :=
  (h.log.filter (·.1 = i)).map fun e => e.2.key

theorem written_put_self (h : History ι α) (i : ι) (v : View α) :
    (h.put i v).written i = h.written i ++ [v.key] := by
  simp [written, put]

theorem written_put_ne (h : History ι α) {i j : ι} (hij : j ≠ i) (v : View α) :
    (h.put i v).written j = h.written j := by
  simp [written, put, Ne.symm hij]

theorem mem_written_iff {h : History ι α} {i : ι} {key : String} :
    key ∈ h.written i ↔ i ∈ h.writers key := by
  simp only [written, writers, List.mem_map, List.mem_filter, decide_eq_true_eq]
  constructor
  · rintro ⟨e, ⟨he, rfl⟩, rfl⟩
    exact ⟨e, ⟨he, rfl⟩, rfl⟩
  · rintro ⟨e, ⟨he, rfl⟩, rfl⟩
    exact ⟨e, ⟨he, rfl⟩, rfl⟩

end History

namespace Ingest

/-! ## Courses of calls -/

/-- The windows that some visits updated. -/
def updatedStarts (visits : List (Instant × WindowUpdate)) : List Instant :=
  (visits.filter (·.2 = .updated)).map Prod.fst

/-- The visits of a call, and the window at which it failed. -/
structure Course where
  visits : List (Instant × WindowUpdate)
  failed : Option Instant

namespace Course

/-- The windows that a call came to. -/
def visited (c : Course) : List Instant := c.visits.map Prod.fst ++ c.failed.toList

/-- The windows that it updated. -/
def updated (c : Course) : List Instant := updatedStarts c.visits

/-- The windows that it found to have seen the reading or to be sealed, or failed at. -/
def idle (c : Course) : List Instant :=
  (c.visits.filter (¬ ·.2 = .updated)).map Prod.fst ++ c.failed.toList

theorem visited_perm (c : Course) : (c.updated ++ c.idle).Perm c.visited := by
  rw [updated, updatedStarts, idle, visited, ← List.append_assoc, ← List.map_append]
  refine List.Perm.append_right _ (List.Perm.map _ ?_)
  simpa using List.filter_append_perm (fun v : Instant × WindowUpdate => v.2 = .updated) c.visits

end Course

/-- The keys of some windows of a device. -/
def windowKeys (g : Granularity) (device : String) (starts : List Instant) : List String :=
  starts.map fun start => (g.id device start).key

/-- Of windows that a call updated once, it left none as it was iff it came to each of them once. -/
theorem Course.idle_iff (c : Course) (device : String)
    (hn : (windowKeys g device c.updated).Nodup) :
    (∀ key ∈ windowKeys g device c.idle, key ∉ windowKeys g device c.updated) ↔
      ∀ key ∈ windowKeys g device c.updated, (windowKeys g device c.visited).count key = 1 := by
  have hcount (key : String) : (windowKeys g device c.visited).count key =
      (windowKeys g device c.updated).count key + (windowKeys g device c.idle).count key := by
    rw [← List.count_append, windowKeys, windowKeys, windowKeys, ← List.map_append]
    exact ((c.visited_perm.map _).count_eq key).symm
  constructor
  · intro h key hkey
    rw [hcount, List.count_eq_one_of_mem hn hkey, List.count_eq_zero.2 fun hi => h key hi hkey]
  · intro h key hi hkey
    have hone := h key hkey
    have hidle := List.count_pos_iff.2 hi
    rw [hcount, List.count_eq_one_of_mem hn hkey] at hone
    omega

variable [Quantity α] {settings : IngestSettings} {r : Reading α} {reading : ι → Reading α}

/-- What a call answers at the end of its course. -/
def Course.Answers (settings : IngestSettings) (g : Granularity) (r : Reading α) (c : Course) :
    Except (Failure IngestError) WindowOutcome → Prop
  | .ok outcome => c.failed = none ∧ outcome = outcomeOf g r.device c.visits .empty ∧
      ∃ buckets, Touched settings g r buckets c.visited
  | .error _ =>
    if c.failed = none then c.visits = [] ∧ ∀ buckets starts, ¬ Touched settings g r buckets starts
    else ∃ buckets rest, Touched settings g r buckets (c.visited ++ rest)

/-- Outside leap seconds a call comes to no window twice. -/
theorem Course.Answers.nodup {c : Course} {x : Except (Failure IngestError) WindowOutcome}
    (hc : c.Answers settings g r x) (hl : r.time.isLeap = false) :
    (windowKeys g r.device c.visited).Nodup := by
  cases x with
  | ok outcome =>
    obtain ⟨-, -, buckets, ht⟩ := hc
    exact ht.nodup_keys hl
  | error e =>
    by_cases hf : c.failed = none
    · rw [Answers, if_pos hf] at hc
      simp [windowKeys, visited, hf, hc.1]
    · rw [Answers, if_neg hf] at hc
      obtain ⟨buckets, rest, ht⟩ := hc
      have hn := ht.nodup_keys hl
      rw [List.map_append] at hn
      exact hn.of_append_left

/-! ## Terms -/

/-- Calls share a store by adding to its record: nobody writes in the name of another, and windows
    stay folds. -/
def windowTerms (settings : IngestSettings) (reading : ι → Reading α) (i : ι) : Terms ι α where
  client := i
  inv := History.Folded settings reading
  rely h h' := h.log <+: h'.log ∧ h'.written i = h.written i
  grant h h' := h.log <+: h'.log ∧ ∀ j ≠ i, h'.written j = h.written j
  rely_refl _ := ⟨List.prefix_refl _, rfl⟩
  rely_trans h₁ h₂ := ⟨h₁.1.trans h₂.1, h₂.2.trans h₁.2⟩
  grant_refl _ := ⟨List.prefix_refl _, fun _ _ => rfl⟩

theorem mayFold_windowTerms {i : ι} {buckets : Option (Buckets α)} {starts : List Instant}
    (ht : Touched settings g (reading i) buckets starts) {start : Instant} (hs : start ∈ starts) :
    MayFold (windowTerms settings reading i) settings g (reading i) buckets start where
  sound hi := hi.sound
  grows hr := hr.1
  write hi hw := ⟨hi.put_window ht hs hw, List.prefix_append _ _,
    fun _ hj => History.written_put_ne _ hj _⟩

/-- A visit writes its window if it updates it, and never for the second time. -/
theorem Visited.written {i : ι} {buckets : Option (Buckets α)} {h h' : History ι α}
    {start : Instant} {u : WindowUpdate}
    (hv : Visited (windowTerms settings reading i) settings g (reading i) buckets h start u h') :
    h'.written i =
        h.written i ++ windowKeys g (reading i).device (updatedStarts [(start, u)]) ∧
      ((h.written i).Nodup → (h'.written i).Nodup) := by
  cases u with
  | updated =>
    obtain ⟨h₀, folded, hi₀, hr₀, hf, -, hr₁⟩ := hv
    have hput := History.written_put_self h₀ i (.ofWindow folded)
    rw [hf.key hi₀.sound, hr₀.2] at hput
    have hwritten := hr₁.2.trans hput
    have hnew : (g.id (reading i).device start).key ∉ h.written i := by
      rw [← hr₀.2, History.mem_written_iff]
      exact hi₀.notMem_writers hf
    refine ⟨hwritten, fun hn => ?_⟩
    rw [hwritten]
    exact hn.append (List.nodup_singleton _) (List.disjoint_singleton.2 hnew)
  | duplicate =>
    obtain ⟨h₀, -, hr₀, hr₁, -⟩ := hv
    have hsame := hr₁.2.trans hr₀.2
    exact ⟨by simpa [windowKeys, updatedStarts] using hsame, fun hn => hsame ▸ hn⟩
  | isSealed =>
    obtain ⟨h₀, -, hr₀, hr₁, -⟩ := hv
    have hsame := hr₁.2.trans hr₀.2
    exact ⟨by simpa [windowKeys, updatedStarts] using hsame, fun hn => hsame ▸ hn⟩

/-- A call has written exactly the windows that its visits updated, in their order, and each of them
    once. -/
theorem Walk.written {i : ι} {buckets : Option (Buckets α)} {h h' : History ι α}
    {visits : List (Instant × WindowUpdate)}
    (hw : Walk (windowTerms settings reading i) settings g (reading i) buckets h visits h') :
    h'.written i = h.written i ++ windowKeys g (reading i).device (updatedStarts visits) ∧
      ((h.written i).Nodup → (h'.written i).Nodup) := by
  induction hw with
  | done hr => exact ⟨by simpa [windowKeys, updatedStarts] using hr.2, fun hn => hr.2 ▸ hn⟩
  | @visit h h₁ h' start u rest hv hi _ ih =>
    obtain ⟨hfirst, hn⟩ := hv.written
    refine ⟨?_, ih.2 ∘ hn⟩
    rw [ih.1, hfirst, List.append_assoc, windowKeys, windowKeys, windowKeys, ← List.map_append,
      updatedStarts, updatedStarts, updatedStarts, ← List.map_append, ← List.filter_append]
    rfl

theorem updateWindows_course {i : ι} {h : History ι α} (hh : h.written i = []) :
    Client.Safe (windowTerms settings reading i)
      (fun x h' => ∃ c : Course, c.Answers settings g (reading i) x ∧
        h'.written i = windowKeys g (reading i).device c.updated ∧ (h'.written i).Nodup)
      (updateWindows settings g (reading i)) h := by
  refine (updateWindows_safe fun buckets starts ht start hs => mayFold_windowTerms ht hs).mono
    fun x h' _ hx => ?_
  rcases hx with ⟨buckets, starts, ht, visits, hwalk, hx⟩ | ⟨hnone, ⟨e, rfl⟩, hr⟩
  · obtain ⟨hwritten, hn⟩ := hwalk.written
    rw [hh] at hwritten hn
    cases x with
    | ok outcome =>
      obtain ⟨rfl, ho⟩ := hx
      exact ⟨⟨visits, none⟩, ⟨rfl, ho, buckets, by simpa [Course.visited] using ht⟩,
        hwritten, hn List.nodup_nil⟩
    | error e =>
      obtain ⟨start, rest, rfl⟩ := hx
      exact ⟨⟨visits, some start⟩, ⟨buckets, rest, by simpa [Course.visited] using ht⟩,
        hwritten, hn List.nodup_nil⟩
  · have hwritten : h'.written i = [] := hr.2.trans hh
    exact ⟨⟨[], none⟩, ⟨rfl, hnone⟩, hwritten, hwritten ▸ List.nodup_nil⟩

/-! ## Contended windows -/

/-- What is known of a call that has ended. -/
structure Ended (settings : IngestSettings) (g : Granularity) (r : Reading α) (h : History ι α)
    (i : ι) (x : Except (Failure IngestError) WindowOutcome) (c : Course) : Prop where
  answers : c.Answers settings g r x
  /-- It wrote the windows that it updated. -/
  wrote : ∀ key, i ∈ h.writers key ↔ key ∈ windowKeys g r.device c.updated
  /-- It wrote no others, if it came to none of those twice. -/
  idle_iff : (∀ key ∈ windowKeys g r.device c.idle, i ∉ h.writers key) ↔
    ∀ key, i ∈ h.writers key → (windowKeys g r.device c.visited).count key = 1
  idle : r.time.isLeap = false → ∀ key ∈ windowKeys g r.device c.idle, i ∉ h.writers key

theorem Course.Answers.ended {c : Course} {x : Except (Failure IngestError) WindowOutcome}
    {h : History ι α} {i : ι} (hc : c.Answers settings g r x)
    (hw : h.written i = windowKeys g r.device c.updated) (hn : (h.written i).Nodup) :
    Ended settings g r h i x c := by
  have hwrote (key : String) : i ∈ h.writers key ↔ key ∈ windowKeys g r.device c.updated := by
    rw [← hw, History.mem_written_iff]
  have hiff := c.idle_iff r.device (hw ▸ hn)
  simp only [← hwrote] at hiff
  refine ⟨hc, hwrote, hiff, fun hl => hiff.2 fun key hkey => ?_⟩
  refine List.count_eq_one_of_mem (hc.nodup hl) ?_
  have hmem : key ∈ windowKeys g r.device (c.updated ++ c.idle) := by
    rw [windowKeys, List.map_append]
    exact List.mem_append_left _ ((hwrote key).1 hkey)
  exact ((c.visited_perm.map _).mem_iff).1 hmem

/-- In every reachable state of every interleaving, a stored window is the window of its first
    writer with the readings of all its writers folded in, in the order of their writes and none of
    them twice. A call that has ended wrote the windows that it updated, and none of those where it
    found its delivery or failed, unless it updated one and came to it again, which takes a reading
    from a leap second. -/
theorem contended_windows (settings : IngestSettings) (calls : ι → Granularity × Reading α)
    (moves : List (Move ι)) :
    let t := (Traffic.start fun i => (updateWindows settings (calls i).1 (calls i).2).run).run moves
    (∀ key g (w : WindowView g α), t.history.store.get? key = some (.ofWindow w) →
      w.id.key = key ∧ w.FoldOf settings ((t.history.writers key).map fun i => (calls i).2) ∧
        ((t.history.writers key).map fun i => (calls i).2.sourceId).Nodup) ∧
      ∀ i x, t.clients i = .done x →
        ∃ c, Ended settings (calls i).1 (calls i).2 t.history i x c := by
  intro t
  obtain ⟨hi, hs⟩ := Traffic.run_safe (T := windowTerms settings fun i => (calls i).2)
    (fun i x h' => ∃ c : Course, c.Answers settings (calls i).1 (calls i).2 x ∧
      h'.written i = windowKeys (calls i).1 (calls i).2.device c.updated ∧ (h'.written i).Nodup)
    (t := .start fun i => (updateWindows settings (calls i).1 (calls i).2).run)
    (fun _ => rfl) (fun _ => rfl) (fun i j _ _ hij hg => ⟨hg.1, hg.2 j (Ne.symm hij)⟩)
    (History.folded_empty settings _) (fun i => updateWindows_course rfl) moves
  refine ⟨fun key g w hw => ⟨?_, hi.fold hw, hi.once hw⟩, fun i x hx => ?_⟩
  · rw [← View.key_ofWindow]
    exact (hi.sound.get?_recorded hw).1
  · obtain ⟨c, hc, hw, hn⟩ :=
      Traffic.post_of_done (T := windowTerms settings _ i) hi (hs i) hx
    exact ⟨c, hc.ended hw hn⟩

/-- A reading from the leap second at the end of 2016, with rain from half an hour before. -/
def leapReading : Reading ℚ where
  device := "dev"
  source := some "a"
  time := (Instant.ofParts? 1483228799 1500000000).get (by decide)
  values := ⟨some 10, none, none⟩
  rain := some {
    units := SortedMap.empty.insert 0 1
    interval := 300
    start := (Instant.ofSeconds? 1483227000).get (by decide)
    declaredSlots := none
    unitValue := 1 }

/-- A call alone on its store writes a window and reports it as one that had seen the reading. -/
theorem leapReading_found_twice :
    let t := (Traffic.start fun _ : Fin 1 => (updateWindows .standard .hourly leapReading).run).run
      (List.replicate 3 ⟨0, .ok leapReading.time, none⟩)
    t.clients 0 = .done (.ok ⟨["dev|hourly|2016-12-31T23"], ["dev|hourly|2016-12-31T23"], []⟩) ∧
      t.history.writers "dev|hourly|2016-12-31T23" = [0] :=
  ⟨Program.eq_done_of_result? (by decide +kernel), by decide +kernel⟩

end Ingest

end WeatherStation
