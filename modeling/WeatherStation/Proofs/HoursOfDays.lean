import WeatherStation.Proofs.Ingest.Taken
import WeatherStation.Proofs.Journal
import WeatherStation.Proofs.View.Metered

/-!
# The hours of a day

A value is folded into the view of its hour, and once more into the tally of that hour in the view
of its day. The two views are read, checked and written apart, and each has deliveries of its own.
Still they never come apart as long as the day is open, if every reading is taken in, none comes
from a leap second, and no delivery is named like another one of its device.

Results:
* `WindowView.Regular`: what is known of every window.
* `Store.tally?`: the tallies of stored windows.
* `Journal.InStep`: what a journal keeps; `Journal.InStep.added`: what a reading adds to an open
  window.
* `Journal.hours_of_days`: the hours of an open day after any journal.
* `Journal.two_hours`: two hours of a day, and a reading that is delivered twice.
-/

namespace WeatherStation

variable {α : Type} {g : Granularity}

/-! ## Regular windows -/

/-- Hours are open. An open day has tallies for hours 0 to 23, and one for some hour iff it has one
    for the whole day. -/
structure WindowView.Regular (g : Granularity) (w : WindowView g α) : Prop where
  aligned : w.start.seconds = w.start.seconds / g.seconds * g.seconds ∧ w.start.nanos = 0
  hour_open : g = .hourly → w.isSealed = false
  hour_lt : w.isSealed = false → ∀ {m hour}, (w.tally? (m, some hour)).isSome → hour.toNat < 24
  isSome_iff : g = .daily → w.isSealed = false → ∀ m,
    (w.tally? (m, none)).isSome ↔ ∃ hour, (w.tally? (m, some hour)).isSome

/-- The reading does not come from a leap second. -/
def OutsideLeaps (_ : IngestSettings) (r : Reading α) : Prop := r.time.isLeap = false

/-- The hour of an instant fits into 32 bits. -/
theorem Instant.toNat_hour (t : Instant) : (UInt32.ofNat t.hour).toNat = t.hour := by
  have := t.hour_lt
  simp only [UInt32.toNat_ofNat']
  omega

namespace WindowView

variable [Quantity α]

omit [Quantity α] in
/-- A day gives the value of a reading to the tally of the whole day iff it gives it to one of its
    hours. -/
theorem isSome_valueFor_iff (r : Reading α) (inside : Bool) (m : Metric) :
    (valueFor r inside .daily (m, none)).isSome ↔
      ∃ hour, (valueFor r inside .daily (m, some hour)).isSome := by
  simp only [valueFor_whole, valueFor_hour, true_and]
  constructor
  · exact fun h => ⟨UInt32.ofNat r.time.hour, by simpa using h⟩
  · rintro ⟨hour, h⟩
    split_ifs at h with hin
    · simpa [hin.1] using h
    · cases h

/-- Readings outside leap seconds keep windows regular. -/
theorem inherited_regular : Inherited (OutsideLeaps (α := α)) Regular where
  setVersion {g w} t hw := by
    have hsame := w.tally?_congr (w.setVersion t) rfl rfl
    refine ⟨hw.aligned, hw.hour_open, fun hopen => ?_, fun hg hopen => ?_⟩
    · intro m hour
      rw [hsame]
      exact hw.hour_lt hopen
    · simpa only [hsame] using hw.isSome_iff hg hopen
  empty hr ht hs := ⟨ht.aligned hr hs, fun _ => rfl, by simp [tally?_empty], by simp [tally?_empty]⟩
  fold {settings r g buckets w w'} _ hopen hw hfold := by
    have hframe := fold_frame hfold
    have hstart : w'.start = w.start := hframe.start
    have hsealed : w'.isSealed = w.isSealed := hframe.isSealed
    obtain ⟨inside, -, hadded⟩ := fold_tally? hfold
    refine ⟨hstart ▸ hw.aligned, fun _ => hsealed.trans hopen, fun _ {m hour} hm => ?_,
      fun hg _ m => ?_⟩
    · rcases (hadded (m, some hour)).isSome_iff.1 hm with hm | hm
      · exact hw.hour_lt hopen hm
      · rw [valueFor_hour] at hm
        split_ifs at hm with hin
        · rw [hin.2.2, Instant.toNat_hour]
          exact r.time.hour_lt
        · cases hm
    · subst hg
      simp only [(hadded _).isSome_iff, hw.isSome_iff rfl hopen m, isSome_valueFor_iff, exists_or]
  close {d c} hd hdc := by
    obtain ⟨hsealed, hsame⟩ := DailyView.close_frame hdc
    have hclosed : c.isSealed ≠ false := by simp [hsealed]
    exact ⟨hsame.start ▸ hd.aligned, nofun, fun hopen => absurd hopen hclosed,
      fun _ hopen => absurd hopen hclosed⟩

end WindowView

/-! ## Tallies of stored windows -/

/-- A tally of the window of a device around an instant, if it is stored. -/
def Store.tally? (s : Store α) (g : Granularity) (device : String) (t : Instant)
    (p : Metric × Option UInt32) : Option (Tally α) :=
  ((s.get? (g.id device t).key).bind (View.window? g)).bind (WindowView.tally? · p)

/-- The view of the hour of a device around an instant, if it is stored. -/
def Store.hour? (s : Store α) (device : String) (t : Instant) : Option (HourlyView α) :=
  (s.get? (ViewId.hourly device t).key).bind (View.window? .hourly)

theorem Store.tally?_of_window? {s : Store α} {device : String} {t : Instant} {w : WindowView g α}
    (hw : s.window? g device t = some w) (p : Metric × Option UInt32) :
    s.tally? g device t p = w.tally? p := by
  rw [tally?]
  rcases Store.window?_cases hw with hv | ⟨hv, rfl⟩
  · rw [hv, Option.bind_some, View.window?_ofWindow, Option.bind_some]
  · rw [hv, WindowView.tally?_empty]
    rfl

variable [Quantity α]

open WindowView

/-- A reading that is folded in adds its values to the tallies of the window if it lies in it. -/
theorem History.Inherits.added {ι : Type} {h : History ι α} (hi : h.Inherits Regular)
    {settings : IngestSettings} {r : Reading α} (hr : r.time.isLeap = false)
    {buckets : Option (Buckets α)} {starts : List Instant}
    (ht : Ingest.Touched settings g r buckets starts) {start : Instant} (hs : start ∈ starts)
    {s' : Store α} (hw : Ingest.WroteInto settings g r buckets start h.store s')
    (p : Metric × Option UInt32) :
    Added (valueFor r (decide (r.time.seconds / g.seconds = start.seconds / g.seconds)) g p)
      (h.store.tally? g r.device start p) (s'.tally? g r.device start p) := by
  obtain ⟨folded, hf, version, hwritten⟩ := hw
  have hregular := hi.folded inherited_regular hr ht hs hf
  obtain ⟨w, hw, -, -, hfold⟩ := hf
  have hstart : folded.start = w.start := (fold_frame hfold).start
  have haligned := hstart ▸ hregular.aligned
  obtain ⟨-, hid, hkey, -⟩ := hi.orderly.tidy.window?_frame hw
  rw [hid, Granularity.id_key_eq_iff] at hkey
  obtain ⟨inside, hinside, hadded⟩ := fold_tally? hfold
  have hiff := (contains_spec haligned.2 haligned.1 hinside).trans decide_eq_true_iff.symm
  rw [← hkey.2, ← Bool.eq_iff_iff.2 hiff, Store.tally?_of_window? hw]
  have hnew : s'.window? g r.device start = some (folded.setVersion version) := by
    rw [Store.window?_of_some hwritten, View.window?_ofWindow]
  rw [Store.tally?_of_window? hnew, tally?_congr folded (folded.setVersion version) rfl rfl]
  exact hadded p

namespace Journal

/-- What is known after some calls: every reading was taken into the window that it lies in; an open
    window has seen readings of the journal only; and the tallies of the hours in an open day are
    those in the views of the hours. -/
structure InStep (before : List (Entry α)) (h : History Unit α) : Prop where
  inherits : h.Inherits Regular
  delivered : ∀ {settings r}, .reading settings r ∈ before → ∀ g : Granularity,
    h.store.Declines g (g.id r.device r.time).key r.sourceId
  seen : ∀ {key} {g : Granularity} {w : WindowView g α}, h.store.get? key = some (.ofWindow w) →
    w.isSealed = false → ∀ {id}, w.applied.contains id = true →
      ∃ settings r, .reading settings r ∈ before ∧ r.device = w.device ∧ r.sourceId = id
  hours : ∀ {device t}, h.store.OpenAt .daily (Granularity.daily.id device t).key → ∀ m,
    h.store.tally? .daily device t (m, some (UInt32.ofNat t.hour)) =
      h.store.tally? .hourly device t (m, none)

omit [Quantity α] in
theorem inStep_empty : InStep [] (History.empty : History Unit α) where
  inherits := History.inherits_empty
  delivered hr := by cases hr
  seen hw := by cases hw
  hours _ _ := rfl

variable {before : List (Entry α)} {h : History Unit α}

/-- A sweep does nothing but to seal some of the days. -/
theorem InStep.sweep (hj : InStep before h) (s : LoneSweep α) :
    InStep (before ++ [.sweep s]) ((Entry.sweep s).after h) := by
  have hi : ((Entry.sweep s).after h).Inherits Regular :=
    Entry.inherits_after inherited_regular hj.inherits fun _ _ he => by cases he
  have hcases := Entry.window_cases hj.inherits.orderly s
  have hmem {settings : IngestSettings} {r : Reading α}
      (hr : .reading settings r ∈ before ++ [.sweep s]) : .reading settings r ∈ before := by
    simpa using hr
  refine ⟨hi, fun {settings r} hr g => ?_, fun {key g w} hw hopen {id} hid => ?_,
    fun {device t} hopen m => ?_⟩
  · rcases hcases g r.device r.time with hkept | ⟨rfl, d, hd, hsealed⟩
    · exact (hj.delivered (hmem hr) g).congr hkept
    · exact ⟨d, hd, .inl hsealed⟩
  · obtain rfl := hi.orderly.key_eq hw
    rcases hcases g w.device w.start with hkept | ⟨rfl, d, hd, hsealed⟩
    · obtain ⟨settings, r, hr, hrest⟩ := hj.seen (hkept.symm.trans hw) hopen hid
      exact ⟨settings, r, List.mem_append_left _ hr, hrest⟩
    · rw [hd] at hw
      cases hw
      simp [hsealed] at hopen
  · rcases hcases .daily device t with hday | ⟨-, d, hd, hsealed⟩
    · rcases hcases .hourly device t with hhour | ⟨hg, -⟩
      · rw [Store.tally?, Store.tally?, hday, hhour]
        exact hj.hours (fun w hw => hopen w (hday.trans hw)) m
      · cases hg
    · simp [hopen d hd] at hsealed

variable {settings : IngestSettings} {r : Reading α}

/-- What a reading that is taken in adds to the tallies of an open window: a new reading adds its
    values if the window is that of its own instant; nothing else is added. -/
theorem InStep.added (hj : InStep before h) (hr : r.time.isLeap = false)
    (honce : ∀ {settings r'}, .reading settings r' ∈ before → r'.device = r.device →
      r'.sourceId = r.sourceId → r' = r) {s' : Store α}
    (ht : Ingest.TakenIn settings g r h.store s') {device : String} {t : Instant}
    (hopen : s'.OpenAt g (g.id device t).key) :
    ∃ inside, (inside = true ↔ (∀ settings, .reading settings r ∉ before) ∧ r.device = device ∧
        r.time.seconds / g.seconds = t.seconds / g.seconds) ∧
      ∀ p, Added (valueFor r inside g p) (h.store.tally? g device t p)
        (s'.tally? g device t p) := by
  rcases ht.kept_or_wrote device t with
    hkept | ⟨buckets, starts, htouched, start, hstart, hkey, hwrote⟩
  · -- The window of a new reading cannot have been left alone: it is open and did not know it.
    have hnot : ¬ ((∀ settings, .reading settings r ∉ before) ∧ r.device = device ∧
        r.time.seconds / g.seconds = t.seconds / g.seconds) := by
      rintro ⟨hnew, rfl, hsame⟩
      obtain ⟨start, hown, hdeclines⟩ := ht.declines
      have hkey : (g.id r.device start).key = (g.id r.device t).key :=
        g.id_key_eq_iff.2 ⟨rfl, (Granularity.seconds_start hr hown).trans hsame⟩
      rw [hkey] at hdeclines
      obtain ⟨w, hw, hdeclines⟩ := hdeclines
      have hw_open := hopen w hw
      have hseen := hdeclines.resolve_left (by simp [hw_open])
      rw [hkept] at hw
      obtain ⟨settings', r', hr', hdevice, hid⟩ := hj.seen hw hw_open hseen
      have hown : w.device = r.device :=
        (g.id_key_eq_iff.1 (hj.inherits.orderly.key_eq hw)).1
      exact hnew settings' (honce hr' (hdevice.trans hown) hid ▸ hr')
    refine ⟨false, iff_of_false nofun hnot, fun p => ?_⟩
    rw [Store.tally?, Store.tally?, hkept]
    simp [valueFor, Added]
  · obtain ⟨rfl, hsame⟩ := g.id_key_eq_iff.1 hkey
    -- A reading that was delivered before is declined by the window of its instant.
    have hnew (hin : r.time.seconds / g.seconds = t.seconds / g.seconds) :
        ∀ settings, .reading settings r ∉ before := by
      intro settings' hr'
      obtain ⟨folded, hf, -⟩ := hwrote
      refine hf.not_declines ?_
      rw [← hkey, ← g.id_key_eq_iff.2 ⟨rfl, hin⟩]
      exact hj.delivered hr' g
    have hadded (p : Metric × Option UInt32) := hj.inherits.added hr htouched hstart hwrote p
    simp only [Store.tally?, ← hkey] at hadded
    refine ⟨_, ?_, hadded⟩
    rw [decide_eq_true_iff, hsame]
    exact ⟨fun hin => ⟨hnew (hin.trans hsame.symm), rfl, hin⟩, fun hin => hin.2.2⟩

/-- A reading is taken in. -/
theorem InStep.reading (hj : InStep before h) (hr : r.time.isLeap = false)
    (honce : ∀ {settings r'}, .reading settings r' ∈ before → r'.device = r.device →
      r'.sourceId = r.sourceId → r' = r)
    (hsucceeds : (Entry.reading settings r).Succeeds h) :
    InStep (before ++ [.reading settings r]) ((Entry.reading settings r).after h) := by
  obtain ⟨o, ho⟩ := hsucceeds
  have hi : ((Entry.reading settings r).after h).Inherits Regular :=
    Entry.inherits_after inherited_regular hj.inherits fun _ _ he => by
      cases he
      exact hr
  have ht (g : Granularity) :
      Ingest.TakenIn settings g r h.store ((Entry.reading settings r).after h).store := by
    rw [Entry.store_after_reading]
    exact Ingest.takenIn_apply hj.inherits.orderly.tidy ho g
  refine ⟨hi, fun {settings' r'} hr' g => ?_, fun {key g w} hw hopen {id} hid => ?_,
    fun {device t} hopen m => ?_⟩
  · rcases List.mem_append.1 hr' with hr' | hr'
    · exact (ht g).declines_mono (hj.delivered hr' g)
    · cases List.mem_singleton.1 hr'
      obtain ⟨start, hown, hdeclines⟩ := (ht g).declines
      rwa [g.id_key_eq_iff.2 ⟨rfl, Granularity.seconds_start hr hown⟩] at hdeclines
  · obtain rfl := hi.orderly.key_eq hw
    rcases (ht g).seen hw hopen hid with ⟨hdevice, rfl⟩ | ⟨w₀, hw₀, hopen₀, hid₀⟩
    · exact ⟨settings, r, List.mem_append_right _ (List.mem_singleton_self _), hdevice.symm, rfl⟩
    · obtain ⟨settings', r', hr', hdevice, hsource⟩ := hj.seen hw₀ hopen₀ hid₀
      have hsame := (g.id_key_eq_iff.1 (hj.inherits.orderly.key_eq hw₀)).1
      exact ⟨settings', r', List.mem_append_left _ hr', hdevice.trans hsame, hsource⟩
  · have hopen' : ((Entry.reading settings r).after h).store.OpenAt .hourly
        (Granularity.hourly.id device t).key :=
      fun w hw => (hi.get? inherited_regular hw).hour_open rfl
    obtain ⟨inside, hin, hday⟩ := hj.added hr honce (ht .daily) hopen
    obtain ⟨inside', hin', hhour⟩ := hj.added hr honce (ht .hourly) hopen'
    have hsame : valueFor r inside .daily (m, some (UInt32.ofNat t.hour)) =
        valueFor r inside' .hourly (m, none) := by
      rw [valueFor_hour, valueFor_whole]
      refine if_congr ?_ rfl rfl
      have hhours : UInt32.ofNat t.hour = UInt32.ofNat r.time.hour ↔ r.time.hour = t.hour := by
        rw [← UInt32.toNat_inj, Instant.toNat_hour, Instant.toNat_hour, eq_comm]
      rw [hin, hin', hhours, Granularity.same_hour_iff]
      tauto
    have hadded := hday (m, some (UInt32.ofNat t.hour))
    rw [hsame, hj.hours ((ht .daily).openAt hopen) m] at hadded
    exact hadded.unique (hhour (m, none))

/-- After any journal of readings that are taken in, and of sweeps, every stored day that is open
    holds the tallies of its hours. That of a metric in an hour is the one in the view of that hour,
    and there is none where that view has none; the hours are 0 to 23; and there are some iff there
    is a tally of the whole day. -/
theorem hours_of_days (entries : List (Entry α)) (hp : Along Entry.Succeeds entries .empty)
    (hleap : ∀ settings r, .reading settings r ∈ entries → r.time.isLeap = false)
    (honce : ∀ settings r settings' r', .reading settings r ∈ entries →
      .reading settings' r' ∈ entries → r'.device = r.device → r'.sourceId = r.sourceId → r' = r)
    {key : String} {d : DailyView α} (hd : (run entries).store.get? key = some (.daily d))
    (hopen : d.isSealed = false) (m : Metric) :
    (∀ t, t.date = d.start.date → (d.hours m).find? (UInt32.ofNat t.hour) =
      ((run entries).store.hour? d.device t).bind (·.tallies.get m)) ∧
      (∀ hour ∈ (d.hours m).keys, hour.toNat < 24) ∧
      ((d.tallies.get m).isSome ↔ (d.hours m).keys ≠ []) := by
  have hj : InStep entries (run entries) ∧ ∀ e ∈ entries, e ∈ entries := by
    refine run_induction (J := fun before h => InStep before h ∧ ∀ e ∈ before, e ∈ entries)
      ⟨inStep_empty, fun _ he => by cases he⟩ (fun {before h e} hJ he => ?_)
      (hp.and_mem fun _ he => he)
    obtain ⟨hj, hbefore⟩ := hJ
    obtain ⟨hsucceeds, hmem⟩ := he
    refine ⟨?_, fun e' he' => ?_⟩
    · cases e with
      | sweep s => exact hj.sweep s
      | reading settings r =>
        exact hj.reading (hleap settings r hmem)
          (fun hr' => honce settings r _ _ hmem (hbefore _ hr')) hsucceeds
    · rcases List.mem_append.1 he' with he' | he'
      · exact hbefore e' he'
      · exact List.mem_singleton.1 he' ▸ hmem
  obtain ⟨hj, -⟩ := hj
  have hregular : Regular .daily d := hj.inherits.get? (g := .daily) inherited_regular hd
  have hkey : (Granularity.daily.id d.device d.start).key = key :=
    hj.inherits.orderly.key_eq (g := .daily) hd
  refine ⟨fun t ht => ?_, fun hour hhour => ?_, ?_⟩
  · have hday : (run entries).store.get? (Granularity.daily.id d.device t).key =
        some (.daily d) := by
      rw [Granularity.id, ht]
      exact hkey ▸ hd
    have hopen' : (run entries).store.OpenAt .daily (Granularity.daily.id d.device t).key := by
      intro w hw
      rw [hday] at hw
      cases hw
      exact hopen
    have hhours := hj.hours hopen' m
    rw [Store.tally?, hday] at hhours
    exact hhours
  · obtain ⟨tally, htally⟩ := SortedMap.mem_keys_iff.1 hhour
    exact hregular.hour_lt hopen (Option.isSome_of_eq_some htally)
  · refine (hregular.isSome_iff rfl hopen m).trans ⟨?_, fun hne => ?_⟩
    · rintro ⟨hour, hhour⟩
      obtain ⟨tally, htally⟩ := Option.isSome_iff_exists.1 hhour
      exact List.ne_nil_of_mem (SortedMap.mem_keys_iff.2 ⟨tally, htally⟩)
    · obtain ⟨hour, hhour⟩ := List.exists_mem_of_ne_nil _ hne
      obtain ⟨tally, htally⟩ := SortedMap.mem_keys_iff.1 hhour
      exact ⟨hour, Option.isSome_of_eq_some htally⟩

/-- A reading of 13 September 2025, some seconds after 15:00. -/
def onTheThirteenth (source : String) (temperature : ℚ) (seconds : ℤ)
    (h : (Instant.ofSeconds? (1757775600 + seconds)).isSome) : Reading ℚ :=
  { Sweep.reading source temperature with
    time := (Instant.ofSeconds? (1757775600 + seconds)).get h }

/-- A day that is sealed by a sweep, and two hours of another day. One of its readings is delivered
    twice. -/
def twoHours : List (Entry ℚ) :=
  [.reading .standard (Sweep.reading "first" 10),
    .sweep (LoneSweep.onTheThirteenth 1 fun _ => none),
    .reading .standard (onTheThirteenth "second" 20 0 (by decide)),
    .reading .standard (onTheThirteenth "third" 30 3600 (by decide)),
    .reading .standard (onTheThirteenth "second" 20 0 (by decide))]

/-- The view of the first hour has the tally that the day has for it. -/
theorem two_hours : Along Entry.Succeeds twoHours .empty ∧
    ∃ d : DailyView ℚ, (run twoHours).store.get? "dev|daily|2025-09-13" = some (.daily d) ∧
      d.isSealed = false ∧ (d.hours .temperature).keys = [15, 16] ∧
        ∀ t, t.date = d.start.date →
          (d.hours .temperature).find? (UInt32.ofNat t.hour) =
            ((run twoHours).store.hour? d.device t).bind (·.tallies.get .temperature) := by
  have halong : Along Entry.Succeeds twoHours .empty :=
    ⟨exists_of_isOk (by decide +kernel), trivial, exists_of_isOk (by decide +kernel),
      exists_of_isOk (by decide +kernel), exists_of_isOk (by decide +kernel), trivial⟩
  have hday : (((run twoHours).store.get? "dev|daily|2025-09-13").bind View.daily?).map
      (fun d => (d.isSealed, (d.hours .temperature).keys)) = some (false, [15, 16]) := by
    decide +kernel
  obtain ⟨d, hd, hfacts⟩ := Option.map_eq_some_iff.1 hday
  obtain ⟨v, hv, hvd⟩ := Option.bind_eq_some_iff.1 hd
  rw [View.eq_ofWindow_of_window? hvd] at hv
  have hv : (run twoHours).store.get? "dev|daily|2025-09-13" = some (.daily d) := hv
  obtain ⟨hopen, hkeys⟩ := Prod.mk.inj hfacts
  have hreadings {settings : IngestSettings} {r : Reading ℚ}
      (hr : .reading settings r ∈ twoHours) : r = Sweep.reading "first" 10 ∨
        r = onTheThirteenth "second" 20 0 (by decide) ∨
        r = onTheThirteenth "third" 30 3600 (by decide) := by
    rcases List.mem_cons.1 hr with he | hr
    · exact .inl (Entry.reading.inj he).2
    rcases List.mem_cons.1 hr with he | hr
    · cases he
    rcases List.mem_cons.1 hr with he | hr
    · exact .inr (.inl (Entry.reading.inj he).2)
    rcases List.mem_cons.1 hr with he | hr
    · exact .inr (.inr (Entry.reading.inj he).2)
    · exact .inr (.inl (Entry.reading.inj (List.mem_singleton.1 hr)).2)
  have hleap (settings : IngestSettings) (r : Reading ℚ) (hr : .reading settings r ∈ twoHours) :
      r.time.isLeap = false := by
    rcases hreadings hr with rfl | rfl | rfl <;> decide
  have honce (settings : IngestSettings) (r : Reading ℚ) (settings' : IngestSettings)
      (r' : Reading ℚ) (hr : .reading settings r ∈ twoHours)
      (hr' : .reading settings' r' ∈ twoHours) (_ : r'.device = r.device)
      (hid : r'.sourceId = r.sourceId) : r' = r := by
    rcases hreadings hr with rfl | rfl | rfl <;> rcases hreadings hr' with rfl | rfl | rfl <;>
      first | rfl | exact absurd hid (by decide)
  have hhours := hours_of_days twoHours halong hleap honce hv hopen .temperature
  with_reducible exact ⟨halong, d, hv, hopen, hkeys, hhours.1⟩

end Journal

end WeatherStation
