import WeatherStation.Proofs.Sweep.Chain
import WeatherStation.Proofs.Sweep.Running
import WeatherStation.Proofs.Sweep.WindowKeys

/-!
# The hours that stay open

The lookback of a sweep is counted in hours before midnight, but days are sealed as a whole, and a
sweep takes those that start before its cutoff. With a lookback of whole days the cutoff is the
start of a day, and the hours of the lookback stay open. With any other lookback, the day in which
the lookback begins starts before the cutoff and is sealed, too, together with its hours from the
cutoff on.

Results:
* `Sweep.lookbackStart`, `Sweep.WholeDays`: where a lookback begins, and whether this is a midnight.
* `Sweep.cutoff_cases`: the cutoff, for all clocks and lookbacks.
* `Sweep.seconds_lt_of_lt_cutoff`, `Sweep.lt_cutoff_iff`: the days before the cutoff.
* `Sweep.Midway.due_of_turned`, `Sweep.Midway.mem_turned_iff`: the days that sweeps have sealed.
* `Ingest.holdsSealed_of_closed`: a day that readings find sealed was sealed before they came.
* `LoneSweep.lookback_open`: every sweep.
* `LoneSweep.lookback_of_36_hours`: a sweep that seals the first hours of its lookback.
-/

namespace WeatherStation

variable {ι α : Type}

namespace Sweep

/-- The second in which a lookback begins: some hours before the midnight of the clock's date. -/
def lookbackStart (now : Instant) (lookbackHours : UInt32) : ℤ :=
  now.date.day * 86400 - lookbackHours.toNat * 3600

/-- The lookback consists of whole days, and the clock does not show the leap second at the end of
    one. -/
def WholeDays (now : Instant) (lookbackHours : UInt32) : Prop :=
  24 ∣ lookbackHours.toNat ∧ ¬ now.Surplus 86400

instance (now : Instant) (lookbackHours : UInt32) : Decidable (WholeDays now lookbackHours) :=
  inferInstanceAs (Decidable (_ ∧ _))

/-! ## The cutoff -/

variable {now midnight before s t : Instant} {lookbackHours : UInt32}

/-- The cutoff is where the lookback begins. From the leap second at the end of a day, it is counted
    back from the midnight after it. -/
theorem cutoff_cases (hm : now.truncate? 86400 = some midnight)
    (hc : cutoff now lookbackHours = .ok before) :
    if now.Surplus 86400 then lookbackStart now lookbackHours < before.seconds
    else before.seconds = lookbackStart now lookbackHours ∧ before.nanos = 0 := by
  have hcases := Instant.truncate?_cases hm
  have hback : midnight.shift (-((lookbackHours.toNat : ℤ) * 3600 * 1000000000)) = .ok before := by
    rw [← hc, cutoff, hm, Option.getD_some, Instant.shiftSeconds, neg_mul]
  have hday : now.date.day = now.seconds / 86400 := rfl
  unfold lookbackStart
  rw [hday]
  split_ifs at hcases ⊢ with hs
  · have hl : midnight.isLeap = true := by simp [Instant.isLeap, hcases.2]
    have hlast := hs.2
    rcases Instant.shift_neg_of_isLeap hl (by omega) hback with ⟨-, hsec, -⟩ | ⟨-, hlt, hsum⟩ <;>
      omega
  · have hl : midnight.isLeap = false := by simp [Instant.isLeap, hcases.2]
    obtain ⟨hsum, hlt⟩ := Instant.shift_spec hl hback
    omega

/-- With a lookback of whole days, no day before the cutoff reaches into the lookback. -/
theorem seconds_lt_of_lt_cutoff (hw : WholeDays now lookbackHours)
    (hm : now.truncate? 86400 = some midnight) (hc : cutoff now lookbackHours = .ok before)
    (hb : Granularity.daily.Begins s) (hs : s < before) (ht : t.date = s.date) :
    t.seconds < lookbackStart now lookbackHours := by
  have hcases := cutoff_cases hm hc
  rw [if_neg hw.2] at hcases
  rw [Instant.lt_iff hcases.2, hcases.1] at hs
  have hday := Instant.date_eq_iff.1 ht
  have hbegins : s.seconds % 86400 = 0 := hb.1
  have hwhole := hw.1
  unfold lookbackStart at hs ⊢
  omega

/-- The day in which the lookback begins starts before the cutoff, unless the lookback consists of
    whole days. -/
theorem lt_cutoff_iff (hm : now.truncate? 86400 = some midnight)
    (hc : cutoff now lookbackHours = .ok before) (hb : Granularity.daily.Begins s)
    (hs : s.date.day = lookbackStart now lookbackHours / 86400) :
    s < before ↔ ¬ WholeDays now lookbackHours := by
  have hcases := cutoff_cases hm hc
  have hday : s.seconds / 86400 = lookbackStart now lookbackHours / 86400 := hs
  have hbegins : s.seconds % 86400 = 0 := hb.1
  unfold WholeDays
  split_ifs at hcases with hsurplus
  · have hnanos := hb.2
    refine iff_of_true ?_ (fun hw => hw.2 hsurplus)
    show s.rank < before.rank
    unfold Instant.rank
    omega
  · rw [Instant.lt_iff hcases.2, hcases.1, and_iff_left hsurplus]
    unfold lookbackStart at hday ⊢
    omega

/-! ## The days that are sealed -/

section

open History

variable [Quantity α] {h₀ h : History ι α} {cutoff : Instant} {key : String}

/-- What was sealed since the beginning was due then. -/
theorem Midway.due_of_turned (hm : Midway h₀ cutoff h) (hk : key ∈ h₀.store.turned h.store) :
    ∃ d, h₀.Due cutoff d ∧ d.id.key = key := by
  obtain ⟨hk, hnot⟩ := Store.mem_turned.1 hk
  obtain ⟨d, hd, hsealed⟩ := Store.holdsSealed_iff.1 hk
  by_cases hday : ∃ c, h₀.Closing cutoff c ∧ key = c.id.key
  · obtain ⟨c, ⟨d₀, hd₀, hdc⟩, hkey⟩ := hday
    refine ⟨d₀, hd₀, ?_⟩
    rw [hkey, (DailyView.close_frame hdc).2.id]
  · obtain ⟨hnamed, hkey⟩ := hm.orderly.get?_named hd
    have hsame : h.store.get? key = h₀.store.get? key := by
      refine hm.others fun c hc => ⟨fun he => hday ⟨c, hc, he⟩, fun he => ?_⟩
      exact hnamed.weekly_key_ne _ _ (he.symm.trans hkey.symm)
    rw [hsame] at hd
    rw [Store.holdsSealed_iff.2 ⟨d, hd, hsealed⟩] at hnot
    cases hnot

/-- When no days are left over, those that were due are sealed, and no others. -/
theorem Midway.mem_turned_iff (hm : Midway h₀ cutoff h) (hs : Swept h cutoff)
    (hclosable : ∀ d, h₀.Due cutoff d → ∃ c, DailyView.close.result d = .ok c) :
    key ∈ h₀.store.turned h.store ↔ ∃ d, h₀.Due cutoff d ∧ d.id.key = key := by
  refine ⟨hm.due_of_turned, ?_⟩
  rintro ⟨d, hd, rfl⟩
  obtain ⟨c, hdc⟩ := hclosable d hd
  have hc : h₀.Closing cutoff c := ⟨d, hd, hdc⟩
  obtain ⟨⟨version, hstored⟩, -⟩ := hm.sealed_of_swept hs hc
  rw [(DailyView.close_frame hdc).2.id] at hstored
  rw [Store.mem_turned, Store.holdsSealed_of_get? hstored, Store.holdsSealed_of_get? hd.stored]
  exact ⟨hc.isSealed, hd.isOpen⟩

/-- With a lookback of whole days, nothing from the lookback is in a day that was sealed, if days
    start with their dates. -/
theorem Midway.seconds_lt_of_turned (hm : Midway h₀ before h)
    (hb : ∀ {key d}, h₀.store.get? key = some (.daily d) → Granularity.daily.Begins d.start)
    (hw : WholeDays now lookbackHours) (hmidnight : now.truncate? 86400 = some midnight)
    (hcutoff : Sweep.cutoff now lookbackHours = .ok before) {device : String}
    (hk : (Granularity.daily.id device t).key ∈ h₀.store.turned h.store) :
    t.seconds < lookbackStart now lookbackHours := by
  obtain ⟨d, hd, hkey⟩ := hm.due_of_turned hk
  have hid : d.id = Granularity.daily.id d.device d.start := (hm.began.get?_named hd.stored).1
  rw [hid, Granularity.id_key_eq_iff] at hkey
  exact seconds_lt_of_lt_cutoff hw hmidnight hcutoff (hb hd.stored) hd.start_lt
    (Instant.date_eq_iff.2 hkey.2.symm)

end

end Sweep

/-! ## Readings that find a day sealed -/

namespace Ingest

variable [Quantity α] {T : Terms ι α} {settings : IngestSettings} {r : Reading α}
  {buckets : Option (Buckets α)} {h h' : History ι α} {visits : List (Instant × WindowUpdate)}

/-- A visit that found its day sealed did so at some moment. -/
theorem Walk.holdsSealed (hw : Walk T settings .daily r buckets h visits h') :
    ∀ v ∈ visits, v.2 = .isSealed → ∃ h₁, T.inv h₁ ∧
      h₁.store.holdsSealed (Granularity.daily.id r.device v.1).key = true := by
  induction hw with
  | done _ => simp
  | @visit h h₁ h' start u rest hv _ _ ih =>
    intro v hmem hu
    rcases List.mem_cons.1 hmem with rfl | hmem
    · obtain rfl : u = .isSealed := hu
      obtain ⟨h₀, hi₀, -, -, d, hd, hsealed⟩ := hv
      refine ⟨h₀, hi₀, Store.holdsSealed_iff.2 ⟨d, ?_, hsealed⟩⟩
      rcases Store.window?_cases hd with hd | ⟨-, rfl⟩
      · exact hd
      · cases hsealed
    · exact ih v hmem hu

/-- Any number of readings come to a store, in any order and in any weather. A day that one of them
    reports as sealed was sealed before. -/
theorem holdsSealed_of_closed [DecidableEq ι] (ho : h.Orderly) {settings : ι → IngestSettings}
    {readings : ι → Reading α} {moves : List (Move ι)} {j : ι} {o : IngestOutcome} {key : String}
    (hdone : ((Traffic.mk h fun j => (apply (settings j) (readings j)).run).run moves).clients j =
      .done (.ok o)) (hkey : key ∈ o.daily.closed) : h.store.holdsSealed key = true := by
  let T (j : ι) : Terms ι α := .growing j fun h' => h'.Orderly ∧ h.SameSettled h'
  have hsafe (j : ι) : Client.Safe (T j) (fun x h' => ∀ o, x = .ok o → ∀ g,
      WalkedAll (T j) (settings j) (readings j) g (o.windows g) h')
      (apply (settings j) (readings j)) h := by
    refine apply_safe_of_settled And.left id (fun hi ho hs => ?_) _ _ h
    exact ⟨⟨ho, hi.2.trans hs⟩, List.prefix_append _ _⟩
  have hrun := Traffic.run_safe (T := T) _ (t := Traffic.mk h _) (fun _ => rfl) (fun _ => rfl)
    (fun _ _ _ _ _ hg => hg) ⟨ho, .refl h⟩ hsafe moves
  obtain ⟨h₁, buckets, visits, h₂, -, hwalk, -, houtcome⟩ :=
    Traffic.post_of_done hrun.1 (hrun.2 j) hdone o rfl .daily
  have hkey : key ∈ (o.windows .daily).keys .isSealed := hkey
  rw [houtcome] at hkey
  obtain ⟨v, hv, hu, rfl⟩ := mem_outcomeOf hkey
  obtain ⟨h₃, ⟨-, hsettled⟩, hsealed⟩ := hwalk.holdsSealed v hv hu
  exact hsettled.holdsSealed_iff.2 hsealed

end Ingest

/-! ## Every sweep -/

namespace LoneSweep

open Sweep

variable [Quantity α] {s : LoneSweep α}

/-- Windows of readings that do not come from leap seconds begin with an hour or a day. -/
theorem begins_of_ordinary [DecidableEq ι] {jobs : ι → Job α}
    (hordinary : ∀ j settings r, jobs j = .reading settings r → r.time.isLeap = false)
    (moves : List (Move ι)) {g : Granularity} {key : String} {w : WindowView g α}
    (hw : ((Traffic.start fun j => (jobs j).program).run moves).history.store.get? key =
      some (.ofWindow w)) : g.Begins w.start := by
  have hQ := WindowView.inherited_startsAt fun settings r => ∃ j, jobs j = .reading settings r
  obtain ⟨t, hstart, hleap⟩ := (inherits_of_jobs hQ moves).get? hQ hw
  apply Granularity.begins_of_start hstart
  by_contra hl
  have ht := (Granularity.surplus_of_isLeap_start hstart (by simpa using hl)).1.1
  obtain ⟨settings, r, ⟨j, hj⟩, -, rfl⟩ := hleap ht
  rw [hordinary j settings r hj] at ht
  cases ht

/-- A sweep that runs through has sealed an open day iff it starts before the cutoff. -/
theorem holdsSealed_run_iff {i : ι} {h : History ι α} {cutoff : Instant} (hs : s.CutsAt cutoff)
    (hi : h.Inherits WindowView.OpenRuns) (hthrough : s.RunsThrough i h) {key : String}
    {d : DailyView α} (hd : h.store.get? key = some (.daily d)) (hopen : d.isSealed = false) :
    (s.run i h).2.store.holdsSealed key = true ↔ d.start < cutoff := by
  have hm : Midway h cutoff h := midway_refl hi.orderly cutoff
  have hkey : d.id.key = key := (hi.orderly.get?_named hd).2
  have hnot : h.store.holdsSealed key = false := (Store.holdsSealed_of_get? hd).trans hopen
  have hturned : key ∈ h.store.turned (s.run i h).2.store ↔ ∃ d, h.Due cutoff d ∧ d.id.key = key :=
    (midway_run hs hm).mem_turned_iff (finished_run hs hm hthrough).2 fun d hd => hd.exists_close hi
  rw [Store.mem_turned, and_iff_left hnot] at hturned
  rw [hturned]
  constructor
  · rintro ⟨d', hd', hkey'⟩
    have hstored := hd'.stored
    rw [hkey', hd] at hstored
    cases hstored
    exact hd'.start_lt
  · exact fun hlt => ⟨d, ⟨hkey ▸ hd, hopen, hlt⟩, hkey⟩

/-- A sweep after any readings and sweeps, where no reading is from a leap second. If its lookback
    consists of whole days, every day that it seals lies before the lookback, whatever it meets; and
    a reading from the lookback that comes later is not turned away from its day, unless the day was
    sealed before the sweep. If its lookback does not, and the sweep runs through, it seals the day
    in which the lookback begins. -/
theorem lookback_open [DecidableEq ι] (jobs : ι → Job α)
    (hordinary : ∀ j settings r, jobs j = .reading settings r → r.time.isLeap = false)
    (moves : List (Move ι)) (i : ι) {now midnight cutoff : Instant}
    (hnow : (s.weather 0).now = .ok now) (hmidnight : now.truncate? 86400 = some midnight)
    (hcutoff : Sweep.cutoff now s.lookbackHours = .ok cutoff) :
    let h := ((Traffic.start fun j => (jobs j).program).run moves).history
    let h' := (s.run i h).2
    let opened := lookbackStart now s.lookbackHours
    (WholeDays now s.lookbackHours →
      (∀ key d, h'.store.get? key = some (.daily d) → key ∈ h.store.turned h'.store →
        ∀ t : Instant, t.date = d.start.date → t.seconds < opened) ∧
      ∀ (settings : ι → IngestSettings) (late : ι → Reading α) (more : List (Move ι)) (j : ι)
        (o : IngestOutcome),
        ((Traffic.mk h' fun j => (Ingest.apply (settings j) (late j)).run).run more).clients j =
          .done (.ok o) → opened ≤ (late j).time.seconds →
            h.store.holdsSealed (Granularity.daily.id (late j).device (late j).time).key = false →
              (Granularity.daily.id (late j).device (late j).time).key ∉ o.daily.closed) ∧
    (s.RunsThrough i h → ∀ key d, h.store.get? key = some (.daily d) → d.isSealed = false →
      d.start.date.day = opened / 86400 →
        (h'.store.holdsSealed key = true ↔ ¬ WholeDays now s.lookbackHours)) := by
  intro h h' opened
  have hcuts : s.CutsAt cutoff := ⟨now, hnow, hcutoff⟩
  have hi : h.Inherits WindowView.OpenRuns :=
    inherits_of_jobs (WindowView.inherited_openRuns _) moves
  have hm : Midway h cutoff h' := midway_run hcuts (midway_refl hi.orderly cutoff)
  have hbegins {key : String} {d : DailyView α} (hd : h.store.get? key = some (.daily d)) :
      Granularity.daily.Begins d.start := begins_of_ordinary (g := .daily) hordinary moves hd
  refine ⟨fun hw => ⟨fun key d hd hk t ht => ?_, ?_⟩, fun hthrough key d hd hopen hday => ?_⟩
  · have hkey : (Granularity.daily.id d.device t).key = key := by
      rw [← hm.orderly.key_eq (g := .daily) hd, Granularity.id_key_eq_iff]
      exact ⟨rfl, Instant.date_eq_iff.1 ht⟩
    rw [← hkey] at hk
    exact hm.seconds_lt_of_turned hbegins hw hmidnight hcutoff hk
  · intro settings late more j o hdone ht hnot hkey
    have hsealed := Ingest.holdsSealed_of_closed hm.orderly hdone hkey
    have hlt := hm.seconds_lt_of_turned hbegins hw hmidnight hcutoff
      (Store.mem_turned.2 ⟨hsealed, hnot⟩)
    omega
  · rw [holdsSealed_run_iff hcuts hi hthrough hd hopen]
    exact lt_cutoff_iff hmidnight hcutoff (hbegins hd) hday

/-- The day before yesterday is sealed, and yesterday takes another reading. -/
theorem lookback_of_24_hours :
    let jobs : Fin 2 → Job ℚ := ![.reading .standard (reading "first" 10),
      .reading .standard { reading "second" 20 with
        time := (Instant.ofSeconds? 1757638800).get (by decide) }]
    let h := ((Traffic.start fun j => (jobs j).program).run
      (twoDaysLater [0, 0, 0, 0, 0, 1, 1, 1, 1, 1])).history
    let h' := ((onTheThirteenth 100 fun _ => none).run 0 h).2
    let late : Reading ℚ := { reading "third" 30 with
      time := (Instant.ofSeconds? 1757642400).get (by decide) }
    let t := (Traffic.mk h' fun _ => (Ingest.apply .standard late).run).run
      (twoDaysLater [0, 0, 0, 0, 0])
    h.store.turned h'.store = ["dev|daily|2025-09-11"] ∧
      h'.store.holdsSealed "dev|daily|2025-09-12" = false ∧
      ∃ o, t.clients 0 = .done (.ok o) ∧
        (Granularity.daily.id late.device late.time).key ∉ o.daily.closed := by
  intro jobs h h' late t
  have hordinary : ∀ j settings r, jobs j = .reading settings r → r.time.isLeap = false := by
    intro j settings r hj
    fin_cases j <;> cases hj <;> decide
  have hmidnight : ((Instant.ofSeconds? 1757746800).get (by decide)).truncate? 86400 =
      Instant.ofSeconds? 1757721600 := by decide +kernel
  have hcutoff : Sweep.cutoff ((Instant.ofSeconds? 1757746800).get (by decide)) 24 =
      .ok ((Instant.ofSeconds? 1757635200).get (by decide)) := by decide +kernel
  obtain ⟨hopen, hthrough⟩ := lookback_open (s := onTheThirteenth 100 fun _ => none) jobs hordinary
    (twoDaysLater [0, 0, 0, 0, 0, 1, 1, 1, 1, 1]) 0 rfl hmidnight hcutoff
  have hwhole : WholeDays ((Instant.ofSeconds? 1757746800).get (by decide)) 24 := by decide +kernel
  refine ⟨by decide +kernel, ?_, ?_⟩
  · have hresult : ((onTheThirteenth 100 fun _ => none).run 0 h).1 =
        .ok ⟨true, 1, 0, 0, false, none⟩ := by decide +kernel
    have hday : ((h.store.get? "dev|daily|2025-09-12").bind View.daily?).map
        (fun d => (d.isSealed, d.start.date.day)) = some (false, 20343) := by decide +kernel
    obtain ⟨d, hd, hfacts⟩ := Option.map_eq_some_iff.1 hday
    obtain ⟨hunsealed, hdate⟩ := Prod.mk.inj hfacts
    rw [Bool.eq_false_iff, Ne, hthrough ⟨by decide +kernel, fun _ => rfl, by decide +kernel, _,
      hresult, rfl⟩ _ d (View.bind_daily?_eq_some.1 hd) hunsealed (hdate.trans (by decide +kernel)),
      not_not]
    exact hwhole
  · have hdone : ((t.clients 0).result?.bind Except.toOption).isSome = true := by decide +kernel
    obtain ⟨o, ho⟩ := Option.isSome_iff_exists.1 hdone
    have ho : t.clients 0 = .done (.ok o) := Program.eq_done_of_outcome? ho
    have hnot := (hopen hwhole).2 (fun _ => .standard) (fun _ => late)
      (twoDaysLater [0, 0, 0, 0, 0]) 0 o ho (by decide +kernel) (by decide +kernel)
    with_reducible exact ⟨o, ho, hnot⟩

/-- A lookback of 36 hours begins at noon of the day before yesterday. The day is sealed, so that a
    reading from the afternoon of that day is turned away. -/
theorem lookback_of_36_hours :
    let jobs : Fin 1 → Job ℚ := ![.reading .standard (reading "first" 10)]
    let h := ((Traffic.start fun j => (jobs j).program).run (twoDaysLater [0, 0, 0, 0, 0])).history
    let s := { onTheThirteenth 100 fun _ => none with lookbackHours := 36 }
    let h' := (s.run 0 h).2
    let late : Reading ℚ := { reading "second" 20 with
      time := (Instant.ofSeconds? 1757606400).get (by decide) }
    let t := (Traffic.mk h' fun _ => (Ingest.apply .standard late).run).run
      (twoDaysLater [0, 0, 0, 0, 0])
    ∃ now, (s.weather 0).now = .ok now ∧ lookbackStart now s.lookbackHours ≤ late.time.seconds ∧
      h.store.turned h'.store = [(Granularity.daily.id late.device late.time).key] ∧
      ∃ o, t.clients 0 = .done (.ok o) ∧
        (Granularity.daily.id late.device late.time).key ∈ o.daily.closed := by
  intro jobs h s h' late t
  have hresult : ((t.clients 0).result?.bind Except.toOption).map (fun o => o.daily.closed) =
      some [(Granularity.daily.id late.device late.time).key] := by decide +kernel
  obtain ⟨o, ho, hclosed⟩ := Option.map_eq_some_iff.1 hresult
  refine ⟨_, rfl, by decide +kernel, by decide +kernel, o, Program.eq_done_of_outcome? ho, ?_⟩
  rw [hclosed]
  exact List.mem_singleton_self _

end LoneSweep

end WeatherStation
