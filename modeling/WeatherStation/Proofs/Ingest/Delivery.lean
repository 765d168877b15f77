import WeatherStation.Proofs.Ingest.Starts
import WeatherStation.Proofs.View.Tallies

/-!
# Deliveries

Readings are taken in one after the other, and each of them may be delivered again at any time. The
tally of a metric in an hour or a day is then that of the distinct readings of this hour or day,
whatever the order of delivery.

Results:
* `Ingest.deliver`: takes readings in, each of which has to succeed.
* `Ingest.Delivered`: every window that a reading touches has seen its delivery.
* `Ingest.deliver_recorded`: what is written is due to the readings, and every one is delivered.
* `Ingest.deliver_tally`: the tallies of hours and days.
-/

namespace WeatherStation

namespace Ingest

section

variable {ι α : Type} [Quantity α] {settings : IngestSettings} {reading : ι → Reading α}
  {rs : List (Reading α)} {h h' : History ι α} {g : Granularity} {r : Reading α} {i : ι}

/-- Takes readings in, one after the other, as long as that succeeds. -/
def deliver (settings : IngestSettings) (now : Except Overflow Instant) (rs : List (Reading α))
    (s : Store α) : Except (Failure IngestError) (Store α) :=
  rs.foldlM (fun s r =>
    match (apply settings r).alone now s with
    | (.ok _, s') => .ok s'
    | (.error e, _) => .error e) s

/-- The write of a reading: its latest view, or a window that it touches. -/
def Due (settings : IngestSettings) (r : Reading α) (v : View α) : Prop :=
  v.key = (ViewId.latest r.device).key ∨
    ∃ (g : Granularity) (w : WindowView g α) (buckets : Option (Buckets α)) (starts : List Instant)
      (start : Instant), v = .ofWindow w ∧ Touched settings g r buckets starts ∧ start ∈ starts ∧
        v.key = (g.id r.device start).key

/-- Stored windows are folds, and every write is due to one of the readings. -/
structure Records (settings : IngestSettings) (reading : ι → Reading α) (rs : List (Reading α))
    (h : History ι α) : Prop where
  folded : h.Folded settings reading
  due : ∀ e ∈ h.log, reading e.1 ∈ rs ∧ Due settings (reading e.1) e.2

/-- Every window of one width that a reading touches has seen its delivery. -/
def Delivered (settings : IngestSettings) (reading : ι → Reading α) (h : History ι α)
    (r : Reading α) (g : Granularity) : Prop :=
  ∃ buckets starts, Touched settings g r buckets starts ∧
    ∀ start ∈ starts, ∃ u ∈ h.writers (g.id r.device start).key, (reading u).sourceId = r.sourceId

omit [Quantity α] in
theorem writers_mono (hp : h.log <+: h'.log) {key : String} {u : ι}
    (hu : u ∈ h.writers key) : u ∈ h'.writers key := (History.writers_prefix hp key).subset hu

theorem Delivered.mono (hd : Delivered settings reading h r g) (hp : h.log <+: h'.log) :
    Delivered settings reading h' r g := by
  obtain ⟨buckets, starts, ht, hall⟩ := hd
  refine ⟨buckets, starts, ht, fun start hs => ?_⟩
  obtain ⟨u, hu, hid⟩ := hall start hs
  exact ⟨u, writers_mono hp hu, hid⟩

/-- The terms of a call with one of some readings: the record, which begins with `log`, grows by
    what is due. -/
def deliveryTerms (settings : IngestSettings) (reading : ι → Reading α) (rs : List (Reading α))
    (log : List (ι × View α)) (i : ι) : Terms ι α :=
  .growing i fun h => Records settings reading rs h ∧ log <+: h.log

variable {log : List (ι × View α)}

theorem records_empty (settings : IngestSettings) (reading : ι → Reading α)
    (rs : List (Reading α)) : Records settings reading rs History.empty :=
  ⟨History.folded_empty settings reading, fun e he => by cases he⟩

theorem Records.put (hi : Records settings reading rs h) (hr : reading i ∈ rs) {v : View α}
    (hd : Due settings (reading i) v) (hf : (h.put i v).Folded settings reading) :
    Records settings reading rs (h.put i v) := by
  refine ⟨hf, fun e he => ?_⟩
  rcases List.mem_append.1 he with he | he
  · exact hi.due e he
  · rw [List.mem_singleton.1 he]
    exact ⟨hr, hd⟩

/-- The write of a window that a reading touches. -/
theorem Records.put_window (hi : Records settings reading rs h) (hr : reading i ∈ rs)
    {buckets : Option (Buckets α)} {starts : List Instant}
    (ht : Touched settings g (reading i) buckets starts) {start : Instant} (hs : start ∈ starts)
    {folded : WindowView g α} (hw : h.store.FoldsTo settings (reading i) buckets start folded) :
    Records settings reading rs (h.put i (.ofWindow folded)) :=
  hi.put hr (.inr ⟨g, folded, buckets, starts, start, rfl, ht, hs, hw.key hi.folded.sound⟩)
    (hi.folded.put_window ht hs hw)

/-- The write of the latest view. -/
theorem Records.put_latest (hi : Records settings reading rs h) (hr : reading i ∈ rs)
    {v : LatestView α} (hv : LatestView.ofReading settings (reading i) = .ok v) :
    Records settings reading rs (h.put i (.latest v)) := by
  refine hi.put hr (.inl ?_) (hi.folded.put_latest v)
  change v.id.key = _
  rw [id_ofReading hv]

theorem mayFold_deliveryTerms (hr : reading i ∈ rs) {buckets : Option (Buckets α)}
    {starts : List Instant} (ht : Touched settings g (reading i) buckets starts) {start : Instant}
    (hs : start ∈ starts) :
    MayFold (deliveryTerms settings reading rs log i) settings g (reading i) buckets start where
  sound hi := hi.1.folded.sound
  grows hp := hp
  write {_ _} hi hw :=
    ⟨⟨hi.1.put_window hr ht hs hw, hi.2.trans (List.prefix_append _ _)⟩, List.prefix_append _ _⟩

/-- After a walk every visited window has seen the delivery. -/
theorem Walk.delivered {buckets : Option (Buckets α)} {visits : List (Instant × WindowUpdate)}
    (hw : Walk (deliveryTerms settings reading rs log i) settings g (reading i) buckets h visits
      h') :
    ∀ v ∈ visits, ∃ u ∈ h'.writers (g.id (reading i).device v.1).key,
      (reading u).sourceId = (reading i).sourceId := by
  induction hw with
  | done _ => simp
  | @visit h h₁ h' start u rest hv _ hwalk ih =>
    intro v hmem
    rcases List.mem_cons.1 hmem with rfl | hmem
    · have hgrown := hwalk.grows fun hp => hp
      cases u with
      | updated =>
        obtain ⟨h₀, folded, hi₀, -, hf, -, hr₁⟩ := hv
        refine ⟨i, writers_mono (hr₁.trans hgrown) ?_, rfl⟩
        rw [← hf.key hi₀.1.folded.sound, History.writers_put_self]
        exact List.mem_append_right _ (List.mem_singleton.2 rfl)
      | duplicate =>
        obtain ⟨h₀, hi₀, -, hr₁, w, hw, hc⟩ := hv
        obtain ⟨u, hu, hid⟩ := hi₀.1.folded.writer_of_contains hw hc
        exact ⟨u, writers_mono (hr₁.trans hgrown) hu, hid⟩
      | isSealed =>
        obtain ⟨h₀, hi₀, -, -, w, hw, hsealed⟩ := hv
        rw [hi₀.1.folded.isOpen hw] at hsealed
        cases hsealed
    · exact ih v hmem

/-- A reading that is taken in visits its windows on the terms of a delivery. -/
theorem apply_walked (hr : reading i ∈ rs) :
    Client.Safe (deliveryTerms settings reading rs log i) (fun x h' => ∀ o, x = .ok o → ∀ g,
      WalkedAll (deliveryTerms settings reading rs log i) settings (reading i) g (o.windows g) h')
      (apply settings (reading i)) h :=
  apply_safe (fun hp => hp)
    (fun hi hv => ⟨⟨hi.1.put_latest hr hv, hi.2.trans (List.prefix_append _ _)⟩,
      List.prefix_append _ _⟩)
    fun _ _ _ ht _ hs => mayFold_deliveryTerms hr ht hs

/-- A reading that is taken in is delivered. -/
theorem WalkedAll.delivered {o : WindowOutcome}
    (hw : WalkedAll (deliveryTerms settings reading rs log i) settings (reading i) g o h) :
    Delivered settings reading h (reading i) g := by
  obtain ⟨h₁, buckets, visits, h₂, ht, hwalk, hp, -⟩ := hw
  refine Delivered.mono ⟨buckets, _, ht, fun start hs => ?_⟩ hp
  obtain ⟨v, hv, rfl⟩ := List.mem_map.1 hs
  exact hwalk.delivered v hv

/-- When all readings were taken in, every write is due to one of them, and each was delivered to
    all windows that it touches. -/
theorem deliver_recorded {now : Except Overflow Instant} {s : Store α}
    (hs : deliver settings now rs Store.empty = .ok s) :
    ∃ h : History (Reading α) α, h.store = s ∧ Records settings id rs h ∧
      ∀ r ∈ rs, ∀ g, Delivered settings id h r g := by
  have hall (ps : List (Reading α)) (hps : ∀ r ∈ ps, r ∈ rs) (h : History (Reading α) α)
      (hi : Records settings id rs h) (hs : deliver settings now ps h.store = .ok s) :
      ∃ h', h'.store = s ∧ Records settings id rs h' ∧ h.log <+: h'.log ∧
        ∀ r ∈ ps, ∀ g, Delivered settings id h' r g := by
    induction ps generalizing h with
    | nil =>
      cases hs
      exact ⟨h, rfl, hi, List.prefix_refl _, by simp⟩
    | cons r ps ih =>
      have hsafe : Client.Safe (deliveryTerms settings id rs h.log r) _ (apply settings r) h :=
        apply_walked (hps r List.mem_cons_self)
      obtain ⟨h₁, hstore, ⟨hi₁, hp₁⟩, hpost⟩ := hsafe.run ⟨hi, List.prefix_refl _⟩ now
      simp only [deliver, List.foldlM_cons] at hs
      change h₁.store = ((apply settings r).alone now h.store).2 at hstore
      change ∀ o, ((apply settings r).alone now h.store).1 = _ → _ at hpost
      revert hs hstore hpost
      generalize (apply settings r).alone now h.store = result
      obtain ⟨x, s₁⟩ := result
      rintro hs rfl hpost
      cases x with
      | error e => cases hs
      | ok o =>
        obtain ⟨h', hstore', hi', hp', hd'⟩ :=
          ih (fun r' hr' => hps r' (List.mem_cons_of_mem r hr')) h₁ hi₁ hs
        refine ⟨h', hstore', hi', hp₁.trans hp', fun r' hr' g => ?_⟩
        rcases List.mem_cons.1 hr' with rfl | hr'
        · exact (hpost o rfl g).delivered.mono hp'
        · exact hd' r' hr' g
  obtain ⟨h, hstore, hi, -, hd⟩ :=
    hall rs (fun _ hr => hr) .empty (records_empty settings id rs) hs
  exact ⟨h, hstore, hi, hd⟩

/-- A reading touches the window with some key. -/
def Touches (settings : IngestSettings) (g : Granularity) (r : Reading α) (key : String) : Prop :=
  ∃ buckets starts, Touched settings g r buckets starts ∧
    ∃ start ∈ starts, (g.id r.device start).key = key

theorem Touches.device_eq {device : String} {t : Instant}
    (h : Touches settings g r (g.id device t).key) : r.device = device := by
  obtain ⟨-, -, -, start, -, hkey⟩ := h
  exact (g.id_key_eq_iff.1 hkey).1

/-- Who wrote under the key of a window carries one of the readings, which touches the window. -/
theorem Records.touches_of_mem_writers (hi : Records settings reading rs h) {device : String}
    {t : Instant} {u : ι} (hu : u ∈ h.writers (g.id device t).key) :
    reading u ∈ rs ∧ Touches settings g (reading u) (g.id device t).key := by
  simp only [History.writers, List.mem_map, List.mem_filter, decide_eq_true_eq] at hu
  obtain ⟨e, ⟨he, hkey⟩, rfl⟩ := hu
  obtain ⟨hr, hd⟩ := hi.due e he
  rcases hd with hlatest | ⟨g', w, buckets, starts, start, -, ht, hs, hwindow⟩
  · exact absurd (hlatest.symm.trans hkey) (ViewId.latest_key_ne_window _ _ g t)
  · rw [hkey] at hwindow
    obtain rfl := Granularity.eq_of_id_key_eq hwindow
    exact ⟨hr, buckets, starts, ht, start, hs, hwindow.symm⟩

theorem Records.of_mem_writers (hi : Records settings reading rs h) {device : String} {t : Instant}
    {u : ι} (hu : u ∈ h.writers (g.id device t).key) :
    reading u ∈ rs ∧ (reading u).device = device :=
  have htouches := hi.touches_of_mem_writers hu
  ⟨htouches.1, htouches.2.device_eq⟩

/-- The key of a window holds a window. -/
theorem Records.window_of_get? (hi : Records settings reading rs h) {device : String} {t : Instant}
    {v : View α} (hv : h.store.get? (g.id device t).key = some v) :
    ∃ w : WindowView g α, v = .ofWindow w := by
  obtain ⟨hkey, n, e, he, rfl⟩ := hi.folded.sound.get?_recorded hv
  rw [View.key_withVersion] at hkey
  rcases (hi.due e (List.mem_of_getElem? he)).2 with hlatest | ⟨g', w, _, _, _, hw, -, -, hwindow⟩
  · exact absurd (hlatest.symm.trans hkey) (ViewId.latest_key_ne_window _ _ g t)
  · rw [hkey] at hwindow
    obtain rfl := Granularity.eq_of_id_key_eq hwindow
    exact ⟨_, by rw [hw, View.ofWindow_withVersion]⟩

/-- The distinct readings of a device in an hour or a day. -/
def readingsIn [DecidableEq α] (rs : List (Reading α)) (g : Granularity) (device : String)
    (t : Instant) : List (Reading α) :=
  rs.dedup.filter fun r => r.device = device ∧ r.time.seconds / g.seconds = t.seconds / g.seconds

/-- Those who wrote under the key of a window and lie in it are the distinct readings there. -/
theorem Records.writers_perm [DecidableEq α] {h : History (Reading α) α}
    (hi : Records settings id rs h) (hd : ∀ r ∈ rs, ∀ g, Delivered settings id h r g)
    (hleap : ∀ r ∈ rs, r.time.isLeap = false)
    (hid : ∀ r ∈ rs, ∀ r' ∈ rs, r.device = r'.device → r.sourceId = r'.sourceId → r = r')
    {device : String} {t : Instant} (hn : (h.writers (g.id device t).key).Nodup) :
    ((h.writers (g.id device t).key).filter fun r =>
      r.time.seconds / g.seconds = t.seconds / g.seconds).Perm (readingsIn rs g device t) := by
  refine (List.perm_ext_iff_of_nodup (hn.filter _) ((List.nodup_dedup rs).filter _)).2 fun r => ?_
  simp only [List.mem_filter, List.mem_dedup, decide_eq_true_eq]
  constructor
  · rintro ⟨hu, htime⟩
    obtain ⟨hr, hdevice⟩ := hi.of_mem_writers hu
    exact ⟨hr, hdevice, htime⟩
  · rintro ⟨hr, rfl, htime⟩
    obtain ⟨buckets, starts, ht, hall⟩ := hd r hr g
    obtain ⟨start, hs, hstart⟩ := ht.self
    obtain ⟨u, hu, huid⟩ := hall start hs
    have hkey : (g.id r.device start).key = (g.id r.device t).key :=
      g.id_key_eq_iff.2 ⟨rfl, (Granularity.seconds_start (hleap r hr) hstart).trans htime⟩
    rw [hkey] at hu
    obtain ⟨hur, hdevice⟩ := hi.of_mem_writers hu
    obtain rfl := hid u hur r hr hdevice huid
    exact ⟨hu, htime⟩

end

/-- The stored tally of a metric in an hour or a day of a device. -/
def storedTally (s : Store ℚ) (g : Granularity) (device : String) (t : Instant) (m : Metric) :
    Option (Tally ℚ) :=
  ((s.get? (g.id device t).key).bind (View.window? g)).bind fun w => w.tallies.get m

/-- When every call succeeds, no reading lies in a leap second and the readings of a device are told
    apart by their deliveries, the tally of a metric in an hour or a day is that of the values that
    the distinct readings there carry. -/
theorem deliver_tally {settings : IngestSettings} {now : Except Overflow Instant}
    {rs : List (Reading ℚ)} {s : Store ℚ} (hs : deliver settings now rs Store.empty = .ok s)
    (hleap : ∀ r ∈ rs, r.time.isLeap = false)
    (hid : ∀ r ∈ rs, ∀ r' ∈ rs, r.device = r'.device → r.sourceId = r'.sourceId → r = r')
    (g : Granularity) (device : String) (t : Instant) (m : Metric) :
    Tally.Of ((readingsIn rs g device t).filterMap fun r => r.values.get m)
      (storedTally s g device t m) := by
  obtain ⟨h, rfl, hi, hd⟩ := deliver_recorded hs
  cases hv : h.store.get? (g.id device t).key with
  | none =>
    have hnil := hi.folded.sound.writers_eq_nil hv
    have hnodup : (h.writers (g.id device t).key).Nodup := by
      rw [hnil]
      exact List.nodup_nil
    have hperm := hi.writers_perm hd hleap hid hnodup
    rw [hnil] at hperm
    rw [storedTally, hv, ← hperm.nil_eq]
    rfl
  | some v =>
    obtain ⟨w, rfl⟩ := hi.window_of_get? hv
    have hnodup := (hi.folded.once hv).of_map
    have hkey := (hi.folded.sound.get?_recorded hv).1
    obtain ⟨r₀, rest, buckets, starts, start, hus, ht, hstart, hfold⟩ := hi.folded.fold hv
    rw [List.map_id] at hus hfold
    have hr₀ : r₀ ∈ rs := (hi.of_mem_writers (by rw [hus]; simp)).1
    obtain ⟨haligned, hnanos⟩ := ht.aligned (hleap r₀ hr₀) hstart
    have hsame : start.seconds / g.seconds = t.seconds / g.seconds := by
      have hid := (WindowView.foldlM_take_frame hfold).1
      rw [View.key_ofWindow, show w.id = g.id r₀.device start from hid] at hkey
      exact (g.id_key_eq_iff.1 hkey).2
    have hempty :
        Tally.Of [] ((WindowView.empty r₀.device start : WindowView g ℚ).tallies.get m) := by
      rw [show (WindowView.empty r₀.device start : WindowView g ℚ).tallies.get m = none from
        PerMetric.get_const none m]
      rfl
    have htally := WindowView.foldlM_take_tally m hnanos haligned hempty hfold
    rw [List.nil_append, show (WindowView.empty r₀.device start : WindowView g ℚ).start = start
      from rfl, hsame] at htally
    rw [storedTally, hv, Option.bind_some, View.window?_ofWindow, Option.bind_some]
    exact htally.perm ((hi.writers_perm hd hleap hid hnodup).filterMap _)

/-- A reading of 11 September 2025, some seconds after 15:00. -/
def afternoon (second : Fin 3600) (temperature : ℚ) : Reading ℚ where
  device := "dev"
  source := none
  time := (Instant.ofSeconds? (1757602800 + second)).get <| by
    have hfirst : firstSecond ≤ 1757602800 + (second : ℤ) := by unfold firstSecond firstDay; omega
    have hlast : 1757602800 + (second : ℤ) ≤ lastSecond := by unfold lastSecond lastDay; omega
    simp [Instant.ofSeconds?, Instant.ofParts?, hfirst, hlast]
  values := ⟨some temperature, none, none⟩
  rain := none

/-- Two readings, the later one first, which is then delivered again. -/
theorem deliver_tally_afternoon :
    ∃ s, deliver .standard (.error .calendar)
        [afternoon 2400 10, afternoon 60 20, afternoon 2400 10] Store.empty = .ok s ∧
      Tally.Of [20, 10] (storedTally s .hourly "dev" (afternoon 0 0).time .temperature) := by
  have hok : (deliver .standard (.error .calendar)
      [afternoon 2400 10, afternoon 60 20, afternoon 2400 10] Store.empty).isOk = true := by
    decide +kernel
  cases hs : deliver .standard (.error .calendar)
      [afternoon 2400 10, afternoon 60 20, afternoon 2400 10] Store.empty with
  | error e =>
    rw [hs] at hok
    cases hok
  | ok s =>
    refine ⟨s, rfl, ?_⟩
    have hvalues : (readingsIn [afternoon 2400 10, afternoon 60 20, afternoon 2400 10] .hourly "dev"
        (afternoon 0 0).time).filterMap (fun r => r.values.get .temperature) = [20, 10] := by
      decide +kernel
    rw [← hvalues]
    exact deliver_tally hs (by decide) (by decide +kernel) .hourly "dev" _ .temperature

end Ingest

end WeatherStation
