import WeatherStation.Ingest
import WeatherStation.Proofs.Except
import WeatherStation.Proofs.Exact
import WeatherStation.Proofs.Store.Alone

/-!
# Refused readings

What a store looks like after a reading was refused. A reading is checked before anything is
written, but the checks leave one thing out: whether its times can be truncated. A reading that
passes the checks and is refused later has already replaced the latest view of its device.

Results:
* `Ingest.check_error_ne`: the checks never refuse a time.
* `Ingest.updateWindows_late`: after the checks only a time out of range is refused.
* `Ingest.refused_unchanged_iff`: which refusals leave the store as it was.
-/

namespace WeatherStation

variable {α : Type} [Quantity α]

/-! ## Refusals of the parts -/

theorem addRain_error {buckets : Buckets α} {share : ℤ × α} {e : ResampleError}
    (h : addRain buckets share = .error e) : e = .timestampOutOfRange := by
  rw [addRain] at h
  split at h
  · cases h
  · cases h
    rfl

theorem spreadSlot_error {c : RainCounts α} {unit : α} {target : UInt32} {buckets : Buckets α}
    {slot : UInt32 × UInt32} {e : ResampleError}
    (h : spreadSlot c unit target buckets slot = .error e) : e = .timestampOutOfRange :=
  foldlM_error (p := (· = .timestampOutOfRange)) (fun _ _ _ _ => addRain_error) h

/-- Rain whose width is supported is only refused for a slot outside the calendar. -/
theorem resample_refused {c : RainCounts α} {unit : α} {target : UInt32} {e : ResampleError}
    (hs : ensureSupported c.interval target = .ok ())
    (h : resample c unit target = .error (.refused e)) : e = .timestampOutOfRange := by
  simp only [resample, hs, Except.mapError, bind, Except.bind] at h
  split at h
  · next hn =>
    split at hn <;> cases hn
    cases h
  · split at h
    · next hf =>
      cases h
      exact foldlM_error (p := (· = .timestampOutOfRange)) (fun _ _ _ _ => spreadSlot_error) hf
    · cases h

theorem Granularity.bucket_mem (g : Granularity) (settings : IngestSettings) :
    g.bucket settings ∈ settings.bucketWidths := by
  cases g <;> simp [IngestSettings.bucketWidths, bucket]

theorem Granularity.start_error {g : Granularity} {t : Instant} {e : ResampleError}
    (h : g.start t = .error e) : e = .timestampOutOfRange := by
  rw [Granularity.start] at h
  split at h
  · cases h
  · cases h
    rfl

omit [Quantity α] in
theorem Ingest.windowStarts_error {g : Granularity} {r : Reading α} {buckets : Option (Buckets α)}
    {e : ResampleError} (h : windowStarts g r buckets = .error e) : e = .timestampOutOfRange := by
  rcases bind_eq_error.1 h with hs | ⟨first, -, h⟩
  · exact Granularity.start_error hs
  · rcases bind_eq_error.1 h with hm | ⟨hours, -, h⟩
    · exact mapM_error (p := (· = .timestampOutOfRange)) (fun _ _ => Granularity.start_error) hm
    · cases h

namespace Ingest

theorem check_eq (settings : IngestSettings) (r : Reading α) :
    check settings r =
      if r.brokenRules ≠ [] then .error (.invalidReading r.brokenRules)
      else match r.rain with
        | some c => (settings.bucketWidths.forM (ensureSupported c.interval)).mapError .resample
        | none => .ok () := by
  simp only [check, bind, Except.bind]
  split_ifs
  · rfl
  · cases r.rain <;> rfl

/-- The checks never look at times. -/
theorem check_error_ne {settings : IngestSettings} {r : Reading α} {e : IngestError}
    (h : check settings r = .error e) : e ≠ .resample .timestampOutOfRange := by
  rintro rfl
  rw [check_eq] at h
  split at h
  · cases h
  · split at h
    · next c _ =>
      cases hf : settings.bucketWidths.forM (ensureSupported c.interval) with
      | ok u =>
        rw [hf] at h
        cases h
      | error e =>
        rw [hf] at h
        cases h
        obtain ⟨width, -, hw⟩ := forM_error hf
        rw [ensureSupported] at hw
        split_ifs at hw <;> cases hw
    · cases h

theorem ensureSupported_of_check {settings : IngestSettings} {r : Reading α} {c : RainCounts α}
    (h : check settings r = .ok ()) (hc : r.rain = some c) {width : UInt32}
    (hw : width ∈ settings.bucketWidths) : ensureSupported c.interval width = .ok () := by
  rw [check_eq, hc] at h
  split at h
  · cases h
  · simp only at h
    cases hf : settings.bucketWidths.forM (ensureSupported c.interval) with
    | ok u => exact forM_ok hf hw
    | error e =>
      rw [hf] at h
      cases h

theorem resample_late {settings : IngestSettings} {r : Reading α} (h : check settings r = .ok ())
    {width : UInt32} (hw : width ∈ settings.bucketWidths) {e : ResampleError}
    (he : (r.rain.mapM fun c => resample c c.unitValue width) = .error (.refused e)) :
    e = .timestampOutOfRange := by
  cases hc : r.rain with
  | none =>
    rw [hc] at he
    cases he
  | some c =>
    cases hx : resample c c.unitValue width with
    | ok buckets =>
      simp [hc, hx] at he
    | error f =>
      simp only [hc, Option.mapM_some, hx] at he
      cases he
      exact resample_refused (ensureSupported_of_check h hc hw) hx

/-! ## Failures after the checks -/

/-- The failures that are left when a reading has passed its checks. -/
def Late : Failure IngestError → Prop
  | .refused (.invalidReading _) => False
  | .refused (.resample e) => e = .timestampOutOfRange
  | _ => True

theorem attemptWindow_late (settings : IngestSettings) (g : Granularity) (r : Reading α)
    (buckets : Option (Buckets α)) (start : Instant) :
    Client.FailsWith Late (attemptWindow settings g r buckets start) := by
  refine Client.FailsWith.bind (Client.failsWith_true _).adapt fun stored => ?_
  dsimp only
  split_ifs
  · exact Client.failsWith_pure _
  · exact Client.failsWith_pure _
  · refine Client.FailsWith.bind (Client.failsWith_compute fun e he => ?_) fun folded =>
      Client.FailsWith.bind (Client.failsWith_tryWrite _ _) fun _ => Client.failsWith_pure _
    obtain ⟨f, -, rfl⟩ := mapError_eq_error he
    cases f <;> trivial

theorem foldIntoWindow_late (settings : IngestSettings) (g : Granularity) (r : Reading α)
    (buckets : Option (Buckets α)) (start : Instant) (retries : ℕ) :
    Client.FailsWith Late (foldIntoWindow settings g r buckets start retries) := by
  induction retries with
  | zero =>
    refine Client.FailsWith.bind (attemptWindow_late settings g r buckets start) fun x => ?_
    cases x with
    | ok update => exact Client.failsWith_pure _
    | error e => exact Client.failsWith_throw trivial
  | succ retries ih =>
    refine Client.FailsWith.bind (attemptWindow_late settings g r buckets start) fun x => ?_
    cases x with
    | ok update => exact Client.failsWith_pure _
    | error e =>
      dsimp only
      split_ifs
      · exact ih
      · exact Client.failsWith_throw trivial

theorem foldIntoWindows_late (settings : IngestSettings) (g : Granularity) (r : Reading α)
    (buckets : Option (Buckets α)) (starts : List Instant) (outcome : WindowOutcome) :
    Client.FailsWith Late (foldIntoWindows settings g r buckets starts outcome) := by
  induction starts generalizing outcome with
  | nil => exact Client.failsWith_pure _
  | cons start rest ih =>
    exact Client.FailsWith.bind (foldIntoWindow_late settings g r buckets start _) fun _ => ih _

/-- Once a reading has passed its checks, only a time out of range is refused. -/
theorem updateWindows_late {settings : IngestSettings} {r : Reading α}
    (h : check settings r = .ok ()) (g : Granularity) :
    Client.FailsWith Late (updateWindows settings g r) := by
  refine Client.FailsWith.bind (Client.failsWith_compute fun f hf => ?_) fun buckets =>
    Client.FailsWith.bind (Client.failsWith_compute fun f hf => ?_) fun starts =>
      foldIntoWindows_late settings g r buckets starts.keys .empty
  · obtain ⟨f', hf', rfl⟩ := mapError_eq_error hf
    cases f' with
    | refused e => exact resample_late h (g.bucket_mem settings) hf'
    | overflow o => trivial
  · obtain ⟨e, he, rfl⟩ := mapError_eq_error hf
    exact windowStarts_error he

/-! ## Whole calls -/

/-- What is left of taking a reading in when its latest view is written. -/
def finish (settings : IngestSettings) (r : Reading α) (version : Version) :
    Client α (Failure IngestError) IngestOutcome := do
  let hourly ← updateWindows settings .hourly r
  let daily ← updateWindows settings .daily r
  return ⟨r.device, r.sourceId, version, hourly, daily⟩

variable (now : Except Overflow Instant)

theorem finish_late {settings : IngestSettings} {r : Reading α} (h : check settings r = .ok ())
    (version : Version) : Client.FailsWith Late (finish settings r version) :=
  Client.FailsWith.bind (updateWindows_late h .hourly) fun _ =>
    Client.FailsWith.bind (updateWindows_late h .daily) fun _ => Client.failsWith_pure _

/-- A call on a store that nobody else uses: the checks, the latest view, the windows. -/
theorem alone_apply (settings : IngestSettings) (r : Reading α) (s : Store α) :
    (apply settings r).alone now s =
      match check settings r, LatestView.ofReading settings r with
      | .error e, _ => (.error (.refused e), s)
      | .ok _, .error f => (.error (f.map .resample), s)
      | .ok _, .ok v => (finish settings r s.freshVersion).alone now (s.put (.latest v)) := by
  have hsplit : apply settings r = (do
      Client.compute ((check settings r).mapError .refused)
      let version ← saveLatest settings r
      finish settings r version) := rfl
  simp only [hsplit, saveLatest, Client.alone_bind, Client.alone_compute, Client.alone_adapt,
    Client.alone_write]
  cases check settings r with
  | error e => rfl
  | ok u =>
    cases LatestView.ofReading settings r with
    | error f => rfl
    | ok v =>
      simp only [Except.mapError, Store.allows, if_true]

end Ingest

/-- Whether a refusal is about the reading: its rules or its rain. -/
def IngestError.blamesReading : IngestError → Prop
  | .invalidReading _ | .resample _ => True
  | .tally _ | .store _ => False

namespace Ingest

variable (now : Except Overflow Instant)

/-- A refused reading has changed the store iff it passed its checks and had a latest view: then one
    of its times turned out to lie outside the range, after that view was written. -/
theorem refused_unchanged_iff (settings : IngestSettings) (r : Reading α) (s : Store α)
    {e : IngestError} (h : ((apply settings r).alone now s).1 = .error (.refused e))
    (he : e.blamesReading) :
    ((apply settings r).alone now s).2 = s ↔
      e ≠ .resample .timestampOutOfRange ∨ ∃ f, LatestView.ofReading settings r = .error f := by
  rw [alone_apply] at h ⊢
  cases hc : check settings r with
  | error e' =>
    rw [hc] at h
    cases h
    exact iff_of_true rfl (.inl (check_error_ne hc))
  | ok u =>
    cases hv : LatestView.ofReading settings r with
    | error f => exact iff_of_true rfl (.inr ⟨f, rfl⟩)
    | ok v =>
      rw [hc, hv] at h
      have hlate := (finish_late hc s.freshVersion).alone now h
      have hgrown :=
        Client.nextVersion_le now (finish settings r s.freshVersion) (s.put (.latest v))
      have hout : e = .resample .timestampOutOfRange := by
        cases e with
        | invalidReading checks => exact hlate.elim
        | resample e => rw [show e = .timestampOutOfRange from hlate]
        | tally e => exact he.elim
        | store e => exact he.elim
      refine iff_of_false (fun hs => ?_) (by simp [hout])
      simp only at hs
      rw [hs] at hgrown
      exact absurd hgrown (Nat.not_succ_le_self s.nextVersion)

/-- A reading of 11 September 2025, 15:45, whose rain fell from 1677-09-21T00:15:00Z on. The hour of
    that rain begins before the first nanosecond that 64 bits count. -/
def rainOf1677 : Reading ℚ where
  device := "dev"
  source := none
  time := (Instant.ofSeconds? 1757605500).get (by decide)
  values := .const none
  rain := some {
    units := SortedMap.empty.insert 0 1
    interval := 300
    start := (Instant.ofSeconds? (-9223371900)).get (by decide)
    declaredSlots := none
    unitValue := 1 }

/-- The settings are valid and the refusal is about the rain, but the latest view is there. -/
theorem rainOf1677_writes_latest :
    IngestSettings.standard.validate = .ok () ∧
      ((apply .standard rainOf1677).alone (.ok rainOf1677.time) Store.empty).1 =
        .error (.refused (.resample .timestampOutOfRange)) ∧
      (((apply .standard rainOf1677).alone (.ok rainOf1677.time) Store.empty).2.get?
        "dev|latest").isSome := by
  decide +kernel

theorem rainOf1677_changes_store :
    ((apply .standard rainOf1677).alone (.ok rainOf1677.time) Store.empty).2 ≠ Store.empty := by
  intro hs
  have hiff := refused_unchanged_iff (.ok rainOf1677.time) .standard rainOf1677 .empty
    (e := .resample .timestampOutOfRange) (by decide +kernel) trivial
  rcases hiff.1 hs with hne | ⟨f, hf⟩
  · exact hne rfl
  · have hok : (LatestView.ofReading .standard rainOf1677).isOk = true := by decide +kernel
    rw [hf] at hok
    cases hok

end Ingest

end WeatherStation
