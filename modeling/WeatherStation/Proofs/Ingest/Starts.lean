import WeatherStation.Proofs.Ingest.Windows
import WeatherStation.Proofs.SortedMap
import WeatherStation.Proofs.Time.Truncation
import WeatherStation.Proofs.View.Keys

/-!
# Starts of windows

The windows that a reading touches start at whole hours or days, if the reading does not fall into a
leap second, and the window of its own instant is one of them.

Results:
* `resample_keys`: buckets start at whole seconds.
* `Ingest.Touched.aligned`: windows start at multiples of their width.
* `Ingest.Touched.start_eq`: windows that two readings touch under one key are the same;
  `Ingest.Touched.nodup_keys`: no two windows of a reading share a key.
* `Ingest.Touched.self`: the window of the instant of a reading is touched.
-/

namespace WeatherStation

variable {α : Type} [Quantity α]

/-- The buckets of a map start at whole seconds. -/
def WholeSeconds (buckets : Buckets α) : Prop := ∀ t ∈ buckets.keys, t.nanos = 0

theorem addRain_keys {buckets buckets' : Buckets α} {share : ℤ × α}
    (h : addRain buckets share = .ok buckets') (hb : WholeSeconds buckets) :
    WholeSeconds buckets' := by
  rw [addRain] at h
  split at h
  · next t ht =>
    cases h
    intro s hs
    rcases SortedMap.mem_keys_insert.1 hs with rfl | hs
    · exact (Instant.ofParts?_spec ht).2
    · exact hb s hs
  · cases h

/-- Resampled rain lies in buckets that start at whole seconds. -/
theorem resample_keys {c : RainCounts α} {unit : α} {target : UInt32} {buckets : Buckets α}
    (h : resample c unit target = .ok buckets) : WholeSeconds buckets := by
  obtain ⟨_, -, h⟩ := bind_eq_ok.1 h
  obtain ⟨slots, -, h⟩ := bind_eq_ok.1 h
  refine foldlM_ok (p := WholeSeconds) (fun b slot b' _ hstep hb => ?_) ?_ (mapError_eq_ok h)
  · exact foldlM_ok (p := WholeSeconds) (fun _ _ _ _ => addRain_keys) hb hstep
  · intro t ht
    cases ht

omit [Quantity α] in
theorem isLeap_of_mem_affectedHours {buckets : Buckets α} (hb : WholeSeconds buckets) {t : Instant}
    (ht : t ∈ (affectedHours buckets).keys) : t.isLeap = false := by
  rw [affectedHours, SortedSet.mem_keys_ofList, List.mem_filterMap] at ht
  obtain ⟨b, hmem, hb'⟩ := ht
  have hl : b.isLeap = false := by simp [Instant.isLeap, hb b hmem]
  simp [Instant.isLeap, (Instant.truncate?_spec hl hb').2]

namespace Ingest

variable {settings : IngestSettings} {g : Granularity} {r : Reading α}
  {buckets : Option (Buckets α)} {starts : List Instant}

theorem rainBuckets_keys {map : Buckets α} (h : rainBuckets settings g r = .ok (some map)) :
    WholeSeconds map := by
  rcases rainBuckets_ok h with ⟨-, hnone⟩ | ⟨c, map', -, hsome, hmap⟩
  · cases hnone
  · cases hsome
    exact resample_keys hmap

/-- Every touched window is the window of the instant of the reading, or of an hour in which its
    rain fell. -/
theorem Touched.exists_start (h : Touched settings g r buckets starts) {start : Instant}
    (hs : start ∈ starts) : ∃ t, (t = r.time ∨ t.isLeap = false) ∧ g.start t = .ok start := by
  obtain ⟨hb, set, hset, rfl⟩ := h
  obtain ⟨first, hfirst, hset⟩ := bind_eq_ok.1 hset
  obtain ⟨hours, hhours, hset⟩ := bind_eq_ok.1 hset
  cases hset
  rw [SortedSet.mem_keys_ofList, List.mem_cons] at hs
  rcases hs with rfl | hs
  · exact ⟨r.time, .inl rfl, hfirst⟩
  · obtain ⟨t, ht, hstart⟩ := mem_of_mapM_ok hhours hs
    refine ⟨t, .inr ?_, hstart⟩
    cases hbuckets : buckets with
    | none =>
      rw [hbuckets] at ht
      cases ht
    | some map =>
      rw [hbuckets] at ht hb
      exact isLeap_of_mem_affectedHours (rainBuckets_keys hb) ht

/-- Every touched window is the window of an instant outside leap seconds, if the reading is. -/
theorem Touched.start_of (h : Touched settings g r buckets starts) (hl : r.time.isLeap = false)
    {start : Instant} (hs : start ∈ starts) : ∃ t, t.isLeap = false ∧ g.start t = .ok start := by
  obtain ⟨t, ht, hstart⟩ := h.exists_start hs
  rcases ht with rfl | ht
  · exact ⟨r.time, hl, hstart⟩
  · exact ⟨t, ht, hstart⟩

/-- The windows that a reading touches start at multiples of their width. -/
theorem Touched.aligned (h : Touched settings g r buckets starts) (hl : r.time.isLeap = false)
    {start : Instant} (hs : start ∈ starts) :
    start.seconds = start.seconds / g.seconds * g.seconds ∧ start.nanos = 0 := by
  obtain ⟨t, ht, hstart⟩ := h.start_of hl hs
  rw [Granularity.seconds_start ht hstart]
  exact Granularity.start_spec ht hstart

/-- What two readings touch under one key is one window. -/
theorem Touched.start_eq {r' : Reading α} {buckets' : Option (Buckets α)} {starts' : List Instant}
    (h : Touched settings g r buckets starts) (h' : Touched settings g r' buckets' starts')
    (hl : r.time.isLeap = false) (hl' : r'.time.isLeap = false) {start start' : Instant}
    (hs : start ∈ starts) (hs' : start' ∈ starts')
    (hkey : (g.id r.device start).key = (g.id r'.device start').key) : start = start' := by
  obtain ⟨hsec, hnanos⟩ := h.aligned hl hs
  obtain ⟨hsec', hnanos'⟩ := h'.aligned hl' hs'
  have hquot := (g.id_key_eq_iff.1 hkey).2
  refine Instant.rank_inj ?_
  rw [Instant.rank, Instant.rank, hnanos, hnanos', hsec, hsec', hquot]

/-- The windows that a reading touches have different keys. -/
theorem Touched.nodup_keys (h : Touched settings g r buckets starts) (hl : r.time.isLeap = false) :
    (starts.map fun start => (g.id r.device start).key).Nodup := by
  have hnodup : starts.Nodup := by
    obtain ⟨-, set, -, rfl⟩ := h
    exact set.nodup_keys
  exact hnodup.map_on fun s hs t ht hkey => h.start_eq h hl hl hs ht hkey

/-- A reading touches the window of its own instant. -/
theorem Touched.self (h : Touched settings g r buckets starts) :
    ∃ start ∈ starts, g.start r.time = .ok start := by
  obtain ⟨-, set, hset, rfl⟩ := h
  obtain ⟨first, hfirst, hset⟩ := bind_eq_ok.1 hset
  obtain ⟨hours, -, hset⟩ := bind_eq_ok.1 hset
  cases hset
  exact ⟨first, SortedSet.mem_keys_ofList.2 List.mem_cons_self, hfirst⟩

end Ingest

end WeatherStation
