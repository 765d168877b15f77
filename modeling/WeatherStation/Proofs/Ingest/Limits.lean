import WeatherStation.Proofs.Ingest.Refusals
import WeatherStation.Proofs.Rain.Words
import WeatherStation.Proofs.Sweep.WindowKeys
import WeatherStation.Proofs.Traffic.Exchanges
import WeatherStation.Proofs.View.Metered

/-!
# Calls that come to an end

A reading that is taken in or refused leaves no number out of its range on the way. There are two
exceptions. The row of a rain report whose last entry has the last 32-bit number is too long to be
counted, if its length is not declared. And a tally can take no more values than 64 bits count, each
of which takes a write of its window.

Results:
* `RainCounts.slotCount_error_iff`, `RainCounts.lt_of_slotCount`: the number of slots.
* `History.Limited`: the starts and the counts of stored windows.
* `Ingest.apply_overflow`: what a call of any run comes to.
* `Ingest.lastSlot_overflows`, `Ingest.last_two_slots`: a row that is too long, and one that is not.
-/

namespace WeatherStation

variable {ι α : Type} {g : Granularity}

/-! ## Rows of slots -/

namespace RainCounts

variable {c : RainCounts α}

/-- The length of the row is not declared, and the last entry has the last number that there is. -/
def Uncountable (c : RainCounts α) : Prop :=
  c.declaredSlots = none ∧ c.units.keys.getLast? = some 4294967295

theorem slotCount_error_iff {o : Overflow} :
    c.slotCount = .error o ↔ c.Uncountable ∧ o = .slotCount := by
  have hlast (n : UInt32) : ¬ n.toNat + 1 < UInt32.size ↔ n = 4294967295 := by
    rw [← UInt32.toNat_inj]
    have := n.toNat_lt
    change ¬ n.toNat + 1 < 4294967296 ↔ n.toNat = 4294967295
    omega
  rw [slotCount, Uncountable]
  cases c.declaredSlots with
  | some n => simp
  | none =>
    cases c.units.keys.getLast? with
    | none => simp
    | some last =>
      dsimp only
      split_ifs with hlt
      · simp [← hlast, hlt]
      · simp [(hlast last).1 hlt, eq_comm]

/-- No entry lies behind the last slot, if the length of the row is not declared. -/
theorem lt_of_slotCount {n : UInt32} (hd : c.declaredSlots = none) (hn : c.slotCount = .ok n)
    {k : UInt32} (hk : k ∈ c.units.keys) : k < n := by
  cases hl : c.units.keys.getLast? with
  | none =>
    rw [List.getLast?_eq_none_iff.1 hl] at hk
    cases hk
  | some last =>
    obtain ⟨before, hkeys⟩ := List.getLast?_eq_some_iff.1 hl
    have hle : k.toNat ≤ last.toNat := by
      rw [hkeys, List.mem_append, List.mem_singleton] at hk
      rcases hk with hk | rfl
      · have hsorted : c.units.keys.Pairwise fun a b => Key.before a b = true :=
          List.pairwise_map.2 c.units.sorted
        rw [hkeys] at hsorted
        have hlt := (List.pairwise_append.1 hsorted).2.2 k hk last (List.mem_singleton_self last)
        exact (of_decide_eq_true hlt).le
      · exact le_rfl
    rw [slotCount, hd, hl] at hn
    dsimp only at hn
    split_ifs at hn with hroom
    cases hn
    rw [UInt32.lt_iff_toNat_lt, UInt32.toNat_add, UInt32.toNat_one, Nat.mod_eq_of_lt hroom]
    omega

end RainCounts

variable [Quantity α]

/-- Resampling overflows only where slots cannot be counted. -/
theorem resample_overflow {c : RainCounts α} {unit : α} {target : UInt32} {o : Overflow}
    (h : resample c unit target = .error (.overflow o)) : c.Uncountable ∧ o = .slotCount := by
  rcases bind_eq_error.1 h with h | ⟨_, -, h⟩
  · obtain ⟨e, -, he⟩ := mapError_eq_error h
    cases he
  rcases bind_eq_error.1 h with h | ⟨slots, -, h⟩
  · obtain ⟨o', ho, he⟩ := mapError_eq_error h
    cases he
    exact RainCounts.slotCount_error_iff.1 ho
  · obtain ⟨e, -, he⟩ := mapError_eq_error h
    cases he

theorem Ingest.rainBuckets_overflow {settings : IngestSettings} {r : Reading α} {o : Overflow}
    (h : rainBuckets settings g r = .error (.overflow o)) :
    (∃ c, r.rain = some c ∧ c.Uncountable) ∧ o = .slotCount := by
  rw [rainBuckets] at h
  cases hc : r.rain with
  | none =>
    rw [hc] at h
    cases h
  | some c =>
    rw [hc, Option.mapM_some] at h
    have hr := map_eq_error h
    obtain ⟨hlong, ho⟩ := resample_overflow hr
    exact ⟨⟨c, rfl, hlong⟩, ho⟩

theorem LatestView.ofReading_overflow {settings : IngestSettings} {r : Reading α} {o : Overflow}
    (h : ofReading settings r = .error (.overflow o)) :
    (∃ c, r.rain = some c ∧ c.Uncountable) ∧ o = .slotCount := by
  rcases bind_eq_error.1 h with h | ⟨rain, -, h⟩
  · cases hc : r.rain with
    | none =>
      rw [hc] at h
      cases h
    | some c =>
      rw [hc, Option.mapM_some] at h
      have hr := map_eq_error h
      rcases bind_eq_error.1 hr with hr | ⟨buckets, -, hr⟩
      · obtain ⟨hlong, ho⟩ := resample_overflow hr
        exact ⟨⟨c, rfl, hlong⟩, ho⟩
      · split at hr
        · cases hr
        · cases hr
  · cases h

/-! ## Counts -/

/-- A tally counts one more value than before. -/
theorem Tally.count_of_add {x : α} {t : Tally α} {sum min max : α} {count : UInt64}
    (h : t.add x = .ok (.active sum count min max)) :
    ∃ sum' count' min' max', t = .active sum' count' min' max' ∧
      count.toNat = count'.toNat + 1 := by
  cases t with
  | closed s => cases h
  | active sum' count' min' max' =>
    rw [add] at h
    split_ifs at h with hroom
    cases h
    refine ⟨sum', count', min', max', rfl, ?_⟩
    rw [UInt64.toNat_add, UInt64.toNat_one, Nat.mod_eq_of_lt hroom]

/-- Only a full tally overflows. -/
theorem Tally.add_overflow {x : α} {t : Tally α} {o : Overflow}
    (h : t.add x = .error (.overflow o)) :
    o = .valueCount ∧ ∃ sum count min max, t = .active sum count min max ∧
      UInt64.size ≤ count.toNat + 1 := by
  cases t with
  | closed s => cases h
  | active sum count min max =>
    rw [add] at h
    split_ifs at h with hroom
    cases h
    exact ⟨rfl, sum, count, min, max, rfl, not_lt.1 hroom⟩

namespace WindowView

/-- No tally of the window counts more than `n` values. -/
def Counts (n : ℕ) (w : WindowView g α) : Prop :=
  ∀ p sum count min max, w.tally? p = some (.active sum count min max) → count.toNat ≤ n

omit [Quantity α] in
theorem counts_empty (n : ℕ) (device : String) (start : Instant) :
    Counts n (empty device start : WindowView g α) := by
  intro p sum count min max h
  obtain ⟨m, place⟩ := p
  cases g <;> cases place <;> simp [tally?, DailyView.tally?, DailyView.hours, empty,
    Granularity.noDetail] at h

theorem Counts.fold {n : ℕ} {settings : IngestSettings} {r : Reading α}
    {buckets : Option (Buckets α)} {w w' : WindowView g α} (hw : w.Counts n)
    (h : w.fold settings r buckets = .ok w') : w'.Counts (n + 1) := by
  intro p sum count min max hp
  obtain ⟨inside, -, htallies⟩ := fold_tally? h
  have hadded := htallies p
  cases hv : valueFor r inside g p with
  | none =>
    rw [hv] at hadded
    have hsame : w'.tally? p = w.tally? p := hadded
    exact (hw p sum count min max (hsame ▸ hp)).trans (Nat.le_succ n)
  | some x =>
    rw [hv] at hadded
    obtain ⟨t, ht, hsome⟩ := hadded
    rw [hp, Option.some_inj] at hsome
    subst hsome
    cases hold : w.tally? p with
    | none =>
      rw [hold] at ht
      cases ht
      exact Nat.succ_le_succ (Nat.zero_le n)
    | some t =>
      rw [hold] at ht
      obtain ⟨sum', count', min', max', rfl, hcount⟩ := Tally.count_of_add ht
      rw [hcount]
      exact Nat.succ_le_succ (hw p _ _ _ _ hold)

/-- A tally of a window refuses a value only when it is full or closed. -/
theorem Counts.fold_error {n : ℕ} {settings : IngestSettings} {r : Reading α}
    {buckets : Option (Buckets α)} {w : WindowView g α} (hw : w.Counts n)
    (hrange : w.start.seconds ≤ 9223372036) {o : Overflow}
    (h : w.fold settings r buckets = .error (.overflow o)) :
    o = .valueCount ∧ UInt64.size ≤ n + 1 := by
  rcases WindowView.fold_error h with ⟨o', ho', -⟩ | ⟨p, x, -, -, hadd⟩
  · obtain ⟨inside, hinside⟩ := exists_contains hrange r.time
    rw [hinside] at ho'
    cases ho'
  · cases hold : w.tally? p with
    | none =>
      rw [hold] at hadd
      cases hadd
    | some t =>
      rw [hold] at hadd
      obtain ⟨ho, sum, count, min, max, rfl, hfull⟩ := Tally.add_overflow hadd
      exact ⟨ho, hfull.trans (Nat.succ_le_succ (hw p _ _ _ _ hold))⟩

/-- A closed day counts nothing any more. -/
theorem counts_of_close {d c : DailyView α} (h : DailyView.close.result d = .ok c) (n : ℕ) :
    Counts n c := by
  intro p sum count min max hp
  have hcloses : Option.Rel Tally.Closes (d.tally? p) (DailyView.tally? c p) :=
    (DailyView.sealedAs_of_close h).closes p
  have hp : DailyView.tally? c p = some (.active sum count min max) := hp
  rw [hp] at hcloses
  revert hcloses
  generalize d.tally? p = t
  rintro ⟨avg, -, hclosed⟩
  cases hclosed

end WindowView

/-! ## Stored windows -/

/-- Every stored window starts where instants are truncated to, and has taken no more values into a
    tally than it was written. -/
structure History.Limited (h : History ι α) : Prop where
  inherits : h.Inherits (WindowView.StartsAt (InstantOf fun _ (_ : Reading α) => True))
  counts : ∀ {key} {g : Granularity} {w : WindowView g α},
    h.store.get? key = some (.ofWindow w) → w.Counts (h.writers key).length

omit [Quantity α] in
/-- A view that is a window with another version is a window. -/
theorem View.eq_ofWindow_of_withVersion {v : View α} {t : Option Version} {w : WindowView g α}
    (h : v.withVersion t = .ofWindow w) : v = .ofWindow (w.setVersion v.version) := by
  cases v <;> cases g <;> cases h <;> rfl

namespace History

variable {h : History ι α} {i : ι}

omit [Quantity α] in
theorem limited_empty : (empty : History ι α).Limited where
  inherits := inherits_empty
  counts := by
    intro key g w hw
    cases hw

omit [Quantity α] in
theorem Limited.put (hl : h.Limited) {v : View α}
    (hi : (h.put i v).Inherits (WindowView.StartsAt (InstantOf fun _ (_ : Reading α) => True)))
    (hv : ∀ (g : Granularity) (w : WindowView g α), v = .ofWindow w →
      w.Counts ((h.writers v.key).length + 1)) : (h.put i v).Limited := by
  refine ⟨hi, fun {key g w} hw => ?_⟩
  by_cases hk : key = v.key
  · subst hk
    rw [get?_put_self, Option.some_inj] at hw
    rw [writers_put_self, List.length_append, List.length_singleton]
    intro p sum count min max hp
    refine hv g (w.setVersion v.version) (View.eq_ofWindow_of_withVersion hw) p sum count min max ?_
    rwa [WindowView.tally?_congr w (w.setVersion v.version) rfl rfl]
  · rw [get?_put_ne _ _ hk] at hw
    rw [writers_put_ne _ _ hk]
    exact hl.counts hw

theorem Limited.start_le (hl : h.Limited) {key : String} {w : WindowView g α}
    (hw : h.store.get? key = some (.ofWindow w)) : w.start.seconds ≤ 9223372036 := by
  obtain ⟨t, hstart, -⟩ := hl.inherits.get? (WindowView.inherited_startsAt _) hw
  exact (Granularity.start_bounds hstart).2

variable {settings : IngestSettings} {r : Reading α} {buckets : Option (Buckets α)}
  {starts : List Instant} {start : Instant}

/-- The window that a reading finds has a start and counts like those of stored windows. -/
theorem Limited.window? (hl : h.Limited) (ht : Ingest.Touched settings g r buckets starts)
    (hs : start ∈ starts) {w : WindowView g α}
    (hw : h.store.window? g r.device start = some w) :
    w.start.seconds ≤ 9223372036 ∧
      w.Counts (h.writers (g.id r.device start).key).length := by
  rcases Store.window?_cases hw with hv | ⟨-, rfl⟩
  · exact ⟨hl.start_le hv, hl.counts hv⟩
  · obtain ⟨t, -, hstart⟩ := ht.exists_start hs
    exact ⟨(Granularity.start_bounds hstart).2, WindowView.counts_empty _ _ _⟩

theorem Limited.put_window (hl : h.Limited) (ht : Ingest.Touched settings g r buckets starts)
    (hs : start ∈ starts) {folded : WindowView g α}
    (hf : h.store.FoldsTo settings r buckets start folded) :
    (h.put i (.ofWindow folded)).Limited := by
  have hkey := hf.key hl.inherits.orderly.sound
  refine hl.put (hl.inherits.put (hl.inherits.orderly.put_window hf).1
    (View.windowHas_ofWindow.2 (hl.inherits.folded (WindowView.inherited_startsAt _) trivial
      ht hs hf))) fun g' w' hw' => ?_
  obtain ⟨rfl, hw'⟩ := View.ofWindow_inj hw'
  obtain rfl := eq_of_heq hw'
  obtain ⟨w, hw, -, -, hfold⟩ := hf
  rw [hkey]
  exact (hl.window? ht hs hw).2.fold hfold

end History

namespace Ingest

/-- Stored windows keep their limits, and nothing is taken from the record. -/
def limitedTerms (i : ι) : Terms ι α := .growing i History.Limited

variable {i : ι} {h : History ι α} {settings : IngestSettings} {r : Reading α}
  {buckets : Option (Buckets α)} {starts : List Instant} {start : Instant}

theorem mayFold_limitedTerms (ht : Touched settings g r buckets starts) (hs : start ∈ starts) :
    MayFold (limitedTerms i) settings g r buckets start where
  sound hl := hl.inherits.orderly.sound
  grows hp := hp
  write hl hf := ⟨hl.put_window ht hs hf, List.prefix_append _ _⟩

/-- An attempt overflows only where the fold of a window that was found does. -/
theorem attemptWindow_overflow {T : Terms ι α} (ht : MayFold T settings g r buckets start) :
    Client.Safe T (fun x h' => ∀ o, x = .error (.overflow o) →
        T.Since h (fun h₀ => ∃ w, h₀.store.window? g r.device start = some w ∧
          w.fold settings r buckets = .error (.overflow o)) h')
      (attemptWindow settings g r buckets start) h := by
  refine Client.safe_getAs_bind (fun stored h₀ h' hi₀ hr₀ hr' hf => ?_)
    fun e h₀ h' hi₀ hr₀ hr' hf o ho => by cases ho
  obtain ⟨hw, hversion⟩ := window?_of_found hf
  dsimp only
  generalize stored.getD (.empty r.device start) = w at hw hversion ⊢
  split_ifs with hsealed happlied
  · exact Client.safe_pure fun h'' _ _ o ho => by cases ho
  · exact Client.safe_pure fun h'' _ _ o ho => by cases ho
  refine Client.safe_compute_bind (fun folded hfolded => ?_) fun e he h'' _ hr'' o ho => ?_
  · have hwritten := (Client.failsWith_tryWrite (p := fun _ => False) _ _).safe
      (tryWrite_folded_safe ht hi₀ hr₀ hr' hw hversion (by simpa using hsealed)
        (by simpa using happlied) (mapError_eq_ok hfolded))
    refine Client.safe_bind hwritten (fun _ _ _ _ => Client.safe_pure fun _ _ _ o ho => by cases ho)
      fun e h'' hi he => ?_
    exact ((he.now hi).1 e rfl).elim
  · obtain ⟨e', he', hmap⟩ := mapError_eq_error he
    cases e' with
    | refused e' =>
      rw [hmap] at ho
      cases ho
    | overflow o' =>
      rw [hmap] at ho
      cases ho
      exact ⟨h₀, hi₀, hr₀, T.rely_trans hr' hr'', w, hw, he'⟩

/-- The only overflow of an outcome is that of a tally, in a window that was written as often as
    64 bits count. -/
def Spared {ε β : Type} (x : Except (Failure ε) β) (h : History ι α) : Prop :=
  ∀ o, x = .error (.overflow o) →
    o = .valueCount ∧ ∃ key, UInt64.size ≤ (h.writers key).length + 1

omit [Quantity α] in
/-- A step that is spared, and one after it. -/
theorem safe_bind_spared {ε β γ : Type} {c : Client α (Failure ε) β}
    {f : β → Client α (Failure ε) γ} (hc : c.Safe (limitedTerms i) Spared h)
    (hf : ∀ x h', (f x).Safe (limitedTerms i) Spared h') :
    Client.Safe (limitedTerms i) Spared (c >>= f) h := by
  refine Client.safe_bind hc (fun x h' _ _ => hf x h') fun e h' _ he => ?_
  refine he.mono fun h'' _ hx o ho => ?_
  cases ho
  exact hx o rfl

omit [Quantity α] in
theorem safe_pure_spared {ε β : Type} (x : β) :
    Client.Safe (limitedTerms i) Spared (pure x : Client α (Failure ε) β) h :=
  Client.safe_pure fun _ _ _ o ho => by cases ho

omit [Quantity α] in
theorem safe_throw_spared {ε β : Type} (e : ε) :
    Client.Safe (limitedTerms i) Spared (throw (.refused e) : Client α (Failure ε) β) h :=
  Client.safe_throw fun _ _ _ o ho => by cases ho

theorem attemptWindow_spared (ht : Touched settings g r buckets starts) (hs : start ∈ starts) :
    Client.Safe (limitedTerms i) Spared (attemptWindow settings g r buckets start) h := by
  refine Program.Safe.mono (attemptWindow_overflow (mayFold_limitedTerms ht hs))
    fun x h' _ hx o ho => ?_
  obtain ⟨h₀, hl, -, hr, w, hw, hfold⟩ := hx o ho
  obtain ⟨hrange, hcounts⟩ := History.Limited.window? hl ht hs hw
  obtain ⟨hcount, hfull⟩ := hcounts.fold_error hrange hfold
  exact ⟨hcount, _, hfull.trans (Nat.succ_le_succ (History.writers_prefix hr _).length_le)⟩

theorem foldIntoWindow_spared (ht : Touched settings g r buckets starts) (hs : start ∈ starts)
    (retries : ℕ) :
    Client.Safe (limitedTerms i) Spared (foldIntoWindow settings g r buckets start retries) h := by
  induction retries generalizing h with
  | zero =>
    refine safe_bind_spared (attemptWindow_spared ht hs) fun x h' => ?_
    cases x with
    | ok u => exact safe_pure_spared u
    | error e => exact safe_throw_spared _
  | succ retries ih =>
    refine safe_bind_spared (attemptWindow_spared ht hs) fun x h' => ?_
    cases x with
    | ok u => exact safe_pure_spared u
    | error e =>
      dsimp only
      split_ifs
      · exact ih
      · exact safe_throw_spared _

theorem foldIntoWindows_spared (ht : Touched settings g r buckets starts) {rest : List Instant}
    (hrest : rest ⊆ starts) (outcome : WindowOutcome) :
    Client.Safe (limitedTerms i) Spared (foldIntoWindows settings g r buckets rest outcome) h := by
  induction rest generalizing h outcome with
  | nil => exact safe_pure_spared outcome
  | cons start rest ih =>
    obtain ⟨hs, hrest⟩ := List.cons_subset.1 hrest
    exact safe_bind_spared (foldIntoWindow_spared ht hs _) fun u h' => ih hrest _

/-- All windows of one width, if slots can be counted. -/
theorem updateWindows_spared (hc : ∀ c, r.rain = some c → ¬ c.Uncountable) (g : Granularity) :
    Client.Safe (limitedTerms i) Spared (updateWindows settings g r) h := by
  refine Client.safe_compute_bind (fun buckets hb => ?_) fun e he h' _ _ o ho => ?_
  · have hb : rainBuckets settings g r = .ok buckets := mapError_eq_ok hb
    refine Client.safe_compute_bind (fun set hset => ?_) fun e he h' _ _ o ho => ?_
    · exact foldIntoWindows_spared ⟨hb, set, mapError_eq_ok hset, rfl⟩ (List.Subset.refl _) _
    · obtain ⟨e', -, rfl⟩ := mapError_eq_error he
      cases ho
  · obtain ⟨e', he', hmap⟩ := mapError_eq_error he
    cases ho
    cases e' with
    | refused e' => cases hmap
    | overflow o' =>
      obtain ⟨⟨c, hrain, hlong⟩, -⟩ := rainBuckets_overflow he'
      exact (hc c hrain hlong).elim

/-! ## Whole calls -/

/-- The rain report of a reading has a row of slots that is too long to be counted. -/
def TooLong (r : Reading α) : Prop := ∃ c, r.rain = some c ∧ c.Uncountable

/-- What a call comes to: the overflows that are left, and when there is one of slots. -/
structure Judged (settings : IngestSettings) (r : Reading α)
    (x : Except (Failure IngestError) IngestOutcome) (h : History ι α) : Prop where
  slots : x = .error (.overflow .slotCount) ↔ check settings r = .ok () ∧ TooLong r
  counts : ∀ o, x = .error (.overflow o) → o ≠ .slotCount →
    o = .valueCount ∧ ∃ key, UInt64.size ≤ (h.writers key).length + 1

theorem saveLatest_spared (hr : ¬ TooLong r) :
    Client.Safe (limitedTerms i) Spared (saveLatest settings r) h := by
  refine Client.safe_compute_bind (fun v hv => ?_) fun e he h' _ _ o ho => ?_
  · have hv := mapError_eq_ok hv
    refine Client.safe_adapt (Client.safe_write (fun h' hl _ _ => ?_) fun e h' _ _ o ho => ?_)
    · have ho := (hl.inherits.orderly.put_latest (i := i) hv).1
      refine ⟨hl.put (hl.inherits.put ho trivial) fun g w hw => ?_, List.prefix_append _ _,
        fun _ _ _ _ o ho => by cases ho⟩
      cases g <;> cases hw
    · cases ho
  · obtain ⟨e', he', hmap⟩ := mapError_eq_error he
    cases ho
    cases e' with
    | refused e' => cases hmap
    | overflow o' => exact (hr (LatestView.ofReading_overflow he').1).elim

/-- A row that is too long ends the call before it makes a request. -/
theorem apply_of_tooLong (hr : TooLong r) :
    ∃ x, (apply settings r).run = .done x ∧ ∀ h : History ι α, Judged settings r x h := by
  cases hc : check settings r with
  | error e =>
    have hrun : (apply settings r).run = .done (.error (.refused e)) := by
      rw [apply, hc]
      rfl
    refine ⟨_, hrun, fun h => ⟨?_, ?_⟩⟩
    · simp [hc]
    · intro o ho
      cases ho
  | ok u =>
    obtain ⟨c, hrain, hlong⟩ := hr
    have hslots : c.slotCount = .error .slotCount :=
      RainCounts.slotCount_error_iff.2 ⟨hlong, rfl⟩
    have hlatest : LatestView.ofReading settings r = .error (.overflow .slotCount) := by
      have hsupported : ensureSupported c.interval settings.latestBucket = .ok () :=
        ensureSupported_of_check hc hrain (by simp [IngestSettings.bucketWidths])
      have hrainOf : LatestView.rainOf settings c = .error (.overflow .slotCount) := by
        rw [LatestView.rainOf, resample, hsupported, hslots]
        rfl
      rw [LatestView.ofReading, hrain, Option.mapM_some, hrainOf]
      rfl
    have hrun : (apply settings r).run = .done (.error (.overflow .slotCount)) := by
      rw [apply, hc, saveLatest, hlatest]
      rfl
    refine ⟨_, hrun, fun h => ⟨?_, ?_⟩⟩
    · simp [hc, TooLong, hrain, hlong]
    · intro o ho hne
      cases ho
      exact (hne rfl).elim

theorem apply_judged :
    Client.Safe (limitedTerms i) (Judged settings r) (apply settings r) h := by
  by_cases hr : TooLong r
  · obtain ⟨x, hrun, hx⟩ := apply_of_tooLong hr
    rw [Client.Safe, hrun]
    exact fun h' _ _ => hx h'
  have hspared : Client.Safe (limitedTerms i) Spared (apply settings r) h := by
    refine Client.safe_compute_bind (fun _ _ => ?_) fun e he h' _ _ o ho => ?_
    · refine safe_bind_spared (saveLatest_spared hr) fun version h₁ => ?_
      have hrow : ∀ c, r.rain = some c → ¬ c.Uncountable := fun c hc hlong => hr ⟨c, hc, hlong⟩
      refine safe_bind_spared (updateWindows_spared hrow .hourly) fun hourly h₂ => ?_
      exact safe_bind_spared (updateWindows_spared hrow .daily) fun daily h₃ => safe_pure_spared _
    · obtain ⟨e', -, rfl⟩ := mapError_eq_error he
      cases ho
  refine Program.Safe.mono hspared fun x h' _ hx =>
    ⟨⟨fun ho => ?_, fun hlong => ?_⟩, fun o ho _ => hx o ho⟩
  · cases (hx _ ho).1
  · exact (hr hlong.2).elim

/-! ## Runs -/

/-- A day that a sweep may write: its key names it, it starts where a day does, and it counts
    nothing any more. -/
def Ready (c : DailyView α) (_ : History ι α) : Prop :=
  (View.daily c).Named ∧
    WindowView.StartsAt (InstantOf fun _ (_ : Reading α) => True) .daily c ∧
      ∀ n, WindowView.Counts n (g := .daily) c

theorem maySweep_limited (i : ι) (cutoff : Instant) :
    Sweep.MaySweep (limitedTerms (α := α) i) (fun _ => limitedTerms i) Ready Ready cutoff where
  fits _ := .refl _
  apart _ := ⟨fun _ _ hg => hg, fun _ _ hg => hg⟩
  sound hl := hl.inherits.orderly.sound
  grows hr := hr
  known_rely _ _ hd := hd
  ready_rely _ _ hd := hd
  write {h days w w' o} hl _ hdays huniq hw happly := by
    obtain ⟨-, ho, -, -⟩ := hl.inherits.orderly.put_week (i := i) hw
      (fun d hd => ⟨(hdays d hd).1, (hdays d hd).2.1⟩) huniq happly
    refine ⟨hl.put (hl.inherits.put ho trivial) fun g w hw => ?_, List.prefix_append _ _,
      fun d hd => (hdays d hd).2⟩
    cases g <;> cases hw
  read {h c} hl hc := by
    have hnamed := hc.named hl.inherits.orderly
    obtain ⟨d, hd, hdc⟩ := hc
    have hstart := WindowView.inherited_startsAt fun _ (_ : Reading α) => True
    exact ⟨hnamed, hstart.close (hl.inherits.get? (g := .daily) hstart hd.stored) hdc,
      WindowView.counts_of_close hdc⟩
  write_day {h c} hl hc _ := by
    refine ⟨hl.put (hl.inherits.put (hl.inherits.orderly.put hc.1) hc.2.1) fun g w hw => ?_,
      List.prefix_append _ _, fun _ hc' => hc'⟩
    cases g with
    | hourly => cases hw
    | daily =>
      cases hw
      exact hc.2.2 _

end Ingest

namespace Job

/-- What a client does, and the outcome of a reading. -/
def outcome : Job α → Program α (Option (Except (Failure IngestError) IngestOutcome))
  | reading settings r => do return some (← (Ingest.apply settings r).run)
  | sweep settings schedule _ limit lookbackHours => do
    let _ ← (Sweep.execute settings schedule limit lookbackHours).run
    return none

/-- What the outcome of a client is known to be. -/
def Judged (job : Job α) (x : Option (Except (Failure IngestError) IngestOutcome))
    (h : History ι α) : Prop :=
  ∀ settings r y, job = .reading settings r → x = some y → Ingest.Judged settings r y h

theorem safe_judged (i : ι) (job : Job α) (h : History ι α) :
    job.outcome.Safe (Ingest.limitedTerms i) (Judged job) h := by
  cases job with
  | reading settings r =>
    refine Program.Safe.bind (Ingest.apply_judged (i := i)) fun x h' _ hx h'' hi hr => ?_
    intro settings' r' y hjob hy
    cases hjob
    cases hy
    exact hx h'' hi hr
  | sweep settings schedule weaves limit lookbackHours =>
    have hsafe : Client.Safe (Ingest.limitedTerms i) (fun _ _ => True)
        (Sweep.execute settings schedule limit lookbackHours) h :=
      Sweep.execute_safe (Ingest.maySweep_limited i) weaves limit lookbackHours
    refine Program.Safe.bind hsafe fun _ _ _ _ h'' _ _ settings' r' y hjob => ?_
    cases hjob

end Job

namespace Ingest

variable [DecidableEq ι]

/-- A call of any run is taken in or refused, unless the row of its report is too long, or a window
    was written as often as 64 bits count. A row that is not too long has its entries before its
    end. Resampling and merging stay within 64 bits and never divide by zero, and truncation never
    leaves the calendar. -/
theorem apply_overflow (jobs : ι → Job α) (moves : List (Move ι)) :
    let t := (Traffic.start fun i => (jobs i).outcome).run moves
    (∀ i settings r x, jobs i = .reading settings r → t.clients i = .done (some x) →
      (x = .error (.overflow .slotCount) ↔ check settings r = .ok () ∧ TooLong r) ∧
        ∀ o, x = .error (.overflow o) → o ≠ .slotCount →
          o = .valueCount ∧ ∃ key, UInt64.size ≤ (t.history.writers key).length + 1) ∧
    (∀ c : RainCounts α, c.declaredSlots = none → ¬ c.Uncountable →
      ∃ n, c.slotCount = .ok n ∧ ∀ k ∈ c.units.keys, k < n) ∧
    (∀ (c : RainCounts α) (unitValue : α) (target : UInt32),
      (Word.resample c unitValue target).run = .ok (resample c unitValue target)) ∧
    (∀ (mode : MergeMode) (w : RainWindow α) (buckets : Buckets α),
      Word.merge mode w buckets = .ok (w.merge mode buckets)) ∧
    ∀ (u : Instant) (width : UInt32),
      u.truncate? width.toNat = none ↔ width = 0 ∨ u.nanoseconds? = none := by
  intro t
  refine ⟨fun i settings r x hjob hx => ?_, fun c hd hc => ?_, Word.resample_eq, Word.merge_eq,
    fun u width => Instant.truncate?_eq_none_iff⟩
  · obtain ⟨hl, hs⟩ := Traffic.run_safe (T := limitedTerms) (fun i => (jobs i).Judged)
      (t := .start fun i => (jobs i).outcome) (fun _ => rfl) (fun _ => rfl)
      (fun _ _ _ _ _ hg => hg) History.limited_empty (fun i => (jobs i).safe_judged i _) moves
    have hjudged : (jobs i).Judged (some x) t.history :=
      Traffic.post_of_done (T := limitedTerms i) hl (hs i) hx
    exact ⟨(hjudged settings r x hjob rfl).slots, (hjudged settings r x hjob rfl).counts⟩
  · cases hn : c.slotCount with
    | ok n => exact ⟨n, rfl, fun k hk => RainCounts.lt_of_slotCount hd hn hk⟩
    | error o => exact (hc (RainCounts.slotCount_error_iff.1 hn).1).elim

/-- Buckets of an hour in the latest view and in hourly views. -/
def hourBuckets : IngestSettings := { IngestSettings.standard with
  latestBucket := 3600
  hourlyBucket := 3600 }

/-- A reading of 11 September 2025, 15:00, with one tip in a slot of an hour that lies far ahead. -/
def tipInSlot (slot : UInt32) : Reading ℚ :=
  { Sweep.reading "a" 0 with
    values := .const none
    rain := some {
      units := SortedMap.empty.insert slot 1
      interval := 3600
      start := (Sweep.reading "a" 0).time
      declaredSlots := none
      unitValue := 1 } }

/-- The reading is refused for a slot outside the calendar, but not if it is the last slot that
    there is. -/
theorem lastSlot_overflows :
    hourBuckets.validate = .ok () ∧ (tipInSlot 4294967295).brokenRules = [] ∧
      ((apply hourBuckets (tipInSlot 4294967294)).alone (.error .calendar) Store.empty).1 =
        .error (.refused (.resample .timestampOutOfRange)) ∧
      ((apply hourBuckets (tipInSlot 4294967295)).alone (.error .calendar) Store.empty).1 =
        .error (.overflow .slotCount) := by
  decide +kernel

/-- Two clients. One report has a row that is too long, and the other one does not. -/
theorem last_two_slots :
    let jobs : Fin 2 → Job ℚ := ![.reading hourBuckets (tipInSlot 4294967295),
      .reading hourBuckets (tipInSlot 4294967294)]
    let moves : List (Move (Fin 2)) := [⟨0, .error .calendar, none⟩, ⟨1, .error .calendar, none⟩]
    let t := (Traffic.start fun i => (jobs i).outcome).run moves
    t.clients 0 = .done (some (.error (.overflow .slotCount))) ∧
      TooLong (tipInSlot 4294967295) ∧
      t.clients 1 = .done (some (.error (.refused (.resample .timestampOutOfRange)))) ∧
      ¬ TooLong (tipInSlot 4294967294) := by
  intro jobs moves t
  have hfirst : t.clients 0 = .done (some (.error (.overflow .slotCount))) :=
    Program.eq_done_of_result? (by decide +kernel)
  have hsecond :
      t.clients 1 = .done (some (.error (.refused (.resample .timestampOutOfRange)))) :=
    Program.eq_done_of_result? (by decide +kernel)
  have hall := (apply_overflow jobs moves).1
  refine ⟨hfirst, ((hall 0 _ _ _ rfl hfirst).1.1 rfl).2, hsecond, fun hlong => ?_⟩
  have hchecked : check hourBuckets (tipInSlot 4294967294) = .ok () := by decide +kernel
  cases (hall 1 _ _ _ rfl hsecond).1.2 ⟨hchecked, hlong⟩

end Ingest

end WeatherStation
