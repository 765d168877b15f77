import Mathlib.Tactic
import WeatherStation.Proofs.SortedMap
import WeatherStation.Rain.Window

/-!
# The slots of a row

What becomes of a row of slots when the rain of buckets is merged in. The buckets and the row may
start at any nanosecond, as long as no leap second is involved: each slot joins the rain of the
buckets that start within it, in the order of time, and no others.

Results:
* `RainWindow.Covers`, `RainWindow.Spans`: the instants of a slot, and those of all slots.
* `RainWindow.place?_eq_some`: a bucket goes to the slot that covers its start.
* `RainWindow.getElem?_merge_covers`: what a slot gets.
* `RainWindow.merge_of_spans`: buckets outside the window have no effect.
* `RainWindow.foldl_mergeBucket_ext`: buckets that give every slot the same.
-/

namespace WeatherStation

/-! ## Instants -/

namespace Instant

/-- The nanoseconds since 1970 of an instant outside leap seconds. -/
def total (t : Instant) : ℤ := t.seconds * 1000000000 + t.nanos

variable {t s : Instant}

/-- Outside leap seconds, elapsed time is a difference. -/
theorem since_eq_total (ht : t.isLeap = false) (hs : s.isLeap = false) :
    t.since s = t.total - s.total := by
  have ht' : (t.secondOfDay : ℤ) = t.seconds % 86400 := Int.toNat_of_nonneg (by omega)
  have hs' : (s.secondOfDay : ℤ) = s.seconds % 86400 := Int.toNat_of_nonneg (by omega)
  simp only [since, ht, hs, Bool.false_eq_true, and_false, if_false, ht', hs', total]
  omega

/-- Outside leap seconds, the order of instants is that of their nanoseconds. -/
theorem lt_iff_total (ht : t.isLeap = false) (hs : s.isLeap = false) :
    t < s ↔ t.total < s.total := by
  have ht' : t.nanos < 1000000000 := by simpa [isLeap] using ht
  have hs' : s.nanos < 1000000000 := by simpa [isLeap] using hs
  change t.rank < s.rank ↔ _
  simp only [rank, total]
  omega

end Instant

namespace RainWindow

/-! ## Slots -/

section

variable {α : Type} {w : RainWindow α} {t : Instant}

/-- The nanoseconds from the start of a window to that of a slot. -/
def offset (w : RainWindow α) (j : ℕ) : ℤ := j * (w.interval.toNat * 1000000000)

/-- The instant lies within a slot: not before its start, and before the start of the next one. -/
def Covers (w : RainWindow α) (j : ℕ) (t : Instant) : Prop :=
  w.start.total + w.offset j ≤ t.total ∧ t.total < w.start.total + w.offset (j + 1)

/-- The instant lies within one of the slots: not before the window, nor behind its last slot. -/
def Spans (w : RainWindow α) (t : Instant) : Prop :=
  w.start.total ≤ t.total ∧ t.total < w.start.total + w.offset w.values.length

instance (w : RainWindow α) (j : ℕ) (t : Instant) : Decidable (w.Covers j t) :=
  inferInstanceAs (Decidable (_ ∧ _))

theorem offset_mono (w : RainWindow α) {i j : ℕ} (h : i ≤ j) : w.offset i ≤ w.offset j :=
  mul_le_mul_of_nonneg_right (by exact_mod_cast h) (by positivity)

/-- A slot of the window lies within the window. -/
theorem Covers.spans {j : ℕ} (hj : j < w.values.length) (h : w.Covers j t) : w.Spans t := by
  have hlow := w.offset_mono (Nat.zero_le j)
  have hhigh : w.offset (j + 1) ≤ w.offset w.values.length := w.offset_mono hj
  have hzero : w.offset 0 = 0 := by simp [offset]
  obtain ⟨hfirst, hlast⟩ := h
  exact ⟨by omega, by omega⟩

/-- The slot that a bucket goes to, which may be one behind the last slot. -/
def place? (w : RainWindow α) (t : Instant) : Option ℕ :=
  if t < w.start ∨ w.slot t < 0 then none else some (w.slot t).toNat

/-- A bucket goes to the slot that covers its start. -/
theorem place?_eq_some (hw : w.interval ≠ 0) (hs : w.start.isLeap = false)
    (ht : t.isLeap = false) (j : ℕ) : w.place? t = some j ↔ w.Covers j t := by
  have hpos : (0 : ℤ) < w.interval.toNat := by
    have : w.interval.toNat ≠ 0 := fun h => hw (UInt32.toNat_inj.1 h)
    omega
  have hwidth : (0 : ℤ) < w.interval.toNat * 1000000000 := by positivity
  have hlt := Instant.lt_iff_total ht hs
  rw [place?, Covers, offset, offset]
  rcases lt_or_ge t.total w.start.total with hbefore | hafter
  · have hnonneg : (0 : ℤ) ≤ j * (w.interval.toNat * 1000000000) := by positivity
    rw [if_pos (.inl (hlt.2 hbefore))]
    exact iff_of_false (fun h => by cases h) fun h => by omega
  have hd : 0 ≤ t.total - w.start.total := by omega
  have hslot : w.slot t = (t.total - w.start.total) / (w.interval.toNat * 1000000000) := by
    rw [slot, Instant.since_eq_total ht hs, Int.tdiv_eq_ediv_of_nonneg hd,
      Int.tdiv_eq_ediv_of_nonneg (Int.ediv_nonneg hd (by norm_num)),
      Int.ediv_ediv_of_nonneg (by norm_num), mul_comm (1000000000 : ℤ)]
  have hnonneg := Int.ediv_nonneg hd hwidth.le
  have hquot : (t.total - w.start.total) / (w.interval.toNat * 1000000000) = j ↔
      (j : ℤ) * (w.interval.toNat * 1000000000) ≤ t.total - w.start.total ∧
        t.total - w.start.total < (j + 1) * (w.interval.toNat * 1000000000) := by
    rw [le_antisymm_iff, ← Int.lt_add_one_iff, Int.ediv_lt_iff_lt_mul hwidth,
      Int.le_ediv_iff_mul_le hwidth, and_comm]
  have hwithin : ¬(t < w.start ∨ w.slot t < 0) := by
    rw [hlt, hslot]
    omega
  rw [if_neg hwithin, hslot, Option.some_inj, Nat.cast_succ]
  constructor
  · intro h
    have := hquot.1 (by omega)
    omega
  · intro h
    have := hquot.2 (by omega)
    omega

end

/-! ## What a slot gets -/

section

variable {α : Type} {w w' : RainWindow α} {mode : MergeMode}

theorem ext_slots (hstart : w.start = w'.start) (hinterval : w.interval = w'.interval)
    (hslots : ∀ j : ℕ, w.values[j]? = w'.values[j]?) : w = w' := by
  have hvalues : w.values = w'.values := List.ext_getElem? hslots
  cases w
  cases w'
  cases hstart
  cases hinterval
  cases hvalues
  rfl

variable [Quantity α]

theorem mergeBucket_frame (mode : MergeMode) (w : RainWindow α) (bucket : Instant × α) :
    (w.mergeBucket mode bucket).start = w.start ∧
      (w.mergeBucket mode bucket).interval = w.interval ∧
        (w.mergeBucket mode bucket).values.length = w.values.length := by
  unfold mergeBucket
  dsimp only
  split_ifs
  · exact ⟨rfl, rfl, rfl⟩
  · exact ⟨rfl, rfl, List.length_modify _ _ _⟩

theorem foldl_mergeBucket_frame (mode : MergeMode) (w : RainWindow α)
    (buckets : List (Instant × α)) :
    (buckets.foldl (mergeBucket mode) w).start = w.start ∧
      (buckets.foldl (mergeBucket mode) w).interval = w.interval ∧
        (buckets.foldl (mergeBucket mode) w).values.length = w.values.length := by
  induction buckets generalizing w with
  | nil => exact ⟨rfl, rfl, rfl⟩
  | cons b buckets ih =>
    obtain ⟨hstart, hinterval, hlength⟩ := mergeBucket_frame mode w b
    obtain ⟨hstart', hinterval', hlength'⟩ := ih (w.mergeBucket mode b)
    exact ⟨hstart'.trans hstart, hinterval'.trans hinterval, hlength'.trans hlength⟩

theorem merge_frame (mode : MergeMode) (w : RainWindow α) (buckets : Buckets α) :
    (w.merge mode buckets).start = w.start ∧ (w.merge mode buckets).interval = w.interval ∧
      (w.merge mode buckets).values.length = w.values.length := by
  rw [merge]
  split_ifs
  · exact ⟨rfl, rfl, rfl⟩
  · exact foldl_mergeBucket_frame mode w buckets.entries

/-- Two reports are merged in bucket by bucket, the first report first. -/
theorem merge_merge (mode : MergeMode) (w : RainWindow α) (b b' : Buckets α) :
    (w.merge mode b).merge mode b' =
      if w.interval = 0 then w else (b.entries ++ b'.entries).foldl (mergeBucket mode) w := by
  obtain ⟨-, hinterval, -⟩ := merge_frame mode w b
  rw [merge, hinterval, merge]
  split_ifs
  · rfl
  · rw [List.foldl_append]

/-- The rain of a bucket joins that of the slot it goes to. -/
theorem getElem?_mergeBucket_place (mode : MergeMode) (w : RainWindow α) (b : Instant × α) (j : ℕ) :
    (w.mergeBucket mode b).values[j]? = (w.values[j]?).map fun v =>
      if w.place? b.1 = some j then mode.join v b.2 else v := by
  by_cases hout : b.1 < w.start ∨ w.slot b.1 < 0
  · simp [mergeBucket, place?, hout]
  by_cases hj : (w.slot b.1).toNat = j
  · simp [mergeBucket, place?, hout, hj]
  · simp [mergeBucket, place?, hout, hj]

theorem place?_mergeBucket (mode : MergeMode) (w : RainWindow α) (b : Instant × α) (t : Instant) :
    (w.mergeBucket mode b).place? t = w.place? t := by
  obtain ⟨hstart, hinterval, -⟩ := mergeBucket_frame mode w b
  unfold place? slot
  rw [hstart, hinterval]

/-- A slot joins the rain of the buckets that go to it, in their order. -/
theorem getElem?_foldl_place (mode : MergeMode) (w : RainWindow α) (buckets : List (Instant × α))
    (j : ℕ) : (buckets.foldl (mergeBucket mode) w).values[j]? = (w.values[j]?).map fun v =>
      (buckets.filter fun b => w.place? b.1 = some j).foldl (fun v b => mode.join v b.2) v := by
  induction buckets generalizing w with
  | nil => simp
  | cons b buckets ih =>
    rw [List.foldl_cons, ih, getElem?_mergeBucket_place, Option.map_map]
    refine congrArg (Option.map · w.values[j]?) (funext fun v => ?_)
    simp only [Function.comp_apply, place?_mergeBucket, List.filter_cons, decide_eq_true_eq]
    split_ifs <;> rfl

/-- Buckets that give every slot the same make the same window. -/
theorem foldl_mergeBucket_ext {l k : List (Instant × α)}
    (h : ∀ j v, (l.filter fun b => w.place? b.1 = some j).foldl (fun v b => mode.join v b.2) v =
      (k.filter fun b => w.place? b.1 = some j).foldl (fun v b => mode.join v b.2) v) :
    l.foldl (mergeBucket mode) w = k.foldl (mergeBucket mode) w := by
  obtain ⟨hstart, hinterval, -⟩ := foldl_mergeBucket_frame mode w l
  obtain ⟨hstart', hinterval', -⟩ := foldl_mergeBucket_frame mode w k
  refine ext_slots (hstart.trans hstart'.symm) (hinterval.trans hinterval'.symm) fun j => ?_
  rw [getElem?_foldl_place, getElem?_foldl_place]
  exact congrArg (Option.map · w.values[j]?) (funext (h j))

/-- A slot joins the rain of the buckets whose starts it covers, in the order of time. -/
theorem getElem?_merge_covers (hw : w.interval ≠ 0) (hs : w.start.isLeap = false)
    {buckets : Buckets α} (hb : ∀ t ∈ buckets.keys, t.isLeap = false) (j : ℕ) :
    (w.merge mode buckets).values[j]? = (w.values[j]?).map fun v =>
      (buckets.entries.filter fun b => w.Covers j b.1).foldl (fun v b => mode.join v b.2) v := by
  have hcovers : (buckets.entries.filter fun b => w.place? b.1 = some j) =
      buckets.entries.filter fun b => w.Covers j b.1 := by
    refine List.filter_congr fun b hmem => decide_eq_decide.2 ?_
    exact place?_eq_some hw hs (hb b.1 (List.mem_map_of_mem hmem)) j
  rw [merge, if_neg hw, getElem?_foldl_place, hcovers]

/-- Only the buckets that start within the window have an effect. -/
theorem merge_of_spans (hw : w.interval ≠ 0) (hs : w.start.isLeap = false)
    {buckets others : Buckets α} (hb : ∀ t ∈ buckets.keys, t.isLeap = false)
    (ho : ∀ t ∈ others.keys, t.isLeap = false)
    (hsame : ∀ t, w.Spans t → others.find? t = buckets.find? t) :
    w.merge mode others = w.merge mode buckets := by
  obtain ⟨hstart, hinterval, -⟩ := merge_frame mode w buckets
  obtain ⟨hstart', hinterval', -⟩ := merge_frame mode w others
  refine ext_slots (hstart'.trans hstart.symm) (hinterval'.trans hinterval.symm) fun j => ?_
  rw [getElem?_merge_covers hw hs ho, getElem?_merge_covers hw hs hb]
  rcases lt_or_ge j w.values.length with hj | hj
  · have hfilter : (others.entries.filter fun b => w.Covers j b.1) =
        buckets.entries.filter fun b => w.Covers j b.1 :=
      Entries.filter_eq_of_find? (p := fun t => decide (w.Covers j t)) others.sorted buckets.sorted
        fun t ht => hsame t ((of_decide_eq_true ht : w.Covers j t).spans hj)
    rw [hfilter]
  · rw [List.getElem?_eq_none hj]
    rfl

end

end RainWindow

end WeatherStation
