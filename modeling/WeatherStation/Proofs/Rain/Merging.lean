import Mathlib.Data.List.Fold
import WeatherStation.Proofs.SortedMap
import WeatherStation.Proofs.View.Commuting

/-!
# Merging rain

Each slot of a row joins the rain of the buckets that start within it, in the order of time. Over
the rationals the order does not matter. Amounts that add up can be added to each other before they
are merged in, and greatest amounts can be merged in again.

Results:
* `Buckets.plus`, `RainWindow.merge_plus`: two reports as one, if amounts add up.
* `RainWindow.merge_max_self`: a report that comes twice, if the greatest amount stays.
* `RainWindow.merge_by_slots`: all of it.
-/

namespace WeatherStation

theorem MergeMode.join_max_self (v x : ℚ) : max.join (max.join v x) x = max.join v x := by
  simp only [join, Quantity.greater_rat, max_assoc, max_self]

/-- Two reports as one: the amounts of equal buckets are added up. -/
def Buckets.plus (b b' : Buckets ℚ) : Buckets ℚ :=
  b'.entries.foldl (fun b e => b.insert e.1 ((b.find? e.1).getD 0 + e.2)) b

/-- What a bucket holds in two reports as one. -/
theorem Buckets.find?_plus (b b' : Buckets ℚ) (t : Instant) :
    (b.plus b').find? t = (b.find? t).merge (· + ·) (b'.find? t) := by
  have hrest (l : List (Instant × ℚ)) (hl : Entries.Sorted l) (b : Buckets ℚ) :
      (l.foldl (fun b e => b.insert e.1 ((b.find? e.1).getD 0 + e.2)) b).find? t =
        (b.find? t).merge (· + ·) (Entries.find? t l) := by
    induction l generalizing b with
    | nil => cases h : b.find? t <;> simp [Entries.find?, h]
    | cons e l ih =>
      obtain ⟨hfirst, hl⟩ := List.pairwise_cons.1 hl
      rw [List.foldl_cons, ih hl, Entries.find?]
      by_cases ht : t = e.1
      · rw [ht, SortedMap.find?_insert_self, Entries.find?_eq_none_of_before hfirst, Key.irrefl,
          if_neg Bool.false_ne_true, if_neg Bool.false_ne_true]
        cases b.find? e.1 <;> simp
      rw [SortedMap.find?_insert_ne _ ht]
      split_ifs with hbefore hafter
      · rw [Entries.find?_eq_none_of_before fun e' he' => Key.trans hbefore (hfirst e' he')]
      · rfl
      · exact absurd (Key.connected (by simpa using hbefore) (by simpa using hafter)) ht
  exact hrest b'.entries b'.sorted b

namespace RainWindow

/-- The first bucket may come last. -/
theorem foldl_mergeBucket_cons (mode : MergeMode) (w : RainWindow ℚ) (b : Instant × ℚ)
    (l : List (Instant × ℚ)) :
    (b :: l).foldl (mergeBucket mode) w = (l.foldl (mergeBucket mode) w).mergeBucket mode b :=
  have : RightCommutative (mergeBucket mode : RainWindow ℚ → _ → _) := ⟨mergeBucket_comm mode⟩
  List.foldl_cons_eq_apply_foldl

/-- Two amounts of one bucket may be added up before. -/
theorem mergeBucket_sum_self (w : RainWindow ℚ) (t : Instant) (x y : ℚ) :
    (w.mergeBucket .sum (t, x)).mergeBucket .sum (t, y) = w.mergeBucket .sum (t, x + y) := by
  refine foldl_mergeBucket_ext (l := [(t, x), (t, y)]) (k := [(t, x + y)]) fun j v => ?_
  simp only [List.filter_cons, List.filter_nil, decide_eq_true_eq]
  split_ifs
  · exact add_assoc v x y
  · rfl

/-- A greatest amount may come twice. -/
theorem mergeBucket_max_self (w : RainWindow ℚ) (b : Instant × ℚ) :
    (w.mergeBucket .max b).mergeBucket .max b = w.mergeBucket .max b := by
  refine foldl_mergeBucket_ext (l := [b, b]) (k := [b]) fun j v => ?_
  simp only [List.filter_cons, List.filter_nil, decide_eq_true_eq]
  split_ifs
  · exact MergeMode.join_max_self v b.2
  · rfl

/-- A bucket that is merged in behind others may be added to them before. -/
theorem foldl_mergeBucket_insert (w : RainWindow ℚ) (t : Instant) (x : ℚ)
    (l : List (Instant × ℚ)) :
    (Entries.insert t ((Entries.find? t l).getD 0 + x) l).foldl (mergeBucket .sum) w =
      (l.foldl (mergeBucket .sum) w).mergeBucket .sum (t, x) := by
  induction l generalizing w with
  | nil => simp [Entries.insert, Entries.find?]
  | cons e l ih =>
    rw [Entries.insert, Entries.find?]
    split_ifs with hbefore hafter
    · rw [Option.getD_none, zero_add, foldl_mergeBucket_cons]
    · exact ih (w.mergeBucket .sum e)
    · have ht : t = e.1 := Key.connected (by simpa using hbefore) (by simpa using hafter)
      rw [Option.getD_some, List.foldl_cons, ← mergeBucket_sum_self, ht, List.foldl_cons,
        ← foldl_mergeBucket_cons, List.foldl_cons]

/-- Two reports may be added up before. -/
theorem merge_plus (w : RainWindow ℚ) (b b' : Buckets ℚ) :
    (w.merge .sum b).merge .sum b' = w.merge .sum (b.plus b') := by
  have hrest (l : List (Instant × ℚ)) (b : Buckets ℚ) :
      (l.foldl (fun b e => b.insert e.1 ((b.find? e.1).getD 0 + e.2)) b).entries.foldl
        (mergeBucket .sum) w = (b.entries ++ l).foldl (mergeBucket .sum) w := by
    induction l generalizing b with
    | nil => rw [List.foldl_nil, List.append_nil]
    | cons e l ih =>
      rw [List.foldl_cons, ih, List.foldl_append, List.foldl_append, List.foldl_cons]
      exact congrArg (l.foldl (mergeBucket .sum)) (foldl_mergeBucket_insert w e.1 e.2 b.entries)
  rw [merge_merge, merge, Buckets.plus, hrest]

/-- A report may come twice, if the greatest amounts stay. -/
theorem merge_max_self (w : RainWindow ℚ) (b : Buckets ℚ) :
    (w.merge .max b).merge .max b = w.merge .max b := by
  have htwice (l : List (Instant × ℚ)) (w : RainWindow ℚ) :
      l.foldl (mergeBucket .max) (l.foldl (mergeBucket .max) w) = l.foldl (mergeBucket .max) w := by
    induction l generalizing w with
    | nil => rfl
    | cons e l ih =>
      -- the second `e` goes next to the first
      rw [List.foldl_cons, List.foldl_cons, ← foldl_mergeBucket_cons, List.foldl_cons,
        mergeBucket_max_self, ih]
  rw [merge_merge, merge]
  split_ifs
  · rfl
  · rw [List.foldl_append, htwice]

/-- What merging does to each slot of a window, and which reports come to the same over the
    rationals. -/
theorem merge_by_slots :
    (∀ {α : Type} [Quantity α] (mode : MergeMode) (w : RainWindow α) (buckets : Buckets α),
      w.interval ≠ 0 → w.start.isLeap = false → (∀ t ∈ buckets.keys, t.isLeap = false) →
      ((w.merge mode buckets).start = w.start ∧
        (w.merge mode buckets).interval = w.interval ∧
        (w.merge mode buckets).values.length = w.values.length) ∧
      (∀ j v, w.values[j]? = some v → (w.merge mode buckets).values[j]? =
        some ((buckets.entries.filter fun b => w.Covers j b.1).foldl
          (fun v b => mode.join v b.2) v)) ∧
      ∀ others : Buckets α, (∀ t ∈ others.keys, t.isLeap = false) →
        (∀ t, w.Spans t → others.find? t = buckets.find? t) →
        w.merge mode others = w.merge mode buckets) ∧
    ∀ (w : RainWindow ℚ) (b b' : Buckets ℚ),
      ((∀ t, (b.plus b').find? t = (b.find? t).merge (· + ·) (b'.find? t)) ∧
        (w.merge .sum b).merge .sum b' = w.merge .sum (b.plus b') ∧
        (w.merge .sum b').merge .sum b = w.merge .sum (b.plus b')) ∧
      (w.merge .max b).merge .max b' = (w.merge .max b').merge .max b ∧
      (w.merge .max b).merge .max b = w.merge .max b := by
  constructor
  · intro α _ mode w buckets hw hs hb
    refine ⟨merge_frame mode w buckets, fun j v hv => ?_, fun others ho hsame => ?_⟩
    · rw [getElem?_merge_covers hw hs hb, hv, Option.map_some]
    · exact merge_of_spans hw hs hb ho hsame
  · intro w b b'
    refine ⟨⟨b.find?_plus b', w.merge_plus b b', ?_⟩, w.merge_comm .max b b', w.merge_max_self b⟩
    rw [w.merge_comm, w.merge_plus]

/-- The middle of a second. -/
def midSecond (s : ℤ) (h : firstSecond ≤ s ∧ s ≤ lastSecond) : Instant :=
  ⟨s, 500000000, h.1, h.2, by decide, fun h => absurd h (by decide)⟩

/-- Two quarters of an hour from the middle of the first second of 1970 on. -/
def twoQuarters : RainWindow ℚ := ⟨[1, 2], 900, midSecond 0 (by decide)⟩

/-- Rain before the first quarter, at its start and close to its end, at the start of the second
    one, and at its end. -/
def fiveBuckets : Buckets ℚ :=
  .ofList [(midSecond (-1) (by decide), 5), (midSecond 0 (by decide), 3),
    (midSecond 899 (by decide), 4), (midSecond 900 (by decide), 7),
    (midSecond 1800 (by decide), 9)]

/-- The second slot starts with its first nanosecond, and what falls outside is dropped. -/
theorem merge_by_slots_twoQuarters :
    (twoQuarters.merge .sum fiveBuckets).values = [8, 9] ∧
      ∀ others : Buckets ℚ, (∀ t ∈ others.keys, t.isLeap = false) →
        (∀ t, twoQuarters.Spans t → others.find? t = fiveBuckets.find? t) →
        (twoQuarters.merge .sum others).values = [8, 9] := by
  obtain ⟨⟨-, -, hlength⟩, hslots, hothers⟩ := merge_by_slots.1 .sum twoQuarters fiveBuckets
    (by decide) (by decide) (by decide +kernel)
  have hvalues : (twoQuarters.merge .sum fiveBuckets).values = [8, 9] := by
    refine List.ext_getElem? fun j => ?_
    match j with
    | 0 => exact (hslots 0 1 rfl).trans (by decide +kernel)
    | 1 => exact (hslots 1 2 rfl).trans (by decide +kernel)
    | j + 2 => exact List.getElem?_eq_none (hlength.le.trans (Nat.le_add_left 2 j))
  exact ⟨hvalues, fun others ho hsame => (hothers others ho hsame).symm ▸ hvalues⟩

end RainWindow

end WeatherStation
