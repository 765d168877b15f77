import WeatherStation.Proofs.Exact
import WeatherStation.Proofs.Ingest.Folded
import WeatherStation.Proofs.Time.Truncation

/-!
# Tallies of exact values

Over the rationals the tally of a metric in a window is a function of the bag of values that were
folded in: their number, their sum and their extremes.

Results:
* `Tally.Of`: a tally is that of some values.
* `Tally.Of.addValue`, `Tally.Of.perm`: one more value; the order does not matter.
* `WindowView.foldlM_take_tally`: the tally of a metric after some readings were folded in.
-/

namespace WeatherStation

/-- A tally is that of some values: there is none without values, and otherwise it holds their
    number, their sum, the least and the greatest of them. -/
def Tally.Of (values : List ℚ) : Option (Tally ℚ) → Prop
  | none => values = []
  | some (.active sum count min max) =>
    values ≠ [] ∧ count.toNat = values.length ∧ sum = values.sum ∧
      (min ∈ values ∧ ∀ x ∈ values, min ≤ x) ∧ (max ∈ values ∧ ∀ x ∈ values, x ≤ max)
  | some (.closed _) => False

namespace Tally

variable {values : List ℚ} {t : Option (Tally ℚ)}

theorem Of.perm {values' : List ℚ} (hp : values.Perm values') (h : Of values t) : Of values' t := by
  match t with
  | none =>
    subst h
    exact hp.nil_eq.symm
  | some (.active sum count min max) =>
    obtain ⟨hne, hcount, hsum, ⟨hmin, hle⟩, hmax, hge⟩ := h
    refine ⟨fun he => hne (by rw [he] at hp; exact hp.eq_nil), by rw [hcount, hp.length_eq],
      by rw [hsum, hp.sum_eq], ⟨hp.mem_iff.1 hmin, fun x hx => hle x (hp.mem_iff.2 hx)⟩,
      hp.mem_iff.1 hmax, fun x hx => hge x (hp.mem_iff.2 hx)⟩
  | some (.closed _) => exact h

theorem of_single (x : ℚ) : Of [x] (some (.single x)) := by
  simp [Of, single]

/-- One more value. -/
theorem Of.addValue {x : ℚ} {t' : Tally ℚ} (h : Of values t)
    (ht : WindowView.addValue x t = .ok t') : Of (values ++ [x]) (some t') := by
  match t with
  | none =>
    subst h
    cases ht
    exact of_single x
  | some (.closed _) => exact h.elim
  | some (.active sum count min max) =>
    obtain ⟨hne, hcount, hsum, ⟨hmin, hle⟩, hmax, hge⟩ := h
    simp only [WindowView.addValue, add] at ht
    split at ht
    · next hroom =>
      cases ht
      refine ⟨by simp, ?_, by simp [hsum], ?_, ?_⟩
      · rw [UInt64.toNat_add, UInt64.toNat_one, Nat.mod_eq_of_lt hroom, hcount]
        simp
      · rw [Quantity.lesser_rat]
        constructor
        · rcases min_choice min x with h | h <;> simp [h, hmin]
        · intro y hy
          rcases List.mem_append.1 hy with hy | hy
          · exact (min_le_left _ _).trans (hle y hy)
          · exact (min_le_right _ _).trans (List.mem_singleton.1 hy).ge
      · rw [Quantity.greater_rat]
        constructor
        · rcases max_choice max x with h | h <;> simp [h, hmax]
        · intro y hy
          rcases List.mem_append.1 hy with hy | hy
          · exact (hge y hy).trans (le_max_left _ _)
          · exact (List.mem_singleton.1 hy).le.trans (le_max_right _ _)
    · cases ht

end Tally

/-- The value of a metric in a reading is carried once. -/
theorem Reading.filter_carried {α : Type} (r : Reading α) (m : Metric) :
    (r.carried.filter fun v => v.1 = m).map Prod.snd = (r.values.get m).toList := by
  obtain ⟨device, source, time, ⟨a, b, c⟩, rain⟩ := r
  cases m <;> cases a <;> cases b <;> cases c <;> rfl

namespace WindowView

variable {g : Granularity}

theorem addMetric_tally {hour : UInt32} {w w' : WindowView g ℚ} {v : Metric × ℚ} (m : Metric)
    {values : List ℚ} (hw : Tally.Of values (w.tallies.get m))
    (h : w.addMetric hour v = .ok w') :
    Tally.Of (values ++ if v.1 = m then [v.2] else []) (w'.tallies.get m) := by
  obtain ⟨t, ht, h⟩ := bind_eq_ok.1 h
  obtain ⟨detail, -, h⟩ := bind_eq_ok.1 h
  cases h
  split_ifs with hm
  · subst hm
    rw [PerMetric.get_set_self]
    exact hw.addValue ht
  · rw [PerMetric.get_set_ne _ (Ne.symm hm), List.append_nil]
    exact hw

theorem foldlM_addMetric_tally {hour : UInt32} {vs : List (Metric × ℚ)} {w w' : WindowView g ℚ}
    (m : Metric) {values : List ℚ} (hw : Tally.Of values (w.tallies.get m))
    (h : vs.foldlM (addMetric hour) w = .ok w') :
    Tally.Of (values ++ (vs.filter fun v => v.1 = m).map Prod.snd) (w'.tallies.get m) := by
  induction vs generalizing w values with
  | nil =>
    cases h
    simpa using hw
  | cons v vs ih =>
    rw [List.foldlM_cons] at h
    cases hv : w.addMetric hour v with
    | error e =>
      rw [hv] at h
      cases h
    | ok w₁ =>
      rw [hv] at h
      have := ih (addMetric_tally m hw hv) h
      rw [List.append_assoc] at this
      convert this using 2
      split_ifs with hm <;> simp [hm]

theorem rained_tallies (settings : IngestSettings) (buckets : Option (Buckets ℚ))
    (w : WindowView g ℚ) : (w.rained settings buckets).tallies = w.tallies := by
  cases buckets <;> rfl

/-- One reading adds its value where the window contains it, and nothing elsewhere. -/
theorem fold_tally {settings : IngestSettings} {r : Reading ℚ} {buckets : Option (Buckets ℚ)}
    {w w' : WindowView g ℚ} (m : Metric) {values : List ℚ} (hn : w.start.nanos = 0)
    (hs : w.start.seconds = w.start.seconds / g.seconds * g.seconds)
    (hw : Tally.Of values (w.tallies.get m)) (h : w.fold settings r buckets = .ok w') :
    Tally.Of (values ++ if r.time.seconds / g.seconds = w.start.seconds / g.seconds then
      (r.values.get m).toList else []) (w'.tallies.get m) := by
  rw [fold_eq] at h
  split at h
  · cases h
  · next inside hinside =>
    have hiff := contains_spec hn hs hinside
    cases hm : (w.rained settings buckets).metered r inside with
    | error e =>
      rw [hm] at h
      cases h
    | ok folded =>
      rw [hm] at h
      cases h
      change Tally.Of _ (folded.tallies.get m)
      rw [metered] at hm
      rw [← rained_tallies settings buckets w] at hw
      split_ifs at hm with hin
      · rw [if_pos (hiff.1 hin), ← r.filter_carried m]
        exact foldlM_addMetric_tally m hw hm
      · cases hm
        rw [if_neg (fun heq => hin (hiff.2 heq)), List.append_nil]
        exact hw

/-- The tally of a metric after some readings were folded in. -/
theorem foldlM_take_tally {settings : IngestSettings} {rs : List (Reading ℚ)}
    {w w' : WindowView g ℚ} (m : Metric) {values : List ℚ} (hn : w.start.nanos = 0)
    (hs : w.start.seconds = w.start.seconds / g.seconds * g.seconds)
    (hw : Tally.Of values (w.tallies.get m)) (h : rs.foldlM (take settings) w = .ok w') :
    Tally.Of (values ++ (rs.filter fun r =>
      r.time.seconds / g.seconds = w.start.seconds / g.seconds).filterMap fun r => r.values.get m)
        (w'.tallies.get m) := by
  induction rs generalizing w values with
  | nil =>
    cases h
    simpa using hw
  | cons r rs ih =>
    rw [List.foldlM_cons] at h
    obtain ⟨w₁, hr, h⟩ := bind_eq_ok.1 h
    have hframe : w₁.start = w.start := (take_frame hr).start
    obtain ⟨buckets, hfold⟩ := fold_of_take hr
    have hrest := ih (by rw [hframe, hn]) (by rw [hframe, ← hs]) (fold_tally m hn hs hw hfold) h
    rw [hframe, List.append_assoc] at hrest
    convert hrest using 2
    by_cases hin : r.time.seconds / g.seconds = w.start.seconds / g.seconds
    · cases hv : r.values.get m <;> simp [hin, hv]
    · simp [hin]

end WindowView

end WeatherStation
