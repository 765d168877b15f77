import WeatherStation.Document.Tally
import WeatherStation.Proofs.Except

/-!
# Tallies that are made

A tally is made of a value, of parts or of a document, and changed by adding values and by closing
it. None of these gives an active tally without values, so every tally that was made has a summary.

Results:
* `Tally.Proper`: an active tally has values, and the extremes are in order.
* `Tally.ofDocument_ok`, `Tally.proper_of_decode?`: what documents of tallies hold.
* `Tally.Built`, `Tally.Built.exists_summary`: tallies that are made have a summary.
-/

namespace WeatherStation

variable {α : Type}

namespace Tally

/-- If the tally is active, it has values. -/
def Counted : Tally α → Prop
  | .active _ count _ _ => count ≠ 0
  | .closed _ => True

variable [Quantity α]

/-- The tally has values if it is active, and its least value does not lie above the greatest. -/
structure Proper (t : Tally α) : Prop where
  counted : t.Counted
  ranged : Quantity.below t.max t.min = false

theorem checkRange_eq_ok {min max : α} :
    checkRange min max = .ok () ↔ Quantity.below max min = false := by
  rw [checkRange]
  split_ifs with h
  · simp [h]
  · simp [h]

theorem ofParts?_eq_ok {sum : α} {count : UInt64} {min max : α} {t : Tally α} :
    ofParts? sum count min max = .ok t ↔ t = .active sum count min max ∧ t.Proper := by
  constructor
  · intro h
    rw [ofParts?] at h
    split_ifs at h with hcount
    · cases h
    · obtain ⟨_, hrange, h⟩ := bind_eq_ok.1 h
      cases h
      exact ⟨rfl, hcount, checkRange_eq_ok.1 hrange⟩
  · rintro ⟨rfl, hcount, hrange⟩
    have hrange : checkRange min max = .ok () := checkRange_eq_ok.2 hrange
    rw [ofParts?, if_neg hcount]
    show (checkRange min max >>= fun _ => pure (active sum count min max)) = _
    rw [hrange]
    rfl

theorem ofSummary?_eq_ok {s : Summary α} {t : Tally α} :
    ofSummary? s = .ok t ↔ t = .closed s ∧ t.Proper := by
  constructor
  · intro h
    obtain ⟨_, hrange, h⟩ := bind_eq_ok.1 h
    cases h
    exact ⟨rfl, trivial, checkRange_eq_ok.1 hrange⟩
  · rintro ⟨rfl, -, hrange⟩
    have hrange : checkRange s.min s.max = .ok () := checkRange_eq_ok.2 hrange
    rw [ofSummary?, hrange]
    rfl

/-- A document has either the sum and the count of a tally or its average. -/
theorem ofDocument_ok {sum : Option α} {count : Option UInt64} {min max : α} {avg : Option α}
    {t : Tally α} (h : ofDocument sum count min max avg = .ok t) :
    t.Proper ∧ ((∃ s n, sum = some s ∧ count = some n ∧ t = .active s n min max) ∨
      ∃ a, avg = some a ∧ t = .closed ⟨min, max, a⟩) := by
  rw [ofDocument.eq_def] at h
  split at h
  · next s n =>
    obtain ⟨ht, hproper⟩ := ofParts?_eq_ok.1 h
    exact ⟨hproper, .inl ⟨s, n, rfl, rfl, ht⟩⟩
  · next a =>
    obtain ⟨ht, hproper⟩ := ofSummary?_eq_ok.1 h
    exact ⟨hproper, .inr ⟨a, rfl, ht⟩⟩
  · cases h
  · cases h

/-- The parts of a tally that a document holds. -/
theorem decode?_eq_some {doc : Json α} {t : Tally α} (h : decode? doc = some t) :
    ∃ f₁ f₂ f₃ f₄ f₅ sum count min max avg,
      Document.Record.read? fields doc = some [f₁, f₂, f₃, f₄, f₅] ∧
      Document.optional Document.decodeReal? f₁ = some sum ∧
      Document.optional Document.decodeUInt64? f₂ = some count ∧
      Document.required Document.decodeReal? f₃ = some min ∧
      Document.required Document.decodeReal? f₄ = some max ∧
      Document.optional Document.decodeReal? f₅ = some avg ∧
      ofDocument sum count min max avg = .ok t := by
  rw [decode?] at h
  obtain ⟨fs, hfs, h⟩ := Option.bind_eq_some_iff.1 h
  split at h
  · next f₁ f₂ f₃ f₄ f₅ =>
    obtain ⟨sum, hsum, h⟩ := Option.bind_eq_some_iff.1 h
    obtain ⟨count, hcount, h⟩ := Option.bind_eq_some_iff.1 h
    obtain ⟨min, hmin, h⟩ := Option.bind_eq_some_iff.1 h
    obtain ⟨max, hmax, h⟩ := Option.bind_eq_some_iff.1 h
    obtain ⟨avg, havg, h⟩ := Option.bind_eq_some_iff.1 h
    exact ⟨f₁, f₂, f₃, f₄, f₅, sum, count, min, max, avg, hfs, hsum, hcount, hmin, hmax, havg,
      toOption_eq_some.1 h⟩
  · cases h

/-- The tallies of documents are proper. -/
theorem proper_of_decode? {doc : Json α} {t : Tally α} (h : decode? doc = some t) : t.Proper := by
  obtain ⟨_, _, _, _, _, _, _, _, _, _, -, -, -, -, -, -, ht⟩ := decode?_eq_some h
  exact (ofDocument_ok ht).1

/-! ## Tallies that are made -/

/-- The tallies that are made of values, parts and documents, also after values were added to them
    and after they were closed. -/
inductive Built : Tally α → Prop
  | single (x : α) : Built (.single x)
  | ofParts {sum : α} {count : UInt64} {min max : α} {t : Tally α}
      (h : ofParts? sum count min max = .ok t) : Built t
  | ofSummary {s : Summary α} {t : Tally α} (h : ofSummary? s = .ok t) : Built t
  | decoded {doc : Json α} {t : Tally α} (h : decode? doc = some t) : Built t
  | add {t t' : Tally α} {x : α} (ht : Built t) (h : t.add x = .ok t') : Built t'
  | close {t t' : Tally α} (ht : Built t) (h : t.close = .ok t') : Built t'

theorem counted_add {t t' : Tally α} {x : α} (h : t.add x = .ok t') : t'.Counted := by
  cases t with
  | closed s => cases h
  | active sum count min max =>
    rw [add] at h
    split_ifs at h with hroom
    cases h
    intro hzero
    have hcount : (count + 1).toNat = count.toNat + 1 := by
      rw [UInt64.toNat_add, UInt64.toNat_one, Nat.mod_eq_of_lt hroom]
    rw [hzero] at hcount
    cases hcount

theorem Built.counted {t : Tally α} (h : t.Built) : t.Counted := by
  cases h with
  | single x => exact fun hzero => by cases hzero
  | ofParts h => exact (ofParts?_eq_ok.1 h).2.counted
  | ofSummary h => exact (ofSummary?_eq_ok.1 h).2.counted
  | decoded h => exact (proper_of_decode? h).counted
  | add _ h => exact counted_add h
  | @close before _ _ h =>
    cases before with
    | closed s => cases h
    | active sum count min max =>
      obtain ⟨s, -, rfl⟩ := map_eq_ok h
      trivial

/-- A tally that was made has a summary. -/
theorem Built.exists_summary {t : Tally α} (h : t.Built) : ∃ s, t.summary = .ok s := by
  cases t with
  | closed s => exact ⟨_, rfl⟩
  | active sum count min max =>
    have hcount : count ≠ 0 := h.counted
    refine ⟨⟨min, max, sum / Quantity.ofNat count.toNat⟩, ?_⟩
    rw [summary, average, if_neg hcount]
    rfl

end Tally

end WeatherStation
