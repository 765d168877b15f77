/-!
# Sorted maps

A finite map kept as the list of its entries in strictly ascending key order, so that two maps
with the same look-ups are equal.

* `find?_insert`: what a look-up answers after an insertion.
* `ext_find?`: maps are determined by their look-ups.
* `SortedSet`: the sets, as maps to `Unit`.
-/

namespace WeatherStation

/-- A key type with a strict total order. -/
class Key (κ : Type) where
  /-- `before a b`: the key `a` comes before `b`. -/
  before : κ → κ → Bool
  irrefl (a : κ) : before a a = false
  trans {a b c : κ} : before a b = true → before b c = true → before a c = true
  connected {a b : κ} : before a b = false → before b a = false → a = b

instance : Key Nat where
  before a b := a < b
  irrefl a := by simp
  trans h₁ h₂ := by simp only [decide_eq_true_eq] at *; omega
  connected h₁ h₂ := by simp only [decide_eq_false_iff_not] at *; omega

instance : Key Int where
  before a b := a < b
  irrefl a := by simp
  trans h₁ h₂ := by simp only [decide_eq_true_eq] at *; omega
  connected h₁ h₂ := by simp only [decide_eq_false_iff_not] at *; omega

/-- Texts come in the order of their characters, which is also the order of their bytes. -/
instance : Key String where
  before a b := a < b
  irrefl a := by simp
  trans h₁ h₂ := by
    simp only [decide_eq_true_eq] at *
    exact String.lt_trans h₁ h₂
  connected h₁ h₂ := by
    simp only [decide_eq_false_iff_not] at *
    exact String.le_antisymm (String.not_lt.1 h₂) (String.not_lt.1 h₁)

namespace Key

variable {κ μ : Type}

theorem asymm [Key κ] {a b : κ} (h : before a b = true) : before b a = false := by
  cases hb : before b a with
  | false => rfl
  | true => exact absurd (trans h hb) (by simp [irrefl])

theorem ne_of_before [Key κ] {a b : κ} (h : before a b = true) : a ≠ b := by
  rintro rfl
  simp [irrefl] at h

theorem before_of_not_before [Key κ] {a b c : κ} (h₁ : before a b = false)
    (h₂ : before a c = true) : before b c = true := by
  cases hb : before b a with
  | true => exact trans hb h₂
  | false => exact connected hb h₁ ▸ h₂

/-- The order that an injective function into an ordered type induces. -/
abbrev pullback [Key μ] (f : κ → μ) (inj : ∀ {a b}, f a = f b → a = b) : Key κ where
  before a b := before (f a) (f b)
  irrefl a := irrefl (f a)
  trans h₁ h₂ := trans h₁ h₂
  connected h₁ h₂ := inj (connected h₁ h₂)

end Key

instance : Key UInt32 := Key.pullback UInt32.toNat UInt32.toNat_inj.1

/-- Pairs come in the order of their first, then of their second component. -/
instance {κ μ : Type} [Key κ] [Key μ] : Key (κ × μ) where
  before a b := Key.before a.1 b.1 || (!Key.before b.1 a.1 && Key.before a.2 b.2)
  irrefl a := by simp [Key.irrefl]
  trans {a b c} h₁ h₂ := by
    simp only [Bool.or_eq_true, Bool.and_eq_true, Bool.not_eq_true'] at *
    rcases h₁ with h₁ | ⟨h₁, k₁⟩ <;> rcases h₂ with h₂ | ⟨h₂, k₂⟩
    · exact .inl (Key.trans h₁ h₂)
    · cases h : Key.before b.1 c.1 with
      | true => exact .inl (Key.trans h₁ h)
      | false => exact .inl (Key.connected h h₂ ▸ h₁)
    · cases h : Key.before a.1 b.1 with
      | true => exact .inl (Key.trans h h₂)
      | false => exact .inl (Key.connected h h₁ ▸ h₂)
    · cases hab : Key.before a.1 b.1 with
      | true =>
        cases hbc : Key.before b.1 c.1 with
        | true => exact .inl (Key.trans hab hbc)
        | false => exact .inl (Key.connected hbc h₂ ▸ hab)
      | false =>
        have e : a.1 = b.1 := Key.connected hab h₁
        exact .inr ⟨e ▸ h₂, Key.trans k₁ k₂⟩
  connected {a b} h₁ h₂ := by
    simp only [Bool.or_eq_false_iff, Bool.and_eq_false_iff, Bool.not_eq_false'] at *
    obtain ⟨h₁, k₁⟩ := h₁
    obtain ⟨h₂, k₂⟩ := h₂
    have e : a.1 = b.1 := Key.connected h₁ h₂
    refine Prod.ext e (Key.connected ?_ ?_)
    · exact k₁.resolve_left (by simp [h₂])
    · exact k₂.resolve_left (by simp [h₁])

/-! ## Entry lists -/

namespace Entries

variable {κ ν : Type} [Key κ]

/-- Inserts an entry at its place, replacing the entry of an equal key. -/
def insert (k : κ) (v : ν) : List (κ × ν) → List (κ × ν)
  | [] => [(k, v)]
  | e :: rest =>
    if Key.before k e.1 then (k, v) :: e :: rest
    else if Key.before e.1 k then e :: insert k v rest
    else (k, v) :: rest

/-- The value of a key; the search stops at the first key that comes after it. -/
def find? (k : κ) : List (κ × ν) → Option ν
  | [] => none
  | e :: rest =>
    if Key.before k e.1 then none
    else if Key.before e.1 k then find? k rest
    else some e.2

/-- Keys in strictly ascending order. -/
def Sorted (l : List (κ × ν)) : Prop := l.Pairwise fun a b => Key.before a.1 b.1 = true

theorem mem_insert {k : κ} {v : ν} {e : κ × ν} {l : List (κ × ν)} (h : e ∈ insert k v l) :
    e = (k, v) ∨ e ∈ l := by
  induction l with
  | nil => simpa [insert] using h
  | cons hd tl ih =>
    rw [insert] at h
    split at h
    · simpa using h
    · split at h
      · rcases List.mem_cons.1 h with h | h
        · exact .inr (by simp [h])
        · exact (ih h).imp_right (by simp_all)
      · rcases List.mem_cons.1 h with h | h
        · exact .inl h
        · exact .inr (by simp [h])

theorem Sorted.insert {l : List (κ × ν)} (h : Sorted l) (k : κ) (v : ν) :
    Sorted (Entries.insert k v l) := by
  induction l with
  | nil => simp [Entries.insert, Sorted]
  | cons hd tl ih =>
    obtain ⟨hlt, htl⟩ := List.pairwise_cons.1 h
    rw [Entries.insert]
    split
    · next hk =>
      refine List.Pairwise.cons (fun e he => ?_) h
      rcases List.mem_cons.1 he with rfl | he
      · exact hk
      · exact Key.trans hk (hlt e he)
    · split
      · next hk =>
        refine List.Pairwise.cons (fun e he => ?_) (ih htl)
        rcases mem_insert he with rfl | he
        · exact hk
        · exact hlt e he
      · next h₁ h₂ =>
        have e : k = hd.1 := Key.connected (by simpa using h₁) (by simpa using h₂)
        exact List.Pairwise.cons (fun a ha => by simpa [e] using hlt a ha) htl

theorem find?_eq_none_of_before {l : List (κ × ν)} {k : κ}
    (h : ∀ e ∈ l, Key.before k e.1 = true) : find? k l = none := by
  cases l with
  | nil => rfl
  | cons hd tl => rw [find?, if_pos (h hd (by simp))]

theorem find?_insert_self (k : κ) (v : ν) (l : List (κ × ν)) :
    find? k (insert k v l) = some v := by
  induction l with
  | nil => simp [insert, find?, Key.irrefl]
  | cons hd tl ih =>
    rw [insert]
    split
    · simp [find?, Key.irrefl]
    · next h₁ =>
      split
      · next h₂ => rw [find?, if_neg h₁, if_pos h₂, ih]
      · simp [find?, Key.irrefl]

theorem find?_insert_ne {k j : κ} (hne : j ≠ k) (v : ν) {l : List (κ × ν)} (h : Sorted l) :
    find? j (insert k v l) = find? j l := by
  have split_ne : Key.before j k = true ∨ Key.before k j = true := by
    cases h₁ : Key.before j k with
    | true => exact .inl rfl
    | false =>
      cases h₂ : Key.before k j with
      | true => exact .inr rfl
      | false => exact absurd (Key.connected h₁ h₂) hne
  induction l with
  | nil => rcases split_ne with h₁ | h₁ <;> simp [insert, find?, h₁, Key.asymm h₁]
  | cons hd tl ih =>
    obtain ⟨hlt, htl⟩ := List.pairwise_cons.1 h
    rw [insert]
    split
    · next hk =>
      rcases split_ne with h₁ | h₁
      · simp [find?, h₁, Key.trans h₁ hk]
      · rw [find?, if_neg (by simp [Key.asymm h₁]), if_pos h₁]
    · split
      · rw [find?, find?, ih htl]
      · next h₁ h₂ =>
        have e : k = hd.1 := Key.connected (by simpa using h₁) (by simpa using h₂)
        subst e
        rcases split_ne with h₃ | h₃
        · simp [find?, h₃]
        · simp [find?, h₃, Key.asymm h₃]

theorem find?_isSome_of_mem {e : κ × ν} {l : List (κ × ν)} (h : Sorted l) (he : e ∈ l) :
    find? e.1 l = some e.2 := by
  induction l with
  | nil => simp at he
  | cons hd tl ih =>
    obtain ⟨hlt, htl⟩ := List.pairwise_cons.1 h
    rcases List.mem_cons.1 he with rfl | he
    · simp [find?, Key.irrefl]
    · rw [find?, if_neg (by simp [Key.asymm (hlt e he)]), if_pos (hlt e he), ih htl he]

theorem mem_of_find?_eq_some {k : κ} {v : ν} {l : List (κ × ν)} (h : find? k l = some v) :
    (k, v) ∈ l := by
  induction l with
  | nil => simp [find?] at h
  | cons hd tl ih =>
    rw [find?] at h
    split at h
    · simp at h
    · split at h
      · exact List.mem_cons_of_mem _ (ih h)
      · next h₁ h₂ =>
        have e : k = hd.1 := Key.connected (by simpa using h₁) (by simpa using h₂)
        have : hd.2 = v := by simpa using h
        subst this
        simp [e]

theorem eq_of_find?_eq {l₁ l₂ : List (κ × ν)} (h₁ : Sorted l₁) (h₂ : Sorted l₂)
    (h : ∀ k, find? k l₁ = find? k l₂) : l₁ = l₂ := by
  induction l₁ generalizing l₂ with
  | nil =>
    cases l₂ with
    | nil => rfl
    | cons e tl => simpa [find?, Key.irrefl] using h e.1
  | cons a t₁ ih =>
    cases l₂ with
    | nil => simpa [find?, Key.irrefl] using h a.1
    | cons b t₂ =>
      obtain ⟨lt₁, s₁⟩ := List.pairwise_cons.1 h₁
      obtain ⟨lt₂, s₂⟩ := List.pairwise_cons.1 h₂
      have hab : a.1 = b.1 := by
        refine Key.connected ?_ ?_
        · cases hk : Key.before a.1 b.1 with
          | false => rfl
          | true => simpa [find?, Key.irrefl, hk] using h a.1
        · cases hk : Key.before b.1 a.1 with
          | false => rfl
          | true => simpa [find?, Key.irrefl, hk] using h b.1
      have hv : a.2 = b.2 := by simpa [find?, Key.irrefl, hab] using h a.1
      have e : a = b := Prod.ext hab hv
      subst e
      congr 1
      refine ih s₁ s₂ fun k => ?_
      have hk := h k
      rw [find?, find?] at hk
      by_cases h₃ : Key.before a.1 k = true
      · simpa [h₃, Key.asymm h₃] using hk
      · rw [find?_eq_none_of_before, find?_eq_none_of_before]
        · exact fun e he => Key.before_of_not_before (by simpa using h₃) (lt₂ e he)
        · exact fun e he => Key.before_of_not_before (by simpa using h₃) (lt₁ e he)

end Entries

/-! ## Maps -/

/-- A finite map, as the list of its entries in ascending key order. -/
structure SortedMap (κ ν : Type) [Key κ] where
  entries : List (κ × ν)
  sorted : Entries.Sorted entries

namespace SortedMap

variable {κ ν : Type} [Key κ]

/-- The map without entries. -/
def empty : SortedMap κ ν := ⟨[], List.Pairwise.nil⟩

instance : EmptyCollection (SortedMap κ ν) := ⟨empty⟩
instance : Inhabited (SortedMap κ ν) := ⟨empty⟩

instance [DecidableEq κ] [DecidableEq ν] : DecidableEq (SortedMap κ ν) := fun a b =>
  decidable_of_iff (a.entries = b.entries)
    ⟨fun h => by cases a; cases b; cases h; rfl, fun h => h ▸ rfl⟩

/-- The value stored under a key. -/
def find? (m : SortedMap κ ν) (k : κ) : Option ν := Entries.find? k m.entries

/-- Whether a key has a value. -/
def contains (m : SortedMap κ ν) (k : κ) : Bool := (m.find? k).isSome

/-- Stores a value under a key, replacing the one it had. -/
def insert (m : SortedMap κ ν) (k : κ) (v : ν) : SortedMap κ ν :=
  ⟨Entries.insert k v m.entries, m.sorted.insert k v⟩

/-- The keys in ascending order. -/
def keys (m : SortedMap κ ν) : List κ := m.entries.map Prod.fst

/-- The values in the order of their keys. -/
def values (m : SortedMap κ ν) : List ν := m.entries.map Prod.snd

/-- The number of entries. -/
def size (m : SortedMap κ ν) : Nat := m.entries.length

/-- The map of a list of entries, of which the last wins for a repeated key. -/
def ofList (l : List (κ × ν)) : SortedMap κ ν := l.foldl (fun m e => m.insert e.1 e.2) empty

@[simp] theorem find?_empty (k : κ) : (empty : SortedMap κ ν).find? k = none := rfl

@[simp] theorem find?_insert_self (m : SortedMap κ ν) (k : κ) (v : ν) :
    (m.insert k v).find? k = some v := Entries.find?_insert_self k v m.entries

theorem find?_insert_ne (m : SortedMap κ ν) {j k : κ} (h : j ≠ k) (v : ν) :
    (m.insert k v).find? j = m.find? j := Entries.find?_insert_ne h v m.sorted

theorem find?_insert [DecidableEq κ] (m : SortedMap κ ν) (j k : κ) (v : ν) :
    (m.insert k v).find? j = if j = k then some v else m.find? j := by
  split
  · next h => rw [h, find?_insert_self]
  · next h => exact m.find?_insert_ne h v

theorem mem_entries_iff (m : SortedMap κ ν) {k : κ} {v : ν} :
    (k, v) ∈ m.entries ↔ m.find? k = some v :=
  ⟨fun h => Entries.find?_isSome_of_mem m.sorted h, Entries.mem_of_find?_eq_some⟩

/-- Maps are determined by their look-ups. -/
theorem ext_find? {m₁ m₂ : SortedMap κ ν} (h : ∀ k, m₁.find? k = m₂.find? k) : m₁ = m₂ := by
  obtain ⟨l₁, s₁⟩ := m₁
  obtain ⟨l₂, s₂⟩ := m₂
  have : l₁ = l₂ := Entries.eq_of_find?_eq s₁ s₂ h
  subst this
  rfl

end SortedMap

/-! ## Sets -/

/-- A finite set, as its members in ascending order. -/
abbrev SortedSet (κ : Type) [Key κ] := SortedMap κ Unit

namespace SortedSet

variable {κ : Type} [Key κ]

/-- Adds a member. -/
def add (s : SortedSet κ) (k : κ) : SortedSet κ := s.insert k ()

/-- The set of a list's members. -/
def ofList (l : List κ) : SortedSet κ := l.foldl add SortedMap.empty

@[simp] theorem contains_add_self (s : SortedSet κ) (k : κ) : (s.add k).contains k = true := by
  simp [add, SortedMap.contains]

theorem contains_add_ne (s : SortedSet κ) {j k : κ} (h : j ≠ k) :
    (s.add k).contains j = s.contains j := by
  simp only [SortedMap.contains, add, SortedMap.find?_insert_ne s h]

end SortedSet

end WeatherStation
