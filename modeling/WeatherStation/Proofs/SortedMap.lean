import Mathlib.Tactic
import WeatherStation.SortedMap

/-!
# Members of sorted maps

Results:
* `SortedMap.nodup_keys`: no key occurs twice.
* `SortedMap.mem_keys_insert`, `SortedMap.mem_values_insert`: what an insertion adds.
* `SortedSet.mem_keys_ofList`: the set of a list's members.
* `SortedMap.mem_of_find?_ofList`, `SortedMap.find?_ofList`: the map of a list holds only what the
  list holds, and all of it if no key has two values there.
* `SortedMap.ofList_entries`, `SortedSet.ofList_keys`: maps and sets from their own entries.
* `SortedMap.pairwise_values`: values that know their keys come in the order of these.
* `Entries.filter_eq_of_find?`: entries are determined by their look-ups, also in a part of the keys.
-/

namespace WeatherStation

variable {κ ν : Type} [Key κ]

namespace Entries

theorem find?_filter {l : List (κ × ν)} (hl : Sorted l) (p : κ → Bool) (k : κ) :
    find? k (l.filter fun e => p e.1) = if p k then find? k l else none := by
  have hfilter : Sorted (l.filter fun e => p e.1) := hl.sublist List.filter_sublist
  refine Option.ext fun v => ?_
  constructor
  · intro h
    obtain ⟨hmem, hp⟩ := List.mem_filter.1 (mem_of_find?_eq_some h)
    rw [if_pos hp]
    exact find?_isSome_of_mem hl hmem
  · intro h
    split_ifs at h with hp
    exact find?_isSome_of_mem hfilter (List.mem_filter.2 ⟨mem_of_find?_eq_some h, hp⟩)

/-- Entries whose look-ups agree on some keys have the same entries with these keys. -/
theorem filter_eq_of_find? {l l' : List (κ × ν)} (hl : Sorted l) (hl' : Sorted l') {p : κ → Bool}
    (h : ∀ k, p k = true → find? k l = find? k l') :
    (l.filter fun e => p e.1) = l'.filter fun e => p e.1 := by
  refine eq_of_find?_eq (hl.sublist List.filter_sublist) (hl'.sublist List.filter_sublist)
    fun k => ?_
  rw [find?_filter hl, find?_filter hl']
  split_ifs with hp
  · exact h k hp
  · rfl

end Entries

namespace SortedMap

theorem nodup_keys (m : SortedMap κ ν) : m.keys.Nodup :=
  List.pairwise_map.2 (m.sorted.imp Key.ne_of_before)

theorem mem_keys_iff {m : SortedMap κ ν} {k : κ} : k ∈ m.keys ↔ ∃ v, m.find? k = some v := by
  simp [keys, ← mem_entries_iff]

theorem mem_values_iff {m : SortedMap κ ν} {v : ν} : v ∈ m.values ↔ ∃ k, m.find? k = some v := by
  simp [values, ← mem_entries_iff]

theorem mem_keys_insert {m : SortedMap κ ν} {j k : κ} {v : ν} :
    j ∈ (m.insert k v).keys ↔ j = k ∨ j ∈ m.keys := by
  rw [mem_keys_iff, mem_keys_iff]
  by_cases h : j = k
  · simp [h]
  · rw [find?_insert_ne m h]
    simp [h]

theorem mem_values_insert {m : SortedMap κ ν} {k : κ} {v u : ν} (h : u ∈ (m.insert k v).values) :
    u = v ∨ u ∈ m.values := by
  rw [mem_values_iff] at h ⊢
  obtain ⟨j, hj⟩ := h
  by_cases hjk : j = k
  · rw [hjk, find?_insert_self, Option.some_inj] at hj
    exact .inl hj.symm
  · rw [find?_insert_ne m hjk] at hj
    exact .inr ⟨j, hj⟩

theorem mem_of_find?_ofList {l : List (κ × ν)} {k : κ} {v : ν} (h : (ofList l).find? k = some v) :
    (k, v) ∈ l := by
  induction l using List.reverseRecOn with
  | nil => cases h
  | append_singleton l e ih =>
    rw [ofList, List.foldl_append] at h
    change ((ofList l).insert e.1 e.2).find? k = some v at h
    by_cases hk : k = e.1
    · rw [hk, find?_insert_self, Option.some_inj] at h
      simp [hk, ← h]
    · rw [find?_insert_ne _ hk] at h
      exact List.mem_append_left _ (ih h)

theorem find?_ofList {l : List (κ × ν)} {k : κ} {v : ν} (h : (k, v) ∈ l)
    (huniq : ∀ v', (k, v') ∈ l → v' = v) : (ofList l).find? k = some v := by
  induction l using List.reverseRecOn with
  | nil => cases h
  | append_singleton l e ih =>
    rw [ofList, List.foldl_append]
    change ((ofList l).insert e.1 e.2).find? k = some v
    by_cases hk : k = e.1
    · rw [hk, find?_insert_self, huniq e.2 (by simp [hk])]
    · rw [find?_insert_ne _ hk]
      have hne : (k, v) ≠ e := fun he => hk (congrArg Prod.fst he)
      exact ih (by simpa [hne] using h) fun v' hv' => huniq v' (List.mem_append_left _ hv')

/-- The map of the entries of a map. -/
theorem ofList_entries (m : SortedMap κ ν) : ofList m.entries = m := by
  refine ext_find? fun k => Option.ext fun v => ⟨fun h => ?_, fun h => ?_⟩
  · exact m.mem_entries_iff.1 (mem_of_find?_ofList h)
  · refine find?_ofList (m.mem_entries_iff.2 h) fun v' hv' => ?_
    rw [m.mem_entries_iff.1 hv', Option.some_inj] at h
    exact h

theorem insert_insert_self (m : SortedMap κ ν) (k : κ) (v v' : ν) :
    (m.insert k v).insert k v' = m.insert k v' := by
  refine ext_find? fun j => ?_
  by_cases hj : j = k
  · rw [hj, find?_insert_self, find?_insert_self]
  · rw [find?_insert_ne _ hj, find?_insert_ne _ hj, find?_insert_ne _ hj]

theorem insert_comm (m : SortedMap κ ν) {j k : κ} (h : j ≠ k) (u v : ν) :
    (m.insert j u).insert k v = (m.insert k v).insert j u := by
  refine ext_find? fun i => ?_
  by_cases hj : i = j
  · rw [hj, find?_insert_self, find?_insert_ne _ h, find?_insert_self]
  by_cases hk : i = k
  · rw [hk, find?_insert_self, find?_insert_ne _ h.symm, find?_insert_self]
  · rw [find?_insert_ne _ hk, find?_insert_ne _ hj, find?_insert_ne _ hj, find?_insert_ne _ hk]

/-- Values that know their keys come in the order of these. -/
theorem pairwise_values {m : SortedMap κ ν} {f : ν → κ} (hf : ∀ k v, m.find? k = some v → f v = k) :
    m.values.Pairwise fun a b => Key.before (f a) (f b) = true := by
  refine List.pairwise_map.2 (m.sorted.imp_of_mem fun {a b} ha hb hab => ?_)
  rw [hf a.1 a.2 (m.mem_entries_iff.1 ha), hf b.1 b.2 (m.mem_entries_iff.1 hb)]
  exact hab

end SortedMap

namespace SortedSet

theorem mem_keys_ofList {l : List κ} {k : κ} : k ∈ (ofList l).keys ↔ k ∈ l := by
  induction l using List.reverseRecOn with
  | nil => simp [ofList, SortedMap.keys, SortedMap.empty]
  | append_singleton l j ih =>
    rw [ofList, List.foldl_append]
    change k ∈ (SortedMap.insert (ofList l) j ()).keys ↔ _
    rw [SortedMap.mem_keys_insert, ih, List.mem_append, List.mem_singleton, or_comm]

/-- The set of the members of a set. -/
theorem ofList_keys (s : SortedSet κ) : ofList s.keys = s := by
  rw [ofList, SortedMap.keys, List.foldl_map]
  exact s.ofList_entries

theorem add_comm (s : SortedSet κ) (j k : κ) : (s.add j).add k = (s.add k).add j := by
  by_cases h : j = k
  · rw [h]
  · exact s.insert_comm h () ()

end SortedSet

end WeatherStation
