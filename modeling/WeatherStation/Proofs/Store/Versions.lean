import WeatherStation.Proofs.Traffic.History

/-!
# Versions

A store takes calls that write: any views, whatever versions these carry, under any conditions. The
ledger of the calls and of their answers decides what the store holds, and which call it takes next.

Results:
* `Ledger.ofCalls`: the ledger of a new store after some calls.
* `Ledger.Kept.call`: what one call keeps; `Ledger.kept_ofCalls`: what holds after all of them.
* `Ledger.ofCallsWord_eq`: with a counter of 64 bits the calls come to the same.
* `Ledger.conditional_writes`: which calls are taken, which versions they get, and what is stored.
-/

namespace WeatherStation

variable {α : Type}

/-- A call that writes. -/
structure WriteCall (α : Type) where
  view : View α
  condition : WriteCondition
  deriving DecidableEq

namespace Store

/-- The answer to a call, and the store after it. The clock is not asked. -/
def answer (s : Store α) (c : WriteCall α) : Except StoreError Version × Store α :=
  s.reply (.error .calendar) (.write c.view c.condition)

theorem answer_of_allows {s : Store α} {c : WriteCall α}
    (h : s.allows c.view.key c.condition = true) :
    s.answer c = (.ok s.freshVersion, s.put c.view) := by
  simp [answer, reply, write, h]

theorem answer_of_not_allows {s : Store α} {c : WriteCall α}
    (h : s.allows c.view.key c.condition = false) :
    s.answer c = (.error (.conflict c.view.key), s) := by
  simp [answer, reply, write, h]

theorem isOk_answer (s : Store α) (c : WriteCall α) :
    (s.answer c).1.isOk = s.allows c.view.key c.condition := by
  cases h : s.allows c.view.key c.condition with
  | true => rw [answer_of_allows h]; rfl
  | false => rw [answer_of_not_allows h]; rfl

/-- The store with a counter of 64 bits, which wraps around. -/
def wrap (s : Store α) : Store α := { s with nextVersion := s.nextVersion % 2 ^ 64 }

theorem wrap_eq {s : Store α} (h : s.nextVersion < 2 ^ 64) : s.wrap = s := by
  rw [wrap, Nat.mod_eq_of_lt h]

end Store

/-- The calls that a store took, each with its answer, and the store after them. -/
structure Ledger (α : Type) where
  entries : List (WriteCall α × Except StoreError Version)
  store : Store α

namespace Ledger

/-- A new store. -/
def empty : Ledger α := ⟨[], Store.empty⟩

/-- One call more. -/
def call (l : Ledger α) (c : WriteCall α) : Ledger α :=
  ⟨l.entries ++ [(c, (l.store.answer c).1)], (l.store.answer c).2⟩

/-- A new store after some calls. -/
def ofCalls (calls : List (WriteCall α)) : Ledger α := calls.foldl call empty

/-- The same with a counter of 64 bits. -/
def ofCallsWord (calls : List (WriteCall α)) : Ledger α :=
  calls.foldl (fun l c => { l.call c with store := (l.call c).store.wrap }) empty

/-- The views that were written, in order, each with the version that its call got. -/
def written (l : Ledger α) : List (Version × View α) :=
  l.entries.filterMap fun e => e.2.toOption.map fun t => (t, e.1.view)

/-- The versions that were given out, in order. -/
def versions (l : Ledger α) : List Version := l.written.map Prod.fst

/-- The last write under a key. -/
def last? (l : Ledger α) (key : String) : Option (Version × View α) :=
  (l.written.filter fun e => e.2.key = key).getLast?

theorem ofCalls_concat (calls : List (WriteCall α)) (c : WriteCall α) :
    ofCalls (calls ++ [c]) = (ofCalls calls).call c := by
  simp [ofCalls]

theorem written_call_of_allows {l : Ledger α} {c : WriteCall α}
    (h : l.store.allows c.view.key c.condition = true) :
    (l.call c).written = l.written ++ [(l.store.freshVersion, c.view)] := by
  simp [written, call, Store.answer_of_allows h, Except.toOption]

theorem written_call_of_not_allows {l : Ledger α} {c : WriteCall α}
    (h : l.store.allows c.view.key c.condition = false) : (l.call c).written = l.written := by
  simp [written, call, Store.answer_of_not_allows h, Except.toOption]

theorem last?_eq_none_iff {l : Ledger α} {key : String} :
    l.last? key = none ↔ ∀ e ∈ l.written, e.2.key ≠ key := by
  simp [last?]

/-- The last write of a longer list of writes. -/
theorem last?_of_written {l l' : Ledger α} {e : Version × View α}
    (h : l'.written = l.written ++ [e]) (key : String) :
    l'.last? key = if e.2.key = key then some e else l.last? key := by
  rw [last?, h, List.filter_append, List.filter_singleton]
  split_ifs with hk <;> simp [last?, hk]

/-! ## What calls keep -/

/-- The store is what the ledger says. -/
structure Kept (l : Ledger α) : Prop where
  next : l.store.nextVersion = l.written.length + 1
  versions : l.versions = (List.range l.written.length).map History.versionOf
  get? : ∀ key, l.store.get? key = (l.last? key).map fun e => e.2.withVersion (some e.1)

theorem kept_empty : (empty : Ledger α).Kept where
  next := rfl
  versions := rfl
  get? _ := rfl

namespace Kept

variable {l : Ledger α}

theorem freshVersion (hl : l.Kept) :
    l.store.freshVersion = History.versionOf l.written.length := by
  rw [Store.freshVersion, hl.next, History.versionOf]

/-- One call keeps what the ledger says, whether it is taken or refused. -/
theorem call (hl : l.Kept) (c : WriteCall α) : (l.call c).Kept := by
  cases h : l.store.allows c.view.key c.condition with
  | true =>
    have hwritten := written_call_of_allows h
    have hstore : (l.call c).store = l.store.put c.view := by
      rw [Ledger.call, Store.answer_of_allows h]
    constructor
    · rw [hstore, hwritten, Store.put, hl.next, List.length_append, List.length_singleton]
    · rw [Ledger.versions, hwritten, List.map_append, ← Ledger.versions, hl.versions,
        List.length_append, List.length_singleton, List.range_succ, List.map_append]
      simp [hl.freshVersion]
    · intro key
      rw [hstore, last?_of_written hwritten]
      split_ifs with hk
      · simp only at hk
        rw [← hk, Store.get?_put_self, Option.map_some]
      · rw [Store.get?_put_ne _ _ (Ne.symm hk), hl.get?]
  | false =>
    have hwritten := written_call_of_not_allows h
    have hstore : (l.call c).store = l.store := by
      rw [Ledger.call, Store.answer_of_not_allows h]
    constructor
    · rw [hstore, hwritten, hl.next]
    · rw [Ledger.versions, hwritten, ← Ledger.versions, hl.versions]
    · intro key
      rw [hstore, hl.get?, last?, last?, hwritten]

/-- No version is given out twice. -/
theorem nodup_versions (hl : l.Kept) : l.versions.Nodup := by
  rw [hl.versions]
  refine List.nodup_range.map fun n m h => ?_
  exact Nat.succ_inj.1 (Text.natText_inj h)

/-- The next version was not given out before. -/
theorem freshVersion_notMem (hl : l.Kept) : l.store.freshVersion ∉ l.versions := by
  rw [hl.freshVersion, hl.versions]
  intro h
  obtain ⟨n, hn, heq⟩ := List.mem_map.1 h
  have hlen : n = l.written.length := Nat.succ_inj.1 (Text.natText_inj heq)
  have hlt := List.mem_range.1 hn
  omega

/-- Which calls are allowed, by the last write under their key. -/
theorem allows_iff (hl : l.Kept) (key : String) (condition : WriteCondition) :
    l.store.allows key condition = true ↔
      match condition with
      | .always => True
      | .absent => l.last? key = none
      | .current t => ∃ v, l.last? key = some (t, v) := by
  cases condition with
  | always => simp [Store.allows]
  | absent => simp [Store.allows, hl.get?]
  | current t =>
    rw [Store.allows, hl.get?, beq_iff_eq]
    cases hlast : l.last? key with
    | none => simp
    | some e => simp [Prod.ext_iff, eq_comm]

/-- Every view is stored under its own key. -/
theorem key_eq (hl : l.Kept) {key : String} {v : View α} (hv : (key, v) ∈ l.store.views.entries) :
    v.key = key := by
  have hget : l.store.get? key = some v := l.store.views.mem_entries_iff.1 hv
  rw [hl.get?] at hget
  obtain ⟨e, he, rfl⟩ := Option.map_eq_some_iff.1 hget
  rw [View.key_withVersion]
  simpa using List.of_mem_filter (List.mem_of_getLast? he)

end Kept

theorem kept_ofCalls (calls : List (WriteCall α)) : (ofCalls calls).Kept := by
  induction calls using List.reverseRecOn with
  | nil => exact kept_empty
  | append_singleton calls c ih => rw [ofCalls_concat]; exact ih.call c

theorem length_entries_ofCalls (calls : List (WriteCall α)) :
    (ofCalls calls).entries.length = calls.length := by
  induction calls using List.reverseRecOn with
  | nil => rfl
  | append_singleton calls c ih => rw [ofCalls_concat, call]; simp [ih]

/-- There are not more versions than calls. -/
theorem nextVersion_ofCalls_le (calls : List (WriteCall α)) :
    (ofCalls calls).store.nextVersion ≤ calls.length + 1 := by
  have hlen : (ofCalls calls).written.length ≤ (ofCalls calls).entries.length :=
    List.length_filterMap_le _ _
  rw [length_entries_ofCalls] at hlen
  rw [(kept_ofCalls calls).next]
  omega

/-- The counter of 64 bits does not come to its end in fewer than `2 ^ 64 - 1` calls. -/
theorem ofCallsWord_eq {calls : List (WriteCall α)} (h : calls.length < 2 ^ 64 - 1) :
    ofCallsWord calls = ofCalls calls := by
  induction calls using List.reverseRecOn with
  | nil => rfl
  | append_singleton calls c ih =>
    have hbound := nextVersion_ofCalls_le (calls ++ [c])
    rw [List.length_append, List.length_singleton] at h hbound
    have hih : ofCallsWord calls = ofCalls calls := ih (by omega)
    have hcall : ofCallsWord (calls ++ [c]) = { (ofCallsWord calls).call c with
        store := ((ofCallsWord calls).call c).store.wrap } := by
      simp [ofCallsWord]
    rw [ofCalls_concat] at hbound ⊢
    rw [hcall, hih, Store.wrap_eq (by omega)]

/-! ## Conditional writes -/

/-- How the next call comes out. -/
structure Decides (l : Ledger α) (c : WriteCall α) : Prop where
  /-- A call without a condition is taken. -/
  always : c.condition = .always → (l.store.answer c).1.isOk = true
  /-- A call that wants no view under its key is taken if none was ever written there. -/
  absent : c.condition = .absent →
    ((l.store.answer c).1.isOk = true ↔ ∀ e ∈ l.written, e.2.key ≠ c.view.key)
  /-- A call that wants a version is taken if the last write under its key got this version. -/
  current : ∀ t, c.condition = .current t →
    ((l.store.answer c).1.isOk = true ↔ ∃ v, l.last? c.view.key = some (t, v))
  /-- A call that is taken gets a version that no other call got. -/
  fresh : ∀ t, (l.store.answer c).1 = .ok t → t ∉ l.versions
  /-- A call that is refused changes neither a view nor the next version. -/
  refused : ∀ e, (l.store.answer c).1 = .error e →
    e = .conflict c.view.key ∧ (l.store.answer c).2 = l.store

/-- What is stored. -/
structure Holds (l : Ledger α) : Prop where
  /-- Every view is stored under its own key. -/
  keyed : ∀ key v, (key, v) ∈ l.store.views.entries → v.key = key
  /-- Under a key stands the last view that was written there, with the version of this write. -/
  last : ∀ key, l.store.get? key = (l.last? key).map fun e => e.2.withVersion (some e.1)

theorem Kept.decides {l : Ledger α} (hl : l.Kept) (c : WriteCall α) : l.Decides c where
  always hc := by rw [Store.isOk_answer, hl.allows_iff, hc]; trivial
  absent hc := by rw [Store.isOk_answer, hl.allows_iff, hc, ← last?_eq_none_iff]
  current t hc := by rw [Store.isOk_answer, hl.allows_iff, hc]
  fresh t ht := by
    cases h : l.store.allows c.view.key c.condition with
    | true =>
      rw [Store.answer_of_allows h, Except.ok.injEq] at ht
      rw [← ht]
      exact hl.freshVersion_notMem
    | false =>
      rw [Store.answer_of_not_allows h] at ht
      cases ht
  refused e he := by
    cases h : l.store.allows c.view.key c.condition with
    | true =>
      rw [Store.answer_of_allows h] at he
      cases he
    | false =>
      rw [Store.answer_of_not_allows h, Except.error.injEq] at he
      rw [Store.answer_of_not_allows h]
      exact ⟨he.symm, rfl⟩

/-- Whatever calls a new store takes, as long as they are fewer than a counter of 64 bits can count:
    no version is given out twice, each call is decided by the writes before it, and at every moment
    each key holds what was written there last. -/
theorem conditional_writes (calls : List (WriteCall α)) (hfew : calls.length < 2 ^ 64 - 1) :
    ofCallsWord calls = ofCalls calls ∧
      (ofCallsWord calls).versions.Nodup ∧
      (∀ before c after, calls = before ++ c :: after → (ofCallsWord before).Decides c) ∧
      ∀ before after, calls = before ++ after → (ofCallsWord before).Holds := by
  refine ⟨ofCallsWord_eq hfew, ?_, ?_, ?_⟩
  · rw [ofCallsWord_eq hfew]
    exact (kept_ofCalls calls).nodup_versions
  · rintro before c after rfl
    rw [List.length_append] at hfew
    rw [ofCallsWord_eq (by omega)]
    exact (kept_ofCalls before).decides c
  · rintro before after rfl
    rw [List.length_append] at hfew
    rw [ofCallsWord_eq (by omega)]
    exact ⟨fun _ _ => (kept_ofCalls before).key_eq, (kept_ofCalls before).get?⟩

/-- Two writers that both know of no view, and both go on from the version that the first one got;
    the views carry versions of their own. -/
def twoWriters : List (WriteCall ℚ) :=
  let view (writer : String) : View ℚ := .latest {
    id := ViewId.latest "dev", device := "dev", time := (Instant.ofSeconds? 0).get (by decide)
    sourceId := writer, values := .const none, rain := none, version := some "7" }
  [⟨view "a", .absent⟩, ⟨view "b", .absent⟩, ⟨view "b", .current "1"⟩, ⟨view "a", .current "1"⟩]

theorem conditional_writes_twoWriters :
    twoWriters.length < 2 ^ 64 - 1 ∧ (ofCallsWord twoWriters).versions = ["1", "2"] ∧
      (ofCallsWord twoWriters).versions.Nodup ∧ (ofCallsWord twoWriters).Holds := by
  have h := conditional_writes twoWriters (by decide)
  refine ⟨by decide, ?_, h.2.1, h.2.2.2 twoWriters [] (by simp)⟩
  rw [h.1]
  decide +kernel

end Ledger

end WeatherStation
