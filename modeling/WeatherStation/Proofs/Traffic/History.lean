import WeatherStation.Proofs.Time.Stamps
import WeatherStation.Store.Program

/-!
# Recorded writes

A store that keeps a record of its writes, each with the name of its writer. The record decides what
the store holds, and since versions count up over all writes, a version names one entry of it.

Results:
* `History.serve`: answers a request; a call that is refused has no effect.
* `History.Sound`: the store is what the recorded writes have made of it.
* `History.Sound.get?_recorded`: what is stored was written, under its own key.
* `History.writers`: those who wrote under a key.
* `History.Sound.get?_of_allows`: a write that expects what was read succeeds only if the key still
  holds it.
-/

namespace WeatherStation

/-- A store and the writes that made it, with the names of the writers. -/
structure History (ι α : Type) where
  store : Store α
  log : List (ι × View α)

namespace History

variable {ι α : Type}

/-- No writes. -/
def empty : History ι α := ⟨Store.empty, []⟩

/-- A view is written. -/
def put (h : History ι α) (i : ι) (v : View α) : History ι α := ⟨h.store.put v, h.log ++ [(i, v)]⟩

theorem grows_refl (h : History ι α) : h.log <+: h.log := List.prefix_refl _

theorem grows_trans {h h' h'' : History ι α} (h₁ : h.log <+: h'.log) (h₂ : h'.log <+: h''.log) :
    h.log <+: h''.log := h₁.trans h₂

theorem get?_put (h : History ι α) (i : ι) (v : View α) (key : String) :
    (h.put i v).store.get? key =
      if key = v.key then some (v.withVersion (some h.store.freshVersion))
      else h.store.get? key := by
  split_ifs with hk
  · rw [hk, put, Store.get?_put_self]
  · rw [put, Store.get?_put_ne _ _ hk]

theorem get?_put_self (h : History ι α) (i : ι) (v : View α) :
    (h.put i v).store.get? v.key = some (v.withVersion (some h.store.freshVersion)) := by
  rw [get?_put, if_pos rfl]

theorem get?_put_ne (h : History ι α) (i : ι) {v : View α} {key : String} (hk : key ≠ v.key) :
    (h.put i v).store.get? key = h.store.get? key := by
  rw [get?_put, if_neg hk]

/-- A reply, if the store answers. -/
def answer {β : Type} (fault : Option StoreError) (reply : β) : Except StoreError β :=
  match fault with
  | some e => .error e
  | none => .ok reply

/-- Answers a request of the client `i`. The store may refuse the call, which then has no effect. -/
def serve (now : Except Overflow Instant) (fault : Option StoreError) (i : ι) :
    (r : Request α) → History ι α → r.Reply × History ι α
  | .get key, h => (answer fault (h.store.get? key), h)
  | .write v condition, h =>
    match fault with
    | some e => (.error e, h)
    | none =>
      if h.store.allows v.key condition then (.ok h.store.freshVersion, h.put i v)
      else (.error (.conflict v.key), h)
  | .page cutoff size cursor, h => (answer fault (h.store.page cutoff size cursor), h)
  | .readMany keys, h => (answer fault (h.store.readMany keys), h)
  | .now, h => (now, h)
  | .pause _, h => ((), h)

/-- The store that some writes make. -/
def replay (log : List (ι × View α)) : Store α := log.foldl (fun s e => s.put e.2) Store.empty

/-- The store is what its writes have made of it. -/
def Sound (h : History ι α) : Prop := h.store = replay h.log

theorem sound_empty : (empty : History ι α).Sound := rfl

theorem replay_concat (log : List (ι × View α)) (e : ι × View α) :
    replay (log ++ [e]) = (replay log).put e.2 := by
  simp [replay]

theorem Sound.put {h : History ι α} (hs : h.Sound) (i : ι) (v : View α) : (h.put i v).Sound := by
  rw [Sound, History.put, replay_concat, ← hs]

theorem nextVersion_replay (log : List (ι × View α)) :
    (replay log).nextVersion = log.length + 1 := by
  induction log using List.reverseRecOn with
  | nil => rfl
  | append_singleton log e ih => simp [replay_concat, Store.put, ih]

/-- The version that the write with a number gives, counted from 0. -/
def versionOf (n : ℕ) : Version := Text.natText (n + 1)

theorem freshVersion_replay (log : List (ι × View α)) :
    (replay log).freshVersion = versionOf log.length := by
  rw [Store.freshVersion, nextVersion_replay, versionOf]

/-! ## What was stored -/

/-- The view came from a write, with the version of that write. -/
def Recorded (h : History ι α) (v : View α) : Prop :=
  ∃ (n : ℕ) (e : ι × View α), h.log[n]? = some e ∧ v = e.2.withVersion (some (versionOf n))

theorem Recorded.mono {h h' : History ι α} {v : View α} (hv : h.Recorded v)
    (hp : h.log <+: h'.log) : h'.Recorded v := by
  obtain ⟨n, e, hn, rfl⟩ := hv
  obtain ⟨rest, hrest⟩ := hp
  refine ⟨n, e, ?_, rfl⟩
  rw [← hrest, List.getElem?_append_left (List.getElem?_eq_some_iff.1 hn).1, hn]

/-- A version names one write. -/
theorem Recorded.eq_of_version {h : History ι α} {v v' : View α} (hv : h.Recorded v)
    (hv' : h.Recorded v') (he : v.version = v'.version) : v = v' := by
  obtain ⟨n, e, hn, rfl⟩ := hv
  obtain ⟨n', e', hn', rfl⟩ := hv'
  rw [View.version_withVersion, View.version_withVersion, Option.some_inj] at he
  obtain rfl : n = n' := Nat.succ_inj.1 (Text.natText_inj he)
  rw [hn, Option.some_inj] at hn'
  rw [hn']

theorem get?_replay {log : List (ι × View α)} {key : String} {v : View α}
    (hv : (replay log).get? key = some v) :
    v.key = key ∧ ∃ (n : ℕ) (e : ι × View α), log[n]? = some e ∧
      v = e.2.withVersion (some (versionOf n)) := by
  induction log using List.reverseRecOn with
  | nil => cases hv
  | append_singleton log e ih =>
    rw [replay_concat] at hv
    by_cases hk : key = e.2.key
    · rw [hk, Store.get?_put_self, Option.some_inj, freshVersion_replay] at hv
      refine ⟨by rw [← hv, View.key_withVersion, hk], log.length, e, by simp, hv.symm⟩
    · rw [Store.get?_put_ne _ _ hk] at hv
      obtain ⟨hkey, n, e', hn, rfl⟩ := ih hv
      refine ⟨hkey, n, e', ?_, rfl⟩
      rw [List.getElem?_append_left (List.getElem?_eq_some_iff.1 hn).1, hn]

theorem Sound.get?_recorded {h : History ι α} (hs : h.Sound) {key : String} {v : View α}
    (hv : h.store.get? key = some v) : v.key = key ∧ h.Recorded v := by
  rw [hs] at hv
  exact get?_replay hv

theorem Recorded.version_isSome {h : History ι α} {v : View α} (hv : h.Recorded v) :
    v.version.isSome := by
  obtain ⟨n, e, -, rfl⟩ := hv
  simp

/-- The next write has a version of its own. -/
theorem Recorded.version_ne_fresh {h : History ι α} {v : View α} (hv : h.Recorded v)
    (hs : h.Sound) : v.version ≠ some h.store.freshVersion := by
  obtain ⟨n, e, hn, rfl⟩ := hv
  rw [View.version_withVersion, hs, freshVersion_replay]
  intro heq
  have hlen : n = h.log.length := Nat.succ_inj.1 (Text.natText_inj (Option.some_inj.1 heq))
  have hlt := (List.getElem?_eq_some_iff.1 hn).1
  omega

/-- A write that expects what was read succeeds only if the key still holds it. -/
theorem Sound.get?_of_allows {h h' : History ι α} (hs : h.Sound) (hs' : h'.Sound)
    (hp : h.log <+: h'.log) {key : String}
    (ha : h'.store.allows key (.expecting ((h.store.get? key).bind View.version)) = true) :
    h'.store.get? key = h.store.get? key := by
  cases hv : h.store.get? key with
  | none =>
    rw [hv] at ha
    simpa [WriteCondition.expecting, Store.allows] using ha
  | some v =>
    have hrec := (hs.get?_recorded hv).2
    obtain ⟨t, ht⟩ := Option.isSome_iff_exists.1 hrec.version_isSome
    simp only [hv, Option.bind_some, ht, WriteCondition.expecting, Store.allows, beq_iff_eq] at ha
    obtain ⟨v', hv', ht'⟩ := Option.bind_eq_some_iff.1 ha
    rw [hv', (hs'.get?_recorded hv').2.eq_of_version (hrec.mono hp) (by rw [ht', ht])]

/-- A write that expects what the key holds is allowed. -/
theorem Sound.allows_expecting {h : History ι α} (hs : h.Sound) (key : String) :
    h.store.allows key (.expecting ((h.store.get? key).bind View.version)) = true := by
  cases hv : h.store.get? key with
  | none => simp [WriteCondition.expecting, Store.allows, hv]
  | some v =>
    obtain ⟨t, ht⟩ := Option.isSome_iff_exists.1 (hs.get?_recorded hv).2.version_isSome
    simp [WriteCondition.expecting, Store.allows, hv, ht]

/-! ## Writers -/

/-- Those who wrote under a key, in the order of their writes. -/
def writers (h : History ι α) (key : String) : List ι :=
  (h.log.filter fun e => e.2.key = key).map Prod.fst

/-- Writers stay, in their order. -/
theorem writers_prefix {h h' : History ι α} (hp : h.log <+: h'.log) (key : String) :
    h.writers key <+: h'.writers key := (hp.filter _).map _

theorem writers_put_self (h : History ι α) (i : ι) (v : View α) :
    (h.put i v).writers v.key = h.writers v.key ++ [i] := by
  simp [writers, put]

theorem writers_put_ne (h : History ι α) (i : ι) {v : View α} {key : String} (hk : key ≠ v.key) :
    (h.put i v).writers key = h.writers key := by
  simp [writers, put, Ne.symm hk]

theorem Sound.writers_eq_nil {h : History ι α} (hs : h.Sound) {key : String}
    (hn : h.store.get? key = none) : h.writers key = [] := by
  have hlog (log : List (ι × View α)) (hn : (replay log).get? key = none) :
      ∀ e ∈ log, e.2.key ≠ key := by
    induction log using List.reverseRecOn with
    | nil => simp
    | append_singleton log e ih =>
      rw [replay_concat] at hn
      by_cases hk : key = e.2.key
      · rw [hk, Store.get?_put_self] at hn
        cases hn
      · rw [Store.get?_put_ne _ _ hk] at hn
        intro e' he'
        rcases List.mem_append.1 he' with he' | he'
        · exact ih hn e' he'
        · rw [List.mem_singleton.1 he']
          exact Ne.symm hk
  rw [hs] at hn
  simpa [writers] using hlog h.log hn

end History

end WeatherStation
