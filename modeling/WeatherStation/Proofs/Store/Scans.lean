import WeatherStation.Proofs.Store.Pages
import WeatherStation.Proofs.Store.Versions

/-!
# Scans

A scan fetches the open days before an instant page by page, each page after the cursor of the one
before it. Between two fetches others write what they like.

Results:
* `Store.scan`: the fetches of a scan.
* `Store.Made.pairwise_returned`: the days of a scan come in the order of cursors.
* `Store.Made.exists_returned`: a day that is due at every fetch is returned.
* `Store.Made.length_scan`: how many fetches there are if no day becomes due.
* `Store.scanned`: all of this for a store that calls have filled.
-/

namespace WeatherStation

variable {α : Type}

/-- Whether a view is an open day before the cutoff. -/
def View.isDue (cutoff : Instant) (v : View α) : Bool :=
  v.daily?.any fun d => !d.isSealed && d.start < cutoff

/-- One fetch of a scan: the store that it reads, its page, and the calls before the next fetch. -/
structure Fetch (α : Type) where
  store : Store α
  page : Page α
  calls : List (WriteCall α)

namespace Store

variable {s s' : Store α} {cutoff : Instant} {cursor : Option Cursor} {size : ℕ}

/-- The store after some calls. -/
def after (s : Store α) (calls : List (WriteCall α)) : Store α :=
  calls.foldl (fun s c => (s.answer c).2) s

/-- The store before the calls, and after each of them. -/
def moments (s : Store α) : List (WriteCall α) → List (Store α)
  | [] => [s]
  | c :: calls => s :: (s.answer c).2.moments calls

/-- The keys of the open days before the cutoff. -/
def dueKeys (s : Store α) (cutoff : Instant) : List String :=
  (s.views.entries.filter fun e => e.2.isDue cutoff).map Prod.fst

/-- A scan. There is a next fetch if the page has a cursor and calls for the meantime are left. -/
def scan (cutoff : Instant) (size : ℕ) (s : Store α) (cursor : Option Cursor) :
    (between : List (List (WriteCall α))) → List (Fetch α)
  | [] => [⟨s, s.page cutoff size cursor, []⟩]
  | calls :: between =>
    match (s.page cutoff size cursor).next with
    | none => [⟨s, s.page cutoff size cursor, []⟩]
    | some c =>
      ⟨s, s.page cutoff size cursor, calls⟩ :: (s.after calls).scan cutoff size (some c) between

end Store

namespace Fetch

/-- The store at the time of the fetch, and after each of the calls that follow. -/
def moments (f : Fetch α) : List (Store α) := f.store.moments f.calls

theorem store_mem_moments (f : Fetch α) : f.store ∈ f.moments := by
  rw [moments]
  cases f.calls <;> exact List.mem_cons_self

/-- The days that a scan returns, in order. -/
def returned (fetches : List (Fetch α)) : List (DailyView α) := fetches.flatMap fun f => f.page.days

/-- Whether a scan came to its end: its last page has no cursor. -/
def ended (fetches : List (Fetch α)) : Bool :=
  fetches.getLast?.any fun f => f.page.next.isNone

theorem returned_singleton (f : Fetch α) : returned [f] = f.page.days := by
  rw [returned, List.flatMap_singleton]

theorem returned_cons (f : Fetch α) (fetches : List (Fetch α)) :
    returned (f :: fetches) = f.page.days ++ returned fetches := by
  rw [returned, List.flatMap_cons, returned]

theorem ended_singleton (f : Fetch α) : ended [f] = f.page.next.isNone := rfl

theorem ended_cons {f : Fetch α} {fetches : List (Fetch α)} (h : fetches ≠ []) :
    ended (f :: fetches) = ended fetches := by
  rw [ended, ended, List.getLast?_cons_of_ne_nil h]

end Fetch

namespace Store

variable {s s' : Store α} {cutoff : Instant} {cursor : Option Cursor} {size : ℕ}

/-! ## Due days -/

theorem mem_dueKeys {key : String} : key ∈ s.dueKeys cutoff ↔
    ∃ d : DailyView α, s.get? key = some (.daily d) ∧ d.isSealed = false ∧ d.start < cutoff := by
  have hentry {v : View α} : (key, v) ∈ s.views.entries ↔ s.get? key = some v :=
    s.views.mem_entries_iff
  simp only [dueKeys, List.mem_map, List.mem_filter, Prod.exists, exists_and_right, exists_eq_right,
    hentry, View.isDue, Option.any_eq_true, Bool.and_eq_true, Bool.not_eq_true', decide_eq_true_eq]
  constructor
  · rintro ⟨v, hv, d, hd, hdue⟩
    rw [View.eq_ofWindow_of_window? hd] at hv
    exact ⟨d, hv, hdue⟩
  · rintro ⟨d, hd, hdue⟩
    exact ⟨.daily d, hd, d, rfl, hdue⟩

theorem nodup_dueKeys (s : Store α) (cutoff : Instant) : (s.dueKeys cutoff).Nodup :=
  s.views.nodup_keys.sublist (List.filter_sublist.map Prod.fst)

/-- A day that starts at an instant stands under a key, open and before the cutoff. -/
def DueAt (s : Store α) (cutoff : Instant) (place : Instant × String) : Prop :=
  ∃ d : DailyView α, s.get? place.2 = some (.daily d) ∧ d.isSealed = false ∧ d.start < cutoff ∧
    d.start = place.1

/-- No key holds days with different starts, once in the one store and once in the other. -/
def SameStarts (s s' : Store α) : Prop :=
  ∀ key (d d' : DailyView α), s.get? key = some (.daily d) → s'.get? key = some (.daily d') →
    d'.start = d.start

/-- No day of the second store is due that was not due in the first one. -/
def NoneNew (cutoff : Instant) (s s' : Store α) : Prop :=
  ∀ key ∈ s'.dueKeys cutoff, key ∈ s.dueKeys cutoff

theorem sameStarts_iff : s.SameStarts s' ↔ ∀ e ∈ s.views.entries, ∀ d ∈ e.2.daily?,
    ∀ d' ∈ (s'.get? e.1).bind View.daily?, d'.start = d.start := by
  have hentry {key : String} {v : View α} : (key, v) ∈ s.views.entries ↔ s.get? key = some v :=
    s.views.mem_entries_iff
  constructor
  · rintro h ⟨key, v⟩ he d hd d' hd'
    obtain rfl : v = .daily d := View.eq_ofWindow_of_window? hd
    exact h key d d' (hentry.1 he) (View.bind_daily?_eq_some.1 hd')
  · intro h key d d' hd hd'
    exact h (key, .daily d) (hentry.2 hd) d rfl d' (View.bind_daily?_eq_some.2 hd')

instance (s s' : Store α) : Decidable (s.SameStarts s') := decidable_of_iff _ sameStarts_iff.symm

instance (cutoff : Instant) (s s' : Store α) : Decidable (NoneNew cutoff s s') :=
  inferInstanceAs (Decidable (∀ key ∈ s'.dueKeys cutoff, key ∈ s.dueKeys cutoff))

theorem sameStarts_refl (s : Store α) : s.SameStarts s := by
  intro key d d' hd hd'
  rw [hd, Option.some_inj, View.daily.injEq] at hd'
  rw [hd']

instance : Std.Symm (SameStarts : Store α → Store α → Prop) :=
  ⟨fun _ _ h key d d' hd hd' => (h key d' d hd' hd).symm⟩

/-- A place that is due was due before, if no day starts elsewhere and none becomes due. -/
theorem DueAt.of_noneNew {place : Instant × String} (hplace : s'.DueAt cutoff place)
    (hsame : s.SameStarts s') (hnew : NoneNew cutoff s s') : s.DueAt cutoff place := by
  obtain ⟨d', hd', hopen', hlt', hstart'⟩ := hplace
  obtain ⟨d, hd, hopen, hlt⟩ := mem_dueKeys.1 (hnew _ (mem_dueKeys.2 ⟨d', hd', hopen', hlt'⟩))
  exact ⟨d, hd, hopen, hlt, (hsame _ d d' hd hd').symm.trans hstart'⟩

/-- The same over some calls. -/
theorem DueAt.of_after {place : Instant × String} {calls : List (WriteCall α)}
    (hsame : (s.moments calls).IsChain SameStarts)
    (hnew : (s.moments calls).IsChain (NoneNew cutoff))
    (hplace : (s.after calls).DueAt cutoff place) : s.DueAt cutoff place := by
  induction calls generalizing s with
  | nil => exact hplace
  | cons c calls ih =>
    have hhead : (s.answer c).2 ∈ ((s.answer c).2.moments calls).head? := by cases calls <;> rfl
    exact (ih hsame.tail hnew.tail hplace).of_noneNew (hsame.rel_head? hhead)
      (hnew.rel_head? hhead)

/-- A key whose day is due all the time is due in one place all the time. -/
theorem exists_dueAt {moments : List (Store α)} {key : String}
    (hsame : moments.IsChain SameStarts) (hdue : ∀ m ∈ moments, key ∈ m.dueKeys cutoff) :
    ∃ start, ∀ m ∈ moments, m.DueAt cutoff (start, key) := by
  induction moments with
  | nil => exact ⟨cutoff, by simp⟩
  | cons m moments ih =>
    obtain ⟨start, hstart⟩ := ih hsame.tail fun m' hm' => hdue m' (List.mem_cons_of_mem m hm')
    obtain ⟨d, hd, hopen, hlt⟩ := mem_dueKeys.1 (hdue m List.mem_cons_self)
    refine ⟨d.start, fun m' hm' => ?_⟩
    rcases List.mem_cons.1 hm' with rfl | hm'
    · exact ⟨d, hd, hopen, hlt, rfl⟩
    -- The moments that follow agree on a start, and their first one agrees with this one.
    · obtain ⟨m₁, rest, rfl⟩ := List.exists_cons_of_ne_nil (List.ne_nil_of_mem hm')
      obtain ⟨d₁, hd₁, -, -, hstart₁⟩ := hstart m₁ List.mem_cons_self
      have heq : start = d.start :=
        hstart₁.symm.trans (hsame.rel_head? (y := m₁) rfl key d d₁ hd hd₁)
      rw [← heq]
      exact hstart m' hm'

/-! ## Stores that calls have filled -/

/-- Writes have made the store. -/
def Made (s : Store α) : Prop := ∃ h : History Unit α, h.Sound ∧ h.store = s

theorem made_empty : (Store.empty : Store α).Made := ⟨History.empty, History.sound_empty, rfl⟩

namespace Made

theorem answer (hs : s.Made) (c : WriteCall α) : (s.answer c).2.Made := by
  obtain ⟨h, hh, rfl⟩ := hs
  cases ha : h.store.allows c.view.key c.condition with
  | true =>
    rw [answer_of_allows ha]
    exact ⟨h.put () c.view, hh.put () c.view, rfl⟩
  | false =>
    rw [answer_of_not_allows ha]
    exact ⟨h, hh, rfl⟩

theorem after (hs : s.Made) (calls : List (WriteCall α)) : (s.after calls).Made := by
  induction calls generalizing s with
  | nil => exact hs
  | cons c calls ih => exact ih (hs.answer c)

theorem key_eq (hs : s.Made) {key : String} {v : View α} (hv : s.get? key = some v) :
    v.key = key := by
  obtain ⟨h, hh, rfl⟩ := hs
  exact (hh.get?_recorded hv).1

theorem mem_openDays (hs : s.Made) {d : DailyView α} :
    d ∈ (s.openDays cutoff cursor).values ↔
      (s.get? d.id.key = some (.daily d) ∧ d.isSealed = false ∧ d.start < cutoff) ∧
        ∀ c ∈ cursor, Key.before (c.start, c.key) d.place = true := by
  obtain ⟨h, hh, rfl⟩ := hs
  rw [hh.mem_openDays]
  exact and_congr_left fun _ => ⟨fun hd => ⟨hd.stored, hd.isOpen, hd.start_lt⟩,
    fun hd => ⟨hd.1, hd.2.1, hd.2.2⟩⟩

theorem pairwise_openDays (hs : s.Made) (cutoff : Instant) (cursor : Option Cursor) :
    (s.openDays cutoff cursor).values.Pairwise fun d d' => Key.before d.place d'.place = true := by
  obtain ⟨h, hh, rfl⟩ := hs
  exact hh.pairwise_openDays cutoff cursor

/-- The open days before the cutoff, found place by place. -/
theorem exists_mem_openDays (hs : s.Made) (cursor : Option Cursor) {place : Instant × String}
    (hplace : s.DueAt cutoff place)
    (hafter : ∀ c ∈ cursor, Key.before (c.start, c.key) place = true) :
    ∃ d ∈ (s.openDays cutoff cursor).values, d.place = place := by
  obtain ⟨d, hd, hopen, hlt, hstart⟩ := hplace
  have hkey : d.id.key = place.2 := hs.key_eq hd
  have hdplace : d.place = place := Prod.ext hstart hkey
  refine ⟨d, hs.mem_openDays.2 ⟨⟨?_, hopen, hlt⟩, ?_⟩, hdplace⟩
  · rw [hkey]
    exact hd
  · rw [hdplace]
    exact hafter

/-- There are as many open days before the cutoff as keys that hold one. -/
theorem length_openDays (hs : s.Made) :
    (s.openDays cutoff none).values.length = (s.dueKeys cutoff).length := by
  have hnodup : ((s.openDays cutoff none).values.map fun d => d.id.key).Nodup := by
    refine List.pairwise_map.2 ((hs.pairwise_openDays cutoff none).imp_of_mem ?_)
    intro d d' hd hd' hbefore hkey
    have hget := (hs.mem_openDays.1 hd).1.1
    rw [hkey, (hs.mem_openDays.1 hd').1.1, Option.some_inj, View.daily.injEq] at hget
    rw [hget] at hbefore
    exact Key.ne_of_before hbefore rfl
  have hmem (key : String) : key ∈ (s.openDays cutoff none).values.map (fun d => d.id.key) ↔
      key ∈ s.dueKeys cutoff := by
    rw [mem_dueKeys, List.mem_map]
    constructor
    · rintro ⟨d, hd, rfl⟩
      exact ⟨d, (hs.mem_openDays.1 hd).1⟩
    · rintro ⟨d, hd, hopen, hlt⟩
      have hplace : s.DueAt cutoff (d.start, key) := ⟨d, hd, hopen, hlt, rfl⟩
      obtain ⟨d', hd', hplace⟩ := hs.exists_mem_openDays none hplace (by simp)
      exact ⟨d', hd', congrArg Prod.snd hplace⟩
  rw [← List.length_map (f := fun d : DailyView α => d.id.key)]
  exact ((List.perm_ext_iff_of_nodup hnodup (nodup_dueKeys s cutoff)).2 hmem).length_eq

/-! ## What one fetch keeps -/

/-- The cursor of a page comes after that of the fetch. -/
theorem before_next (hs : s.Made) {c : Cursor} (hc : (s.page cutoff size cursor).next = some c) :
    ∀ c' ∈ cursor, Key.before (c'.start, c'.key) (c.start, c.key) = true := by
  intro c' hc'
  obtain ⟨d, hd, hplace⟩ := History.Sound.mem_of_next (h := (⟨s, []⟩ : History Unit α)) hc
  rw [hplace]
  exact (hs.mem_openDays.1 (List.mem_of_mem_take hd)).2 c' hc'

/-- What comes after the cursor of a page comes after its days. -/
theorem before_of_next (hs : s.Made) {c : Cursor}
    (hc : (s.page cutoff size cursor).next = some c) {d : DailyView α}
    (hd : d ∈ (s.page cutoff size cursor).days) {place : Instant × String}
    (hplace : Key.before (c.start, c.key) place = true) : Key.before d.place place = true := by
  have hsorted := (hs.pairwise_openDays cutoff cursor).sublist (List.take_sublist size _)
  simp only [page] at hc hd
  split_ifs at hc
  obtain ⟨last, hlast, rfl⟩ := Option.map_eq_some_iff.1 hc
  obtain ⟨front, hfront⟩ := List.getLast?_eq_some_iff.1 hlast
  rw [hfront] at hd hsorted
  rcases List.mem_append.1 hd with hd | hd
  · exact Key.trans ((List.pairwise_append.1 hsorted).2.2 d hd last List.mem_cons_self) hplace
  · rw [List.mem_singleton.1 hd]
    exact hplace

/-- The days after the cursor of a page are fewer by its size, if no others became due. -/
theorem length_openDays_next (hs : s.Made) (hs' : s'.Made) {c : Cursor}
    (hc : (s.page cutoff size cursor).next = some c)
    (hdue : ∀ place, s'.DueAt cutoff place → s.DueAt cutoff place) :
    (s'.openDays cutoff (some c)).values.length ≤
      (s.openDays cutoff cursor).values.length - size := by
  have hnodup : ((s'.openDays cutoff (some c)).values.map WindowView.place).Nodup :=
    List.pairwise_map.2 ((hs'.pairwise_openDays cutoff (some c)).imp Key.ne_of_before)
  have hsub : (s'.openDays cutoff (some c)).values.map WindowView.place ⊆
      ((s.openDays cutoff cursor).values.drop size).map WindowView.place := by
    intro place hplace
    obtain ⟨d', hd', rfl⟩ := List.mem_map.1 hplace
    obtain ⟨⟨hstored, hopen, hlt⟩, hafter⟩ := hs'.mem_openDays.1 hd'
    have hafter : Key.before (c.start, c.key) d'.place = true := hafter c rfl
    obtain ⟨d, hd, hdplace⟩ := hs.exists_mem_openDays cursor
      (hdue d'.place ⟨d', hstored, hopen, hlt, rfl⟩)
      fun c' hc' => Key.trans (hs.before_next hc c' hc') hafter
    rw [← hdplace] at hafter ⊢
    obtain ⟨h, hh, rfl⟩ := hs
    exact List.mem_map_of_mem ((hh.mem_drop_openDays hc).2 ⟨hd, hafter⟩)
  have hlen := (hnodup.subperm hsub).length_le
  rw [List.length_map, List.length_map, List.length_drop] at hlen
  exact hlen

/-! ## What a scan keeps -/

/-- Every fetch reads a store that writes have made. -/
theorem of_mem_scan (hs : s.Made) (between : List (List (WriteCall α))) :
    ∀ f ∈ s.scan cutoff size cursor between,
      f.store.Made ∧ ∃ cursor, f.page = f.store.page cutoff size cursor := by
  fun_induction scan cutoff size s cursor between with
  | case1 s cursor | case2 s cursor _ _ hnone =>
    intro f hf
    rw [List.mem_singleton.1 hf]
    exact ⟨hs, cursor, rfl⟩
  | case3 s cursor calls between c hsome ih =>
    intro f hf
    rcases List.mem_cons.1 hf with rfl | hf
    · exact ⟨hs, cursor, rfl⟩
    · exact ih (hs.after calls) f hf

/-- A day that is returned was due when its page was fetched. -/
theorem of_mem_page (hs : s.Made) {between : List (List (WriteCall α))} {f : Fetch α}
    (hf : f ∈ s.scan cutoff size cursor between) {d : DailyView α} (hd : d ∈ f.page.days) :
    f.store.get? d.id.key = some (.daily d) ∧ d.isSealed = false ∧ d.start < cutoff := by
  obtain ⟨hmade, cursor', hpage⟩ := hs.of_mem_scan between f hf
  rw [hpage] at hd
  exact (hmade.mem_openDays.1 (List.mem_of_mem_take hd)).1

/-- What a scan returns comes after its cursor. -/
theorem before_returned (hs : s.Made) (between : List (List (WriteCall α))) :
    ∀ d ∈ Fetch.returned (s.scan cutoff size cursor between),
      ∀ c ∈ cursor, Key.before (c.start, c.key) d.place = true := by
  fun_induction scan cutoff size s cursor between with
  | case1 s cursor | case2 s cursor _ _ hnone =>
    intro d hd
    rw [Fetch.returned_singleton] at hd
    exact (hs.mem_openDays.1 (List.mem_of_mem_take hd)).2
  | case3 s cursor calls between c hsome ih =>
    intro d hd c' hc'
    rw [Fetch.returned_cons, List.mem_append] at hd
    rcases hd with hd | hd
    · exact (hs.mem_openDays.1 (List.mem_of_mem_take hd)).2 c' hc'
    · exact Key.trans (hs.before_next hsome c' hc') (ih (hs.after calls) d hd c rfl)

/-- The days of a scan come in the order of cursors. -/
theorem pairwise_returned (hs : s.Made) (between : List (List (WriteCall α))) :
    (Fetch.returned (s.scan cutoff size cursor between)).Pairwise fun d d' =>
      Key.before d.place d'.place = true := by
  fun_induction scan cutoff size s cursor between with
  | case1 s cursor | case2 s cursor _ _ hnone =>
    rw [Fetch.returned_singleton]
    exact (hs.pairwise_openDays cutoff cursor).sublist (List.take_sublist size _)
  | case3 s cursor calls between c hsome ih =>
    rw [Fetch.returned_cons, List.pairwise_append]
    refine ⟨(hs.pairwise_openDays cutoff cursor).sublist (List.take_sublist size _),
      ih (hs.after calls), fun d hd d' hd' => hs.before_of_next hsome hd ?_⟩
    exact (hs.after calls).before_returned between d' hd' c rfl

theorem nodup_places (hs : s.Made) (between : List (List (WriteCall α))) :
    ((Fetch.returned (s.scan cutoff size cursor between)).map WindowView.place).Nodup :=
  List.pairwise_map.2 ((hs.pairwise_returned between).imp Key.ne_of_before)

theorem scan_ne_nil (between : List (List (WriteCall α))) :
    s.scan cutoff size cursor between ≠ [] := by
  fun_cases scan cutoff size s cursor between <;> simp

/-- A scan that comes to its end returns each day that is due at every fetch. -/
theorem exists_returned (hs : s.Made) (hsize : 0 < size) {between : List (List (WriteCall α))}
    {place : Instant × String}
    (hended : Fetch.ended (s.scan cutoff size cursor between) = true)
    (hdue : ∀ f ∈ s.scan cutoff size cursor between, f.store.DueAt cutoff place)
    (hafter : ∀ c ∈ cursor, Key.before (c.start, c.key) place = true) :
    ∃ d ∈ Fetch.returned (s.scan cutoff size cursor between), d.place = place := by
  -- The day is on the page, or comes after its cursor.
  have hpage {s : Store α} {cursor : Option Cursor} (hs : s.Made) (hdue : s.DueAt cutoff place)
      (hafter : ∀ c ∈ cursor, Key.before (c.start, c.key) place = true) :
      (∃ d ∈ (s.page cutoff size cursor).days, d.place = place) ∨
        ∃ c, (s.page cutoff size cursor).next = some c ∧
          Key.before (c.start, c.key) place = true := by
    obtain ⟨d, hd, rfl⟩ := hs.exists_mem_openDays cursor hdue hafter
    obtain ⟨h, hh, rfl⟩ := hs
    by_cases hmem : d ∈ (h.store.page cutoff size cursor).days
    · exact .inl ⟨d, hmem, rfl⟩
    · exact .inr (hh.after_page hsize hd hmem)
  fun_induction scan cutoff size s cursor between with
  | case1 s cursor | case2 s cursor _ _ hnone =>
    rw [Fetch.returned_singleton]
    rcases hpage hs (hdue _ List.mem_cons_self) hafter with hreturned | ⟨c, hc, -⟩
    · exact hreturned
    · rw [Fetch.ended_singleton, hc] at hended
      cases hended
  | case3 s cursor calls between c hsome ih =>
    rw [Fetch.ended_cons (scan_ne_nil between)] at hended
    rw [Fetch.returned_cons]
    rcases hpage hs (hdue _ List.mem_cons_self) hafter with ⟨d, hd, hplace⟩ | ⟨c', hc', hbefore⟩
    · exact ⟨d, List.mem_append_left _ hd, hplace⟩
    · rw [hsome, Option.some_inj] at hc'
      subst hc'
      obtain ⟨d, hd, hplace⟩ := ih (hs.after calls) hended
        (fun f hf => hdue f (List.mem_cons_of_mem _ hf)) fun c' hc' => by cases hc'; exact hbefore
      exact ⟨d, List.mem_append_right _ hd, hplace⟩

/-- As long as no day becomes due, each fetch but the last one uses up a page of them. -/
theorem length_scan (hs : s.Made) (hsize : 0 < size) {between : List (List (WriteCall α))}
    (hsame : ((s.scan cutoff size cursor between).flatMap Fetch.moments).IsChain SameStarts)
    (hnew : ((s.scan cutoff size cursor between).flatMap Fetch.moments).IsChain (NoneNew cutoff)) :
    let fetches := s.scan cutoff size cursor between
    let days := (s.openDays cutoff cursor).values.length
    Fetch.ended fetches = true ∧ (fetches.length = 1 ∨ (fetches.length - 1) * size < days) ∨
      fetches.length = between.length + 1 ∧ fetches.length * size < days := by
  have hnext {s : Store α} {cursor : Option Cursor} (hs : s.Made) :
      (s.page cutoff size cursor).next.isSome ↔
        size < (s.openDays cutoff cursor).values.length := by
    obtain ⟨h, hh, rfl⟩ := hs
    exact History.Sound.next_isSome_iff hsize
  fun_induction scan cutoff size s cursor between with
  | case1 s cursor =>
    cases hc : (s.page cutoff size cursor).next with
    | none => exact .inl ⟨by rw [Fetch.ended_singleton, hc]; rfl, .inl rfl⟩
    | some c => exact .inr ⟨rfl, by simpa using (hnext hs).1 (by simp [hc])⟩
  | case2 s cursor calls between hnone =>
    exact .inl ⟨by rw [Fetch.ended_singleton, hnone]; rfl, .inl rfl⟩
  | case3 s cursor calls between c hsome ih =>
    rw [List.flatMap_cons] at hsame hnew
    have hmore := (hnext hs).1 (Option.isSome_of_eq_some hsome)
    have hfewer := hs.length_openDays_next (hs.after calls) hsome fun place =>
      DueAt.of_after hsame.left_of_append hnew.left_of_append
    have hrest := ih (hs.after calls) hsame.right_of_append hnew.right_of_append
    simp only [Fetch.ended_cons (scan_ne_nil between), List.length_cons] at hrest ⊢
    rcases hrest with ⟨hended, hone | hlt⟩ | ⟨hlen, hlt⟩
    · exact .inl ⟨hended, .inr (by rw [hone]; omega)⟩
    · refine .inl ⟨hended, .inr ?_⟩
      have hpos : 0 < (scan cutoff size (s.after calls) (some c) between).length :=
        List.length_pos_of_ne_nil (scan_ne_nil between)
      obtain ⟨k, hk⟩ := Nat.exists_eq_succ_of_ne_zero hpos.ne'
      rw [hk] at hlt ⊢
      simp only [Nat.succ_eq_add_one, Nat.add_sub_cancel, Nat.add_mul, Nat.one_mul] at hlt ⊢
      omega
    · refine .inr ⟨by rw [hlen], ?_⟩
      rw [Nat.add_mul, Nat.one_mul]
      omega

/-- A scan ends after as many pages as the days that are due at its beginning need, as long as no
    day becomes due. -/
theorem length_scan_le (hs : s.Made) (hsize : 0 < size) {between : List (List (WriteCall α))}
    (hsame : ((s.scan cutoff size none between).flatMap Fetch.moments).IsChain SameStarts)
    (hnew : ((s.scan cutoff size none between).flatMap Fetch.moments).IsChain (NoneNew cutoff)) :
    let most := max 1 (((s.dueKeys cutoff).length + size - 1) / size)
    (s.scan cutoff size none between).length ≤ most ∧
      (most ≤ between.length + 1 → Fetch.ended (s.scan cutoff size none between) = true) := by
  intro most
  have hmost {k : ℕ} (hk : k * size < (s.openDays cutoff none).values.length) : k + 1 ≤ most := by
    rw [hs.length_openDays] at hk
    refine le_max_of_le_right ((Nat.le_div_iff_mul_le hsize).2 ?_)
    rw [Nat.add_mul, Nat.one_mul]
    omega
  rcases hs.length_scan hsize hsame hnew with ⟨hended, hone | hlt⟩ | ⟨hlen, hlt⟩
  · exact ⟨hone.le.trans (le_max_left _ _), fun _ => hended⟩
  · have hle := hmost hlt
    exact ⟨by omega, fun _ => hended⟩
  · have hle := hmost hlt
    exact ⟨by omega, fun hmany => by omega⟩

/-- A key that never holds days with different starts is not returned twice. -/
theorem nodup_keys (hs : s.Made) {between : List (List (WriteCall α))}
    (hsame : ((s.scan cutoff size cursor between).flatMap Fetch.moments).Pairwise SameStarts) :
    ((Fetch.returned (s.scan cutoff size cursor between)).map fun d => d.id.key).Nodup := by
  refine List.pairwise_map.2 ((hs.pairwise_returned between).imp_of_mem ?_)
  intro d d' hd hd' hbefore hkey
  obtain ⟨f, hf, hd⟩ := List.mem_flatMap.1 hd
  obtain ⟨f', hf', hd'⟩ := List.mem_flatMap.1 hd'
  have hstart : f.store.SameStarts f'.store :=
    hsame.forall_of_forall (fun m _ => sameStarts_refl m)
      (List.mem_flatMap.2 ⟨f, hf, f.store_mem_moments⟩)
      (List.mem_flatMap.2 ⟨f', hf', f'.store_mem_moments⟩)
  have hget := (hs.of_mem_page hf hd).1
  have hget' := (hs.of_mem_page hf' hd').1
  rw [← hkey] at hget'
  exact Key.ne_of_before hbefore (Prod.ext (hstart _ d d' hget hget').symm hkey)

/-- A scan that comes to its end returns a key exactly once if its day is due all the time. -/
theorem count_eq_one (hs : s.Made) (hsize : 0 < size) {between : List (List (WriteCall α))}
    (hsame : ((s.scan cutoff size none between).flatMap Fetch.moments).IsChain SameStarts)
    (hended : Fetch.ended (s.scan cutoff size none between) = true) {key : String}
    (hdue : ∀ m ∈ (s.scan cutoff size none between).flatMap Fetch.moments,
      key ∈ m.dueKeys cutoff) :
    ((Fetch.returned (s.scan cutoff size none between)).map fun d => d.id.key).count key = 1 := by
  obtain ⟨start, hstart⟩ := exists_dueAt hsame hdue
  have hfetch : ∀ f ∈ s.scan cutoff size none between, f.store.DueAt cutoff (start, key) :=
    fun f hf => hstart f.store (List.mem_flatMap.2 ⟨f, hf, f.store_mem_moments⟩)
  obtain ⟨d, hd, hplace⟩ := hs.exists_returned hsize hended hfetch (by simp)
  -- Whatever is returned under the key is in this place, and no place is returned twice.
  have hplaces : ∀ d ∈ Fetch.returned (s.scan cutoff size none between),
      d.id.key = key ↔ d.place = (start, key) := by
    intro d hd
    refine ⟨fun hkey => Prod.ext ?_ hkey, fun hplace => congrArg Prod.snd hplace⟩
    obtain ⟨f, hf, hd⟩ := List.mem_flatMap.1 hd
    obtain ⟨d', hd', -, -, hstart'⟩ := hfetch f hf
    have hget := (hs.of_mem_page hf hd).1
    rw [hkey, hd', Option.some_inj, View.daily.injEq] at hget
    rw [← hget]
    exact hstart'
  have hmem : (start, key) ∈ (Fetch.returned (s.scan cutoff size none between)).map
      WindowView.place := List.mem_map.2 ⟨d, hd, hplace⟩
  have hcount := List.count_eq_one_of_mem (hs.nodup_places between) hmem
  rw [List.count_eq_countP, List.countP_map] at hcount ⊢
  rw [← hcount]
  refine List.countP_congr fun d hd => ?_
  simpa using hplaces d hd

end Made

/-- A store that any calls have filled is scanned with pages of some size, from no cursor on. Its
    days come in the order of cursors, each of them open and before the cutoff when it was fetched,
    whatever is written in the meantime. As long as no call moves the start of a day that is there,
    a day that is due all the time is returned exactly once; if no day becomes due, either, the scan
    ends after as many pages as the days at its beginning need. -/
theorem scanned (calls : List (WriteCall α)) (cutoff : Instant) {size : ℕ} (hsize : 0 < size)
    (between : List (List (WriteCall α))) :
    let s := Store.empty.after calls
    let fetches := s.scan cutoff size none between
    let moments := fetches.flatMap Fetch.moments
    let keys := (Fetch.returned fetches).map fun d => d.id.key
    let most := max 1 (((s.dueKeys cutoff).length + size - 1) / size)
    ((Fetch.returned fetches).Pairwise fun d d' => Key.before d.place d'.place = true) ∧
      (∀ f ∈ fetches, f.page.days.length ≤ size ∧
        ∀ d ∈ f.page.days, f.store.get? d.id.key = some (.daily d) ∧ d.isSealed = false ∧
          d.start < cutoff) ∧
      (moments.Pairwise SameStarts → keys.Nodup) ∧
      (moments.IsChain SameStarts → Fetch.ended fetches = true → ∀ key,
        (∀ m ∈ moments, key ∈ m.dueKeys cutoff) → keys.count key = 1) ∧
      (moments.IsChain SameStarts → moments.IsChain (NoneNew cutoff) →
        fetches.length ≤ most ∧ (most ≤ between.length + 1 → Fetch.ended fetches = true)) := by
  intro s fetches moments keys most
  have hs : s.Made := made_empty.after calls
  refine ⟨hs.pairwise_returned between, fun f hf => ⟨?_, fun d hd => hs.of_mem_page hf hd⟩,
    hs.nodup_keys, fun hsame hended key => hs.count_eq_one hsize hsame hended,
    hs.length_scan_le hsize⟩
  obtain ⟨-, cursor, hpage⟩ := hs.of_mem_scan between f hf
  rw [hpage]
  exact List.length_take_le _ _

/-- A day of 1970 without readings. -/
def dayOf1970 (n : Fin 365) : DailyView ℚ :=
  .empty "dev" ((Instant.ofSeconds? (n * 86400)).get (by revert n; decide +kernel))

theorem scanned_while_sealing :
    let calls : List (WriteCall ℚ) :=
      [⟨.daily (dayOf1970 0), .always⟩, ⟨.daily (dayOf1970 1), .always⟩]
    let sealing : WriteCall ℚ := ⟨.daily { dayOf1970 0 with isSealed := true }, .always⟩
    let fetches := (Store.empty.after calls).scan (dayOf1970 2).start 1 none [[sealing]]
    0 < 1 ∧ Fetch.ended fetches = true ∧ fetches.length ≤ 2 ∧
      ((Fetch.returned fetches).map fun d => d.id.key).count "dev|daily|1970-01-02" = 1 := by
  intro calls sealing fetches
  have hsize : 0 < 1 := by decide
  obtain ⟨-, -, -, honce, hlength⟩ := scanned calls (dayOf1970 2).start hsize [[sealing]]
  have hsame : (fetches.flatMap Fetch.moments).IsChain SameStarts := by decide +kernel
  have hnew : (fetches.flatMap Fetch.moments).IsChain (NoneNew (dayOf1970 2).start) := by
    decide +kernel
  have hended : Fetch.ended fetches = true := (hlength hsame hnew).2 (by decide +kernel)
  exact ⟨hsize, hended, (hlength hsame hnew).1.trans (by decide +kernel),
    honce hsame hended _ (by decide +kernel)⟩

end Store

end WeatherStation
