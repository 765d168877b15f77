import WeatherStation.Proofs.SortedMap
import WeatherStation.Proofs.Traffic.History
import WeatherStation.Proofs.View.Fold
import WeatherStation.Proofs.View.Weeks

/-!
# Open days, page by page

A page is read from the open days that come after a cursor. Its cursor stands on its last day, so
the days that come after it are those that the page has left over, as far as they are still open.

Results:
* `History.Due`, `History.Closing`: open days before a cutoff, and what closing makes of them.
* `History.Sound.mem_openDays`: the open days before a cutoff and after a cursor.
* `History.Sound.pairwise_openDays`: they come in the order of cursors.
* `History.Sound.mem_page`: a page holds open days that are stored.
* `History.Sound.after_page`: the days that a page leaves over.
* `History.Sound.openDays_next`: the next page begins with them.
-/

namespace WeatherStation

variable {ι α : Type}

/-- The place of a day in the order of open days. -/
def WindowView.place {g : Granularity} (w : WindowView g α) : Instant × String :=
  (w.start, w.id.key)

namespace History

variable {h : History ι α} {cutoff : Instant} {cursor : Option Cursor}

/-- An open day before the cutoff that is stored. -/
structure Due (h : History ι α) (cutoff : Instant) (d : DailyView α) : Prop where
  stored : h.store.get? d.id.key = some (.daily d)
  isOpen : d.isSealed = false
  start_lt : d.start < cutoff

namespace Sound

theorem find?_openDays (hs : h.Sound) {place : Instant × String} {d : DailyView α} :
    (h.store.openDays cutoff cursor).find? place = some d ↔
      place = d.place ∧ h.Due cutoff d ∧
        ∀ c ∈ cursor, Key.before (c.start, c.key) d.place = true := by
  -- What is listed was found under its own key.
  have hlisted {d : DailyView α} : d ∈ h.store.views.values.filterMap View.daily? ↔
      h.store.get? d.id.key = some (.daily d) := by
    simp only [List.mem_filterMap, SortedMap.mem_values_iff]
    constructor
    · rintro ⟨v, ⟨key, hkey⟩, hv⟩
      rw [View.eq_ofWindow_of_window? hv] at hkey
      have hkey : h.store.get? key = some (.daily d) := hkey
      rw [show d.id.key = key from (hs.get?_recorded hkey).1]
      exact hkey
    · intro hd
      exact ⟨.daily d, ⟨d.id.key, hd⟩, rfl⟩
  have hmem {d : DailyView α} (place : Instant × String) : (place, d) ∈
      ((h.store.views.values.filterMap View.daily?).filter fun d =>
        !d.isSealed && d.start < cutoff
          && cursor.all fun c => Key.before (c.start, c.key) (d.start, d.id.key)).map
        (fun d => ((d.start, d.id.key), d)) ↔
      place = d.place ∧ h.Due cutoff d ∧
        ∀ c ∈ cursor, Key.before (c.start, c.key) d.place = true := by
    simp only [List.mem_map, List.mem_filter, hlisted, Prod.mk.injEq, Bool.and_eq_true,
      Bool.not_eq_true', decide_eq_true_eq, Option.all_eq_true]
    constructor
    · rintro ⟨d', ⟨hget, ⟨hopen, hstart⟩, hafter⟩, rfl, rfl⟩
      exact ⟨rfl, ⟨hget, hopen, hstart⟩, hafter⟩
    · rintro ⟨rfl, hd, hafter⟩
      exact ⟨d, ⟨hd.stored, ⟨hd.isOpen, hd.start_lt⟩, hafter⟩, rfl, rfl⟩
  constructor
  · intro hd
    exact (hmem place).1 (SortedMap.mem_of_find?_ofList hd)
  · intro hd
    refine SortedMap.find?_ofList ((hmem place).2 hd) fun d' hd' => ?_
    obtain ⟨hplace, hdue, -⟩ := (hmem place).1 hd'
    have hkey : d'.id.key = d.id.key := congrArg Prod.snd (hplace.symm.trans hd.1)
    have hstored := hdue.stored
    rw [hkey, hd.2.1.stored] at hstored
    cases hstored
    rfl

/-- The open days before a cutoff and after a cursor. -/
theorem mem_openDays (hs : h.Sound) {d : DailyView α} :
    d ∈ (h.store.openDays cutoff cursor).values ↔
      h.Due cutoff d ∧ ∀ c ∈ cursor, Key.before (c.start, c.key) d.place = true := by
  simp only [SortedMap.mem_values_iff, hs.find?_openDays]
  simp

/-- Open days come in the order of cursors. -/
theorem pairwise_openDays (hs : h.Sound) (cutoff : Instant) (cursor : Option Cursor) :
    (h.store.openDays cutoff cursor).values.Pairwise fun d d' =>
      Key.before d.place d'.place = true :=
  SortedMap.pairwise_values fun _ _ hd => (hs.find?_openDays.1 hd).1.symm

theorem nodup_openDays (hs : h.Sound) (cutoff : Instant) (cursor : Option Cursor) :
    (h.store.openDays cutoff cursor).values.Nodup :=
  (hs.pairwise_openDays cutoff cursor).imp fun hd he =>
    Key.ne_of_before hd (congrArg WindowView.place he)

/-- There are not more open days than views. -/
theorem length_openDays_le (hs : h.Sound) :
    (h.store.openDays cutoff cursor).values.length ≤ h.store.views.size := by
  have hnodup : ((h.store.openDays cutoff cursor).values.map View.daily).Nodup := by
    refine (hs.nodup_openDays cutoff cursor).map fun d d' he => ?_
    cases he
    rfl
  have hsub : ((h.store.openDays cutoff cursor).values.map View.daily).Subperm
      h.store.views.values := by
    refine List.subperm_of_subset hnodup fun v hv => ?_
    obtain ⟨d, hd, rfl⟩ := List.mem_map.1 hv
    exact SortedMap.mem_values_iff.2 ⟨d.id.key, (hs.mem_openDays.1 hd).1.stored⟩
  rw [← List.length_map (f := View.daily)]
  exact hsub.length_le.trans_eq (List.length_map Prod.snd)

/-- The cursor of a page stands on one of its days. -/
theorem mem_of_next {size : ℕ} {c : Cursor} (hc : (h.store.page cutoff size cursor).next = some c) :
    ∃ d ∈ (h.store.page cutoff size cursor).days, (c.start, c.key) = d.place := by
  simp only [Store.page] at hc ⊢
  split_ifs at hc
  obtain ⟨d, hd, rfl⟩ := Option.map_eq_some_iff.1 hc
  exact ⟨d, List.mem_of_getLast? hd, rfl⟩

/-- There is a next page exactly if the page is full and days are left over. -/
theorem next_isSome_iff {size : ℕ} (hsize : 0 < size) :
    (h.store.page cutoff size cursor).next.isSome ↔
      size < (h.store.openDays cutoff cursor).values.length := by
  simp only [Store.page]
  split_ifs with hlt
  · simp only [Option.isSome_map, List.getLast?_isSome, hlt, iff_true]
    intro hnil
    have hlen := congrArg List.length hnil
    rw [List.length_take, List.length_nil] at hlen
    omega
  · simp [hlt]

/-- The open days that a page leaves over are those that come after its cursor. -/
theorem mem_drop_openDays (hs : h.Sound) {size : ℕ} {c : Cursor}
    (hc : (h.store.page cutoff size cursor).next = some c) {d : DailyView α} :
    d ∈ (h.store.openDays cutoff cursor).values.drop size ↔
      d ∈ (h.store.openDays cutoff cursor).values ∧
        Key.before (c.start, c.key) d.place = true := by
  have hsorted := hs.pairwise_openDays cutoff cursor
  simp only [Store.page] at hc
  generalize (h.store.openDays cutoff cursor).values = days at hc hsorted ⊢
  split_ifs at hc
  obtain ⟨last, hlast, rfl⟩ := Option.map_eq_some_iff.1 hc
  rw [← List.take_append_drop size days, List.pairwise_append] at hsorted
  obtain ⟨hpage, -, hrest⟩ := hsorted
  constructor
  · intro hd
    exact ⟨List.mem_of_mem_drop hd, hrest last (List.mem_of_getLast? hlast) d hd⟩
  · rintro ⟨hd, hafter⟩
    rw [← List.take_append_drop size days, List.mem_append] at hd
    refine hd.resolve_left fun hd => ?_
    -- No day of the page comes after its last one.
    obtain ⟨front, hfront⟩ := List.getLast?_eq_some_iff.1 hlast
    rw [hfront] at hd hpage
    rcases List.mem_append.1 hd with hd | hd
    · have hbefore := (List.pairwise_append.1 hpage).2.2 d hd last (List.mem_singleton.2 rfl)
      exact absurd hafter (Bool.eq_false_iff.1 (Key.asymm hbefore))
    · rw [List.mem_singleton.1 hd] at hafter
      exact Key.ne_of_before hafter rfl

/-- The open days that a page leaves over come after its cursor. -/
theorem after_page (hs : h.Sound) {size : ℕ} (hsize : 0 < size) {d : DailyView α}
    (hd : d ∈ (h.store.openDays cutoff cursor).values)
    (hnot : d ∉ (h.store.page cutoff size cursor).days) :
    ∃ c, (h.store.page cutoff size cursor).next = some c ∧
      Key.before (c.start, c.key) d.place = true := by
  have hdrop : d ∈ (h.store.openDays cutoff cursor).values.drop size := by
    rw [← List.take_append_drop size (h.store.openDays cutoff cursor).values,
      List.mem_append] at hd
    exact hd.resolve_left hnot
  have hlt : size < (h.store.openDays cutoff cursor).values.length := by
    by_contra hle
    rw [List.drop_of_length_le (by omega)] at hdrop
    cases hdrop
  obtain ⟨c, hc⟩ := Option.isSome_iff_exists.1 ((next_isSome_iff hsize).2 hlt)
  exact ⟨c, hc, ((hs.mem_drop_openDays hc).1 hdrop).2⟩

/-- The next page begins with the days that are left over, if they stay as they are and no others
    become due. -/
theorem openDays_next (hs : h.Sound) {h' : History ι α} (hs' : h'.Sound) {size : ℕ} {c : Cursor}
    (hc : (h.store.page cutoff size cursor).next = some c)
    (hdue : ∀ d : DailyView α, Key.before (c.start, c.key) d.place = true →
      (h'.Due cutoff d ↔ h.Due cutoff d)) :
    (h'.store.openDays cutoff (some c)).values =
      (h.store.openDays cutoff cursor).values.drop size := by
  have hsorted := (hs.pairwise_openDays cutoff cursor).sublist (List.drop_sublist size _)
  obtain ⟨last, hlast, hplace⟩ := mem_of_next hc
  have hlast := List.mem_of_mem_take hlast
  have hmem (d : DailyView α) : d ∈ (h'.store.openDays cutoff (some c)).values ↔
      d ∈ (h.store.openDays cutoff cursor).values.drop size := by
    rw [hs.mem_drop_openDays hc, hs'.mem_openDays, hs.mem_openDays]
    constructor
    · rintro ⟨hd, hafter⟩
      have hafter := hafter c rfl
      refine ⟨⟨(hdue d hafter).1 hd, fun c' hc' => ?_⟩, hafter⟩
      exact Key.trans ((hs.mem_openDays.1 hlast).2 c' hc') (hplace ▸ hafter)
    · rintro ⟨⟨hd, -⟩, hafter⟩
      refine ⟨(hdue d hafter).2 hd, fun c' hc' => ?_⟩
      cases hc'
      exact hafter
  refine ((List.perm_ext_iff_of_nodup (hs'.nodup_openDays cutoff (some c))
    ((hs.nodup_openDays cutoff cursor).sublist (List.drop_sublist size _))).2 hmem).eq_of_pairwise
    (fun d d' _ _ hd hd' => ?_) (hs'.pairwise_openDays cutoff (some c)) hsorted
  exact absurd hd' (Bool.eq_false_iff.1 (Key.asymm hd))

/-- A page holds open days that are stored. -/
theorem mem_page (hs : h.Sound) {size : ℕ} {d : DailyView α}
    (hd : d ∈ (h.store.page cutoff size cursor).days) : h.Due cutoff d :=
  (hs.mem_openDays.1 (List.mem_of_mem_take hd)).1

end Sound

/-! ## Closed days -/

variable [Quantity α] {h' : History ι α} {c c' : DailyView α}

/-- What closing makes of an open day before the cutoff that is stored. -/
def Closing (h : History ι α) (cutoff : Instant) (c : DailyView α) : Prop :=
  ∃ d, h.Due cutoff d ∧ DailyView.close.result d = .ok c

/-- The open days before a cutoff that can be closed, in order and in closed form. -/
def closings (h : History ι α) (cutoff : Instant) : List (DailyView α) :=
  (h.store.openDays cutoff none).values.filterMap fun d => (DailyView.close.result d).toOption

theorem Sound.mem_closings (hs : h.Sound) : c ∈ h.closings cutoff ↔ h.Closing cutoff c := by
  simp only [closings, List.mem_filterMap, Closing, hs.mem_openDays, Option.mem_def, reduceCtorEq,
    false_implies, implies_true, and_true]
  exact exists_congr fun d => and_congr_right fun _ => toOption_eq_some

theorem Closing.isSealed (hc : h.Closing cutoff c) : c.isSealed = true := by
  obtain ⟨d, -, hdc⟩ := hc
  exact (DailyView.close_frame hdc).1

theorem Closing.of_eq (hc : h.Closing cutoff c)
    (hk : h'.store.get? c.id.key = h.store.get? c.id.key) : h'.Closing cutoff c := by
  obtain ⟨d, hd, hdc⟩ := hc
  rw [(DailyView.close_frame hdc).2.id] at hk
  exact ⟨d, ⟨hk.trans hd.stored, hd.isOpen, hd.start_lt⟩, hdc⟩

/-- A closed day may take the place of the open one. -/
theorem Closing.allows (hc : h.Closing cutoff c) (hs : h.Sound) :
    h.store.allows c.id.key (.expecting c.version) = true := by
  obtain ⟨d, hd, hdc⟩ := hc
  have hframe := (DailyView.close_frame hdc).2
  have hallows := hs.allows_expecting d.id.key
  rw [hd.stored] at hallows
  rw [hframe.id, hframe.version]
  exact hallows

/-- No day is stored twice. -/
theorem Closing.eq_of_key (hc : h.Closing cutoff c) (hc' : h.Closing cutoff c')
    (hkey : c.id.key = c'.id.key) : c = c' := by
  obtain ⟨d, hd, hdc⟩ := hc
  obtain ⟨d', hd', hdc'⟩ := hc'
  rw [(DailyView.close_frame hdc).2.id, (DailyView.close_frame hdc').2.id] at hkey
  have hsame := hd.stored
  rw [hkey, hd'.stored] at hsame
  cases hsame
  rw [hdc] at hdc'
  exact Except.ok.inj hdc'

end History

end WeatherStation
