import WeatherStation.Proofs.Rollup.Sync
import WeatherStation.Proofs.Store.Pages
import WeatherStation.Sweep

/-!
# Portions on a shared store

What a sweep does on a store that others use, too: a portion of open days is read, closed in memory
and rolled up into its weeks, and then each day is written back under the condition that nobody
wrote it in between.

Results:
* `Sweep.MaySweep`: the terms of a sweep.
* `Sweep.pages_idle`: portions without room for a day do nothing.
* `Sweep.execute_safe`: a whole sweep keeps its terms.
-/

namespace WeatherStation

variable {ι α : Type} [Quantity α]

namespace Sweep

theorem mem_closeDays {days : List (DailyView α)} {result : SweepResult} {c : DailyView α} :
    c ∈ (closeDays days result).1 ↔ ∃ d ∈ days, DailyView.close.result d = .ok c := by
  simp only [closeDays, List.mem_filterMap]
  exact exists_congr fun d => and_congr_right fun _ => toOption_eq_some

/-- The days of a page, closed. -/
theorem closing_of_mem {h : History ι α} (hs : h.Sound) {cutoff : Instant} {size : ℕ}
    {cursor : Option Cursor} {result : SweepResult} {c : DailyView α}
    (hc : c ∈ (closeDays (h.store.page cutoff size cursor).days result).1) :
    h.Closing cutoff c := by
  obtain ⟨d, hd, hdc⟩ := mem_closeDays.1 hc
  exact ⟨d, hs.mem_page hd, hdc⟩

/-- The days that can be closed. -/
theorem length_closeDays (days : List (DailyView α)) (result : SweepResult) :
    (closeDays days result).1.length =
      days.countP fun d => (DailyView.close.result d).isOk := by
  rw [closeDays, List.length_filterMap_eq_countP]
  refine congrArg (List.countP · days) (funext fun d => ?_)
  cases DailyView.close.result d <;> rfl

/-- The days that cannot be closed. -/
theorem length_sub_closeDays (days : List (DailyView α)) (result : SweepResult) :
    days.length - (closeDays days result).1.length =
      days.countP fun d => !(DailyView.close.result d).isOk := by
  have hlength := List.length_eq_countP_add_countP
    (fun d : DailyView α => (DailyView.close.result d).isOk) (l := days)
  rw [length_closeDays]
  simp only [Bool.not_eq_true, Bool.decide_eq_false] at hlength
  omega

/-- Where a sweep goes on after a step. -/
def Step.cursor? : Step → Option Cursor
  | .stop _ => none
  | .next cursor _ => some cursor

/-- The result of a sweep after a step. -/
def Step.result : Step → SweepResult
  | .stop r => r
  | .next _ r => r

/-- The terms of a sweep up to a cutoff: those of its rollup, what is known of a day that was read
    from a page and closed, and that days whose weeks are ready may be sealed if nobody wrote them
    since. -/
structure MaySweep (T : Terms ι α) (part : String × IsoWeek → Terms ι α)
    (known ready : DailyView α → History ι α → Prop) (cutoff : Instant) : Prop extends
    Rollup.MayRoll T part known ready where
  read : ∀ {h c}, T.inv h → h.Closing cutoff c → known c h
  write_day : ∀ {h c}, T.inv h → ready c h →
    h.store.allows c.id.key (.expecting c.version) = true →
    T.inv (h.put T.client (.daily c)) ∧ T.grant h (h.put T.client (.daily c)) ∧
      ∀ c', ready c' h → ready c' (h.put T.client (.daily c))

variable {T : Terms ι α} {part : String × IsoWeek → Terms ι α}
  {known ready : DailyView α → History ι α → Prop} {settings : SweepSettings}
  {schedule : Rollup.Schedule α (Except RollupError String)} {cutoff : Instant} {h : History ι α}

theorem MaySweep.ready_lasts (hm : MaySweep T part known ready cutoff) {c : DailyView α}
    (hc : ready c h) : T.Lasts (ready c) h :=
  fun _ hi hr => hm.ready_rely hi ((hm.fits c.owner).rely hr) hc

theorem persist_safe (hm : MaySweep T part known ready cutoff) {days : List (DailyView α)}
    {result : SweepResult} (hready : ∀ c ∈ days, ready c h) :
    Client.Safe T (fun _ _ => True) (persist days result) h := by
  induction days generalizing h result with
  | nil => exact Client.safe_pure fun _ _ _ => trivial
  | cons c days ih =>
    refine Client.safe_bind_ok (P := fun _ h' => ∀ c ∈ days, ready c h')
      (Client.safe_tryWrite (fun h' hi hr ha => ?_) fun e h₁ hi₁ hr₁ _ h' hi hr c' hc' => ?_)
      (fun x h' hi hx => ih (hx.now hi)) fun _ _ => trivial
    · have hlasts {c' : DailyView α} (hc' : c' ∈ c :: days) : ready c' h' :=
        hm.ready_lasts (hready c' hc') h' hi hr
      obtain ⟨hi', hg, hkept⟩ := hm.write_day hi (hlasts List.mem_cons_self) ha
      refine ⟨hi', hg, fun version h'' hi'' hr'' c' hc' => ?_⟩
      exact hm.ready_lasts (hkept c' (hlasts (List.mem_cons_of_mem c hc'))) h'' hi'' hr''
    · exact hm.ready_lasts (hready c' (List.mem_cons_of_mem c hc')) h' hi (T.rely_trans hr₁ hr)

/-- What is done with the closed days of a portion. -/
def sealDays (settings : SweepSettings)
    (schedule : Rollup.Schedule α (Except RollupError String)) (next : Option Cursor)
    (closed : List (DailyView α)) (result : SweepResult) : Client α Overflow Step := do
  let rolled ← ExceptT.lift <|
    if closed.isEmpty then pure (.ok []) else (Rollup.syncDays settings schedule closed).run
  match rolled with
  | .error e => return .stop (result.critical ("Weekly rollup failed: " ++ e.message))
  | .ok _ =>
    let result ← persist closed result
    return match next with
      | some cursor => .next cursor result
      | none => .stop result

theorem sealDays_safe (hm : MaySweep T part known ready cutoff)
    (hweave : ∀ ps, Program.Weave ps (schedule ps)) {closed : List (DailyView α)}
    (hknown : ∀ c ∈ closed, known c h)
    (huniq : ∀ c ∈ closed, ∀ c' ∈ closed, c.id.key = c'.id.key → c = c') (next : Option Cursor)
    (result : SweepResult) :
    Client.Safe T (fun _ _ => True) (sealDays settings schedule next closed result) h := by
  refine Client.safe_bind_ok
    (P := fun x h' => ∀ keys, x = .ok (.ok keys) → ∀ c ∈ closed, ready c h')
    (Client.safe_lift ?_) (fun rolled h₁ hi₁ hrolled => ?_) fun _ _ => trivial
  · split_ifs with hempty
    · intro _ _ _ _ _ c hc
      rw [List.isEmpty_iff.1 hempty] at hc
      cases hc
    · refine Program.Safe.mono (Rollup.syncDays_safe hm.toMayRoll hweave hknown huniq
        (F := fun _ => True) trivial (fun _ _ _ _ => trivial) fun _ _ _ _ _ => trivial)
        fun x h' _ hx keys hk => ?_
      cases hk
      exact hx.2
  · cases rolled with
    | error e => exact Client.safe_pure fun _ _ _ => trivial
    | ok keys =>
      refine Client.safe_bind_ok (P := fun _ _ => True)
        (persist_safe hm (hrolled.now hi₁ keys rfl)) (fun result h₂ _ _ => ?_)
        fun _ _ => trivial
      exact Client.safe_pure fun _ _ _ => trivial

theorem page_safe (hm : MaySweep T part known ready cutoff)
    (hweave : ∀ ps, Program.Weave ps (schedule ps)) (started : Instant)
    (cursor : Option Cursor) (result : SweepResult) :
    Client.Safe T (fun _ _ => True) (page settings schedule started cutoff cursor result) h := by
  refine Client.safe_bind_ok (P := fun _ _ => True)
    (Client.safe_look (fun _ _ _ => rfl) fun _ _ _ _ _ _ _ _ _ => trivial) (fun time h₁ hi₁ _ => ?_)
    fun _ _ => trivial
  dsimp only
  split_ifs
  · exact Client.safe_pure fun _ _ _ => trivial
  refine Client.safe_bind_ok (P := fun x => T.Since h₁ fun h₂ => ∀ fetched, x = .ok (.ok fetched) →
      fetched = h₂.store.page cutoff settings.pageSize.toNat cursor)
    (Client.safe_lift (Client.safe_look (fun _ _ _ => rfl)
      fun h₂ hi₂ hr₂ now fault _ h₃ _ hr₃ => ⟨h₂, hi₂, hr₂, hr₃, fun fetched hf => ?_⟩))
    (fun fetched h₃ hi₃ hf => ?_) fun _ _ => trivial
  · cases fault with
    | some e => cases hf
    | none => exact (Except.ok.inj (Except.ok.inj hf)).symm
  · cases fetched with
    | error e => exact Client.safe_pure fun _ _ _ => trivial
    | ok fetched =>
      obtain ⟨h₂, hi₂, -, hr₃, hpage⟩ := hf.now hi₃
      obtain rfl := hpage fetched rfl
      dsimp only
      split
      · exact Client.safe_pure fun _ _ _ => trivial
      · have hs := hm.sound hi₂
        exact sealDays_safe hm hweave (fun c hc => hm.known_rely hi₃ ((hm.fits c.owner).rely hr₃)
            (hm.read hi₂ (closing_of_mem hs hc)))
          (fun c hc c' hc' => (closing_of_mem hs hc).eq_of_key (closing_of_mem hs hc')) _ _

theorem pages_safe (hm : MaySweep T part known ready cutoff)
    (hweave : ∀ ps, Program.Weave ps (schedule ps)) (started : Instant) (limit : ℕ)
    (cursor : Option Cursor) (result : SweepResult) :
    Client.Safe T (fun _ _ => True)
      (pages settings schedule started cutoff limit cursor result) h := by
  induction limit generalizing h cursor result with
  | zero => exact Client.safe_pure fun _ _ _ => trivial
  | succ limit ih =>
    refine Client.safe_bind_ok (page_safe hm hweave started cursor result)
      (fun step h' _ _ => ?_) fun _ _ => trivial
    cases step with
    | stop result => exact Client.safe_pure fun _ _ _ => trivial
    | next cursor result => exact ih (some cursor) result

/-- A portion without room for a day reads none, and is the last one. -/
theorem page_idle (hsize : settings.pageSize.toNat = 0) (started : Instant)
    (cursor : Option Cursor) (result : SweepResult) :
    Client.Safe T (fun x _ => ∀ step, x = .ok step → step.cursor? = none)
      (page settings schedule started cutoff cursor result) h := by
  have hlast {x : Step} {h : History ι α} (hx : x.cursor? = none) :
      Client.Safe T (fun x _ => ∀ step, x = .ok step → step.cursor? = none)
        (pure x : Client α Overflow Step) h :=
    Client.safe_pure_result (Q := fun (step : Step) _ => step.cursor? = none) fun _ _ _ => hx
  refine Client.safe_bind_ok (P := fun _ _ => True)
    (Client.safe_look (fun _ _ _ => rfl) fun _ _ _ _ _ _ _ _ _ => trivial) (fun time h₁ _ _ => ?_)
    fun e _ step hstep => by cases hstep
  dsimp only
  split_ifs
  · exact hlast rfl
  refine Client.safe_bind_ok (P := fun x _ => ∀ fetched, x = .ok (.ok fetched) → fetched.days = [])
    (Client.safe_lift (Client.safe_look (fun _ _ _ => rfl)
      fun h₂ _ _ now fault _ h₃ _ _ fetched hf => ?_)) (fun fetched h₃ hi₃ hf => ?_)
    fun e _ step hstep => by cases hstep
  · cases fault with
    | some e => cases hf
    | none =>
      obtain rfl : h₂.store.page cutoff settings.pageSize.toNat cursor = fetched :=
        Except.ok.inj (Except.ok.inj hf)
      rw [hsize]
      rfl
  · cases fetched with
    | error e => exact hlast rfl
    | ok fetched =>
      dsimp only
      rw [hf.now hi₃ fetched rfl]
      exact hlast rfl

/-- A sweep whose portions have no room for a day keeps all terms, since it only looks. -/
theorem pages_idle (hsize : settings.pageSize.toNat = 0) (started : Instant) (limit : ℕ)
    (cursor : Option Cursor) (result : SweepResult) :
    Client.Safe T (fun _ _ => True)
      (pages settings schedule started cutoff limit cursor result) h := by
  cases limit with
  | zero => exact Client.safe_pure fun _ _ _ => trivial
  | succ limit =>
    refine Client.safe_bind_ok (page_idle hsize started cursor result) (fun step h' hi hstep => ?_)
      fun _ _ => trivial
    cases step with
    | stop result => exact Client.safe_pure fun _ _ _ => trivial
    | next cursor result => cases hstep.now hi _ rfl

/-- A sweep keeps its terms. -/
theorem execute_safe (hm : ∀ cutoff, MaySweep T part known ready cutoff)
    (hweave : ∀ ps, Program.Weave ps (schedule ps)) (limit : ℕ) (lookbackHours : UInt32) :
    Client.Safe T (fun _ _ => True) (execute settings schedule limit lookbackHours) h := by
  refine Client.safe_bind_ok (P := fun _ _ => True)
    (Client.safe_look (fun _ _ _ => rfl) fun _ _ _ _ _ _ _ _ _ => trivial)
    (fun started h₁ _ _ => ?_) fun _ _ => trivial
  exact Client.safe_compute_bind
    (fun cutoff _ => pages_safe (hm cutoff) hweave started limit none .start)
    fun _ _ _ _ _ => trivial

end Sweep

end WeatherStation
