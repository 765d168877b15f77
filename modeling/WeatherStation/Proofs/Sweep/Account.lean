import WeatherStation.Proofs.Sweep.Portions
import WeatherStation.Proofs.Traffic.Exchanges

/-!
# The account of a sweep

What a sweep makes of the replies to its requests, whatever they are: the portions that it fetched,
what became of their days, and what it counted.

Results:
* `Sweep.Portion`, `Sweep.Portions`: the exchanges of a portion and of all portions, case by case.
* `Sweep.execute_traces`: the exchanges of a sweep.
* `Sweep.Fated`: what became of a day.
* `Sweep.Account`: the portions of a sweep, the fates of their days and the counters.
* `Sweep.Portions.account`: every sweep has an account.
* `Sweep.Portions.in_time`: the result of a sweep that does not run out of time.
-/

namespace WeatherStation

variable {α : Type}

/-- What became of a day that a sweep has fetched. -/
inductive Fate where
  | sealed
  /-- Somebody else wrote it in between. -/
  | skipped
  | failed
  deriving DecidableEq

/-- What a reply to the write of a closed day means for the day. -/
def Fate.of : Except StoreError Version → Fate
  | .ok _ => .sealed
  | .error (.conflict _) => .skipped
  | .error _ => .failed

namespace SweepResult

/-- The counters after some days met their fates. -/
def count (r : SweepResult) (fates : List Fate) : SweepResult :=
  { r with
    processed := r.processed + fates.count .sealed
    skipped := r.skipped + fates.count .skipped
    failed := r.failed + fates.count .failed }

@[simp]
theorem count_nil (r : SweepResult) : r.count [] = r := rfl

theorem count_append (r : SweepResult) (fates fates' : List Fate) :
    r.count (fates ++ fates') = (r.count fates).count fates' := by
  simp [count, Nat.add_assoc]

end SweepResult

namespace Exchange

/-- The days of the page that was fetched, if one was. -/
def page? : Exchange α → Option (List (DailyView α))
  | ⟨.page .., .ok p⟩ => some p.days
  | _ => none

/-- The key of the day that was written as a sealed one, if one was. -/
def sealedKey? : Exchange α → Option String
  | ⟨.write (.daily c) _, .ok _⟩ => if c.isSealed then some c.id.key else none
  | _ => none

/-- A closed day is written back, with a reply. -/
def writeDay (w : DailyView α × Except StoreError Version) : Exchange α :=
  ⟨.write (.daily w.1) (.expecting w.1.version), w.2⟩

end Exchange

namespace Sweep

variable [Quantity α]

/-! ## Rollups -/

/-- The rollup of the closed days of a portion. -/
def rollUp (settings : SweepSettings) (schedule : Rollup.Schedule α (Except RollupError String))
    (closed : List (DailyView α)) : Program α (Except RollupError (List String)) :=
  if closed.isEmpty then pure (.ok []) else (Rollup.syncDays settings schedule closed).run

omit [Quantity α] in
/-- A request of a rollup, which neither fetches a page nor writes a day. -/
def Weekly : Request α → Prop
  | .get _ => True
  | .write (.weekly _) _ => True
  | .pause _ => True
  | _ => False

theorem attemptWeek_asks (device : String) (week : IsoWeek) (days : List (DailyView α)) :
    Client.Asks Weekly (Rollup.attemptWeek device week days) := by
  refine Client.Asks.bind (Client.asks_getAs trivial).adapt fun stored => ?_
  refine Client.Asks.bind (Client.asks_compute _) fun w => ?_
  exact Client.asks_lift (Client.asks_request trivial)

theorem syncWeek_asks (settings : SweepSettings) (device : String) (week : IsoWeek)
    (days : List (DailyView α)) (retries : ℕ) :
    Client.Asks Weekly (Rollup.syncWeek settings device week days retries) := by
  induction retries with
  | zero =>
    refine (attemptWeek_asks device week days).bind fun x => ?_
    cases x with
    | ok version => exact Client.asks_pure _
    | error e => exact Client.asks_throw _
  | succ retries ih =>
    refine (attemptWeek_asks device week days).bind fun x => ?_
    cases x with
    | ok version => exact Client.asks_pure _
    | error e =>
      dsimp only
      split_ifs
      · exact (Client.asks_lift (Client.asks_request trivial)).bind fun _ => ih
      · exact Client.asks_throw _

variable {settings : SweepSettings}
  {schedule : Rollup.Schedule α (Except RollupError String)}

theorem rollUp_asks (hweave : ∀ ps, Program.Weave ps (schedule ps)) (closed : List (DailyView α)) :
    (rollUp settings schedule closed).Asks Weekly := by
  rw [rollUp]
  split_ifs
  · exact trivial
  refine Client.Asks.bind (Client.asks_lift ((hweave _).asks (fun _ => trivial) fun p hp => ?_))
    fun results => (Client.asks_compute _).bind fun keys => Client.asks_pure _
  obtain ⟨g, -, rfl⟩ := List.mem_map.1 hp
  exact syncWeek_asks settings g.1.1 g.1.2 g.2 _

omit [Quantity α] in
theorem page?_of_weekly {x : Exchange α} (hx : Weekly x.request) : x.page? = none := by
  obtain ⟨r, reply⟩ := x
  cases r <;> first | rfl | exact hx.elim

omit [Quantity α] in
theorem sealedKey?_of_weekly {x : Exchange α} (hx : Weekly x.request) : x.sealedKey? = none := by
  obtain ⟨r, reply⟩ := x
  cases r with
  | write v condition =>
    cases v with
    | daily c => exact hx.elim
    | _ => rfl
  | _ => rfl

/-! ## Portions -/

/-- The exchanges of a portion, and the outcome to which they lead. -/
inductive Portion (settings : SweepSettings)
    (schedule : Rollup.Schedule α (Except RollupError String)) (started cutoff : Instant)
    (cursor : Option Cursor) (r : SweepResult) :
    List (Exchange α) → Except Overflow Step → Prop
  | noTime {e : Overflow} : Portion settings schedule started cutoff cursor r
      [⟨.now, .error e⟩] (.error e)
  | exhausted {now : Instant} : settings.timeBudget.nanoseconds < now.since started →
      Portion settings schedule started cutoff cursor r [⟨.now, .ok now⟩]
        (.ok (.stop { r with budgetExhausted := true }))
  | unfetched {now : Instant} {e : StoreError} :
      ¬ settings.timeBudget.nanoseconds < now.since started →
      Portion settings schedule started cutoff cursor r
        [⟨.now, .ok now⟩, ⟨.page cutoff settings.pageSize.toNat cursor, .error e⟩]
        (.ok (.stop (r.critical ("Failed to fetch unfinalized days: " ++ e.message))))
  | empty {now : Instant} {p : Page α} : ¬ settings.timeBudget.nanoseconds < now.since started →
      p.days = [] → Portion settings schedule started cutoff cursor r
        [⟨.now, .ok now⟩, ⟨.page cutoff settings.pageSize.toNat cursor, .ok p⟩] (.ok (.stop r))
  | aborted {now : Instant} {p : Page α} {xs : List (Exchange α)} {e : RollupError} :
      ¬ settings.timeBudget.nanoseconds < now.since started →
      (rollUp settings schedule (closeDays p.days r).1).Traces xs (.error e) →
      Portion settings schedule started cutoff cursor r
        ([⟨.now, .ok now⟩, ⟨.page cutoff settings.pageSize.toNat cursor, .ok p⟩] ++ xs)
        (.ok (.stop ((closeDays p.days r).2.critical ("Weekly rollup failed: " ++ e.message))))
  | kept {now : Instant} {p : Page α} {xs : List (Exchange α)} {keys : List String}
      {writes : List (DailyView α × Except StoreError Version)} :
      ¬ settings.timeBudget.nanoseconds < now.since started →
      (rollUp settings schedule (closeDays p.days r).1).Traces xs (.ok keys) →
      writes.map Prod.fst = (closeDays p.days r).1 →
      Portion settings schedule started cutoff cursor r
        ([⟨.now, .ok now⟩, ⟨.page cutoff settings.pageSize.toNat cursor, .ok p⟩] ++
          (xs ++ writes.map Exchange.writeDay))
        (.ok (
          let r := writes.foldl (fun r w => countWrite r w.2) (closeDays p.days r).2
          match p.next with
          | some cursor => .next cursor r
          | none => .stop r))

omit [Quantity α] in
theorem persist_traces {closed : List (DailyView α)} {r : SweepResult} {xs : List (Exchange α)}
    {y : Except Overflow SweepResult} (h : (persist closed r).Traces xs y) :
    ∃ writes : List (DailyView α × Except StoreError Version), writes.map Prod.fst = closed ∧
      xs = writes.map Exchange.writeDay ∧
      y = .ok (writes.foldl (fun r w => countWrite r w.2) r) := by
  induction closed generalizing r xs with
  | nil =>
    obtain ⟨rfl, rfl⟩ := Client.traces_pure.1 h
    exact ⟨[], rfl, rfl, rfl⟩
  | cons c closed ih =>
    obtain ⟨reply, xs₁, xs₂, rfl, h₁, h₂⟩ := Client.traces_lift_bind.1 h
    obtain rfl := Program.traces_request.1 h₁
    obtain ⟨writes, rfl, rfl, rfl⟩ := ih h₂
    exact ⟨(c, reply) :: writes, rfl, rfl, rfl⟩

variable {started cutoff : Instant} {cursor : Option Cursor} {r : SweepResult}
  {xs : List (Exchange α)}

theorem page_traces {y : Except Overflow Step}
    (h : (page settings schedule started cutoff cursor r).Traces xs y) :
    Portion settings schedule started cutoff cursor r xs y := by
  rcases Client.traces_bind.1 h with ⟨now, xs₁, xs₂, rfl, h₁, h₂⟩ | ⟨e, h₁, rfl⟩
  swap
  · obtain rfl := Program.traces_request.1 h₁
    exact .noTime
  obtain rfl := Program.traces_request.1 h₁
  dsimp only at h₂
  split_ifs at h₂ with htime
  · obtain ⟨rfl, rfl⟩ := Client.traces_pure.1 h₂
    exact .exhausted htime
  obtain ⟨fetched, xs₃, xs₄, rfl, h₃, h₄⟩ := Client.traces_lift_bind.1 h₂
  obtain rfl := Program.traces_request.1 h₃
  cases fetched with
  | error e =>
    obtain ⟨rfl, rfl⟩ := Client.traces_pure.1 h₄
    exact .unfetched htime
  | ok p =>
    dsimp only at h₄
    by_cases hempty : p.days.isEmpty
    · rw [if_pos hempty] at h₄
      obtain ⟨rfl, rfl⟩ := Client.traces_pure.1 h₄
      exact .empty htime (List.isEmpty_iff.1 hempty)
    rw [if_neg hempty] at h₄
    obtain ⟨rolled, xs₅, xs₆, rfl, h₅, h₆⟩ := Client.traces_lift_bind.1 h₄
    cases rolled with
    | error e =>
      obtain ⟨rfl, rfl⟩ := Client.traces_pure.1 h₆
      rw [List.append_nil]
      exact .aborted htime h₅
    | ok keys =>
      rcases Client.traces_bind.1 h₆ with ⟨r', xs₇, xs₈, rfl, h₇, h₈⟩ | ⟨e, h₇, rfl⟩
      · obtain ⟨rfl, rfl⟩ := Client.traces_pure.1 h₈
        obtain ⟨writes, hwrites, rfl, hr⟩ := persist_traces h₇
        cases hr
        rw [List.append_nil]
        exact .kept htime h₅ hwrites
      · obtain ⟨writes, -, -, hr⟩ := persist_traces h₇
        cases hr

/-! ## Sweeps -/

/-- The exchanges of all portions, and the outcome to which they lead. -/
inductive Portions (settings : SweepSettings)
    (schedule : Rollup.Schedule α (Except RollupError String)) (started cutoff : Instant) :
    ℕ → Option Cursor → SweepResult → List (Exchange α) → Except Overflow SweepResult → Prop
  | unlimited {cursor : Option Cursor} {r : SweepResult} :
      Portions settings schedule started cutoff 0 cursor r [] (.ok r)
  | failed {limit : ℕ} {cursor : Option Cursor} {r : SweepResult} {xs : List (Exchange α)}
      {e : Overflow} : Portion settings schedule started cutoff cursor r xs (.error e) →
      Portions settings schedule started cutoff (limit + 1) cursor r xs (.error e)
  | stop {limit : ℕ} {cursor : Option Cursor} {r r' : SweepResult} {xs : List (Exchange α)} :
      Portion settings schedule started cutoff cursor r xs (.ok (.stop r')) →
      Portions settings schedule started cutoff (limit + 1) cursor r xs (.ok r')
  | next {limit : ℕ} {cursor : Option Cursor} {after : Cursor} {r r' : SweepResult}
      {xs ys : List (Exchange α)} {y : Except Overflow SweepResult} :
      Portion settings schedule started cutoff cursor r xs (.ok (.next after r')) →
      Portions settings schedule started cutoff limit (some after) r' ys y →
      Portions settings schedule started cutoff (limit + 1) cursor r (xs ++ ys) y

theorem pages_traces {limit : ℕ} {y : Except Overflow SweepResult}
    (h : (pages settings schedule started cutoff limit cursor r).Traces xs y) :
    Portions settings schedule started cutoff limit cursor r xs y := by
  induction limit generalizing cursor r xs with
  | zero =>
    obtain ⟨rfl, rfl⟩ := Client.traces_pure.1 h
    exact .unlimited
  | succ limit ih =>
    rcases Client.traces_bind.1 h with ⟨step, xs₁, xs₂, rfl, h₁, h₂⟩ | ⟨e, h₁, rfl⟩
    swap
    · exact .failed (page_traces h₁)
    cases step with
    | stop r' =>
      obtain ⟨rfl, rfl⟩ := Client.traces_pure.1 h₂
      rw [List.append_nil]
      exact .stop (page_traces h₁)
    | next after r' => exact .next (page_traces h₁) (ih h₂)

/-- A sweep asks for the time, and then for portion after portion. -/
theorem execute_traces {limit : ℕ} {lookbackHours : UInt32} {y : Except Overflow SweepResult}
    (h : (execute settings schedule limit lookbackHours).Traces xs y) :
    (∃ e, xs = [⟨.now, .error e⟩] ∧ y = .error e) ∨
      ∃ started ys, xs = ⟨.now, .ok started⟩ :: ys ∧
        ((∃ e, Sweep.cutoff started lookbackHours = .error e ∧ ys = [] ∧ y = .error e) ∨
          ∃ cutoff, Sweep.cutoff started lookbackHours = .ok cutoff ∧
            Portions settings schedule started cutoff limit none .start ys y) := by
  rcases Client.traces_bind.1 h with ⟨started, xs₁, ys, rfl, h₁, h₂⟩ | ⟨e, h₁, rfl⟩
  · obtain rfl := Program.traces_request.1 h₁
    refine .inr ⟨started, ys, rfl, ?_⟩
    rcases Client.traces_compute_bind.1 h₂ with ⟨cutoff, hcutoff, h₃⟩ | ⟨e, he, rfl, rfl⟩
    · exact .inr ⟨cutoff, hcutoff, pages_traces h₃⟩
    · exact .inl ⟨e, he, rfl, rfl⟩
  · obtain rfl := Program.traces_request.1 h₁
    exact .inl ⟨e, rfl, rfl⟩

/-! ## Fates of days -/

/-- What became of a day: it could not be closed, or it was written back and the reply decided. -/
inductive Fated (xs : List (Exchange α)) (d : DailyView α) : Fate → Prop
  | unclosed {e : TallyError} : DailyView.close.result d = .error e → Fated xs d .failed
  | written {c : DailyView α} {reply : Except StoreError Version} :
      DailyView.close.result d = .ok c → Exchange.writeDay (c, reply) ∈ xs →
      Fated xs d (Fate.of reply)

theorem Fated.mono {ys : List (Exchange α)} {d : DailyView α} {fate : Fate} (h : Fated xs d fate)
    (hys : ∀ x ∈ xs, x ∈ ys) : Fated ys d fate := by
  cases h with
  | unclosed hd => exact .unclosed hd
  | written hd hx => exact .written hd (hys _ hx)

/-- The keys of the days that met the fate of being sealed. -/
def sealedKeys (fates : List (DailyView α × Fate)) : List String :=
  (fates.filter fun f => f.2 = .sealed).map fun f => f.1.id.key

omit [Quantity α] in
theorem countWrite_eq (r : SweepResult) (reply : Except StoreError Version) :
    countWrite r reply = r.count [Fate.of reply] := by
  rcases reply with (_ | _ | _ | _) | _ <;> rfl

theorem closeDays_cons_ok {d c : DailyView α} {days : List (DailyView α)}
    (h : DailyView.close.result d = .ok c) (r : SweepResult) :
    closeDays (d :: days) r = (c :: (closeDays days r).1, (closeDays days r).2) := by
  simp [closeDays, h, Except.toOption]

theorem closeDays_cons_error {d : DailyView α} {days : List (DailyView α)} {e : TallyError}
    (h : DailyView.close.result d = .error e) (r : SweepResult) :
    closeDays (d :: days) r = ((closeDays days r).1, (closeDays days (r.count [.failed])).2) := by
  have hle := List.length_filterMap_le (fun d => (DailyView.close.result d).toOption) days
  simp only [closeDays, List.filterMap_cons, h, Except.toOption, List.length_cons, SweepResult.count,
    List.count_singleton_self, Prod.mk.injEq, SweepResult.mk.injEq, true_and, and_true] at hle ⊢
  simp
  omega

/-- It does not matter whether days are counted before or after others are closed. -/
theorem closeDays_count (days : List (DailyView α)) (r : SweepResult) (fates : List Fate) :
    (closeDays days (r.count fates)).2 = (closeDays days r).2.count fates := by
  simp [closeDays, SweepResult.count, Nat.add_right_comm]

/-- The days of a portion that was written back have met their fates. -/
theorem exists_fates {days : List (DailyView α)} {r : SweepResult}
    {writes : List (DailyView α × Except StoreError Version)}
    (h : writes.map Prod.fst = (closeDays days r).1) :
    ∃ fates : List (DailyView α × Fate), fates.map Prod.fst = days ∧
      (∀ f ∈ fates, Fated (writes.map Exchange.writeDay) f.1 f.2) ∧
      (writes.map Exchange.writeDay).filterMap Exchange.sealedKey? = sealedKeys fates ∧
      writes.foldl (fun r w => countWrite r w.2) (closeDays days r).2 =
        r.count (fates.map Prod.snd) := by
  induction days generalizing writes r with
  | nil =>
    obtain rfl := List.map_eq_nil_iff.1 h
    exact ⟨[], rfl, by simp, rfl, rfl⟩
  | cons d days ih =>
    cases hd : DailyView.close.result d with
    | error e =>
      rw [closeDays_cons_error hd] at h ⊢
      obtain ⟨fates, rfl, hfated, hkeys, hcount⟩ := ih (r := r.count [.failed]) h
      refine ⟨(d, .failed) :: fates, rfl, ?_, hkeys, ?_⟩
      · rintro f (_ | ⟨_, hf⟩)
        · exact .unclosed hd
        · exact hfated f hf
      · rw [hcount, ← SweepResult.count_append]
        rfl
    | ok c =>
      rw [closeDays_cons_ok hd] at h ⊢
      obtain ⟨⟨c', reply⟩, writes, rfl, hc, hwrites⟩ := List.map_eq_cons_iff.1 h
      obtain rfl : c' = c := hc
      obtain ⟨fates, rfl, hfated, hkeys, hcount⟩ := ih (r := r.count [Fate.of reply]) hwrites
      obtain ⟨hsealed, hsame⟩ := DailyView.close_frame hd
      refine ⟨(d, Fate.of reply) :: fates, rfl, ?_, ?_, ?_⟩
      · rintro f (_ | ⟨_, hf⟩)
        · exact .written hd List.mem_cons_self
        · exact (hfated f hf).mono fun x hx => List.mem_cons_of_mem _ hx
      · rw [sealedKeys] at hkeys ⊢
        rw [List.map_cons, List.filterMap_cons, List.filter_cons, hkeys]
        cases reply with
        | ok version => simp [Exchange.writeDay, Exchange.sealedKey?, Fate.of, hsealed, hsame.id]
        | error e => cases e <;> rfl
      · rw [List.foldl_cons, countWrite_eq, ← closeDays_count, hcount, ← SweepResult.count_append]
        rfl

/-! ## Accounts -/

/-- Nothing but weeks and sealed days is written. -/
def Modest (xs : List (Exchange α)) : Prop :=
  ∀ x ∈ xs, ∀ v condition, x.request = .write v condition →
    (∃ w, v = .weekly w) ∨ ∃ c, v = .daily c ∧ c.isSealed = true

/-- A sweep that came from `r` to `r'`: the portions that it fetched, the last of which may have been
    aborted, and the fates of the days of all others. -/
structure Account (r r' : SweepResult) (xs : List (Exchange α)) (kept : List (List (DailyView α)))
    (aborted : Option (List (DailyView α))) (fates : List (DailyView α × Fate)) : Prop where
  fetched : ∃ ys zs, xs = ys ++ zs ∧ ys.filterMap Exchange.page? = kept ∧
    zs.filterMap Exchange.page? = aborted.toList ∧ zs.filterMap Exchange.sealedKey? = []
  days : fates.map Prod.fst = kept.flatten
  fated : ∀ f ∈ fates, Fated xs f.1 f.2
  sealed_keys : xs.filterMap Exchange.sealedKey? = sealedKeys fates
  processed : r'.processed = r.processed + (fates.map Prod.snd).count .sealed
  skipped : r'.skipped = r.skipped + (fates.map Prod.snd).count .skipped
  /-- Of a portion that was aborted, those days count as failed that could not be closed. -/
  failed : r'.failed = r.failed + (fates.map Prod.snd).count .failed +
    (aborted.getD []).countP fun d => !(DailyView.close.result d).isOk
  stopped : match aborted with
    | some _ => r'.success = false ∧
        ∃ e : RollupError, r'.error = some ("Weekly rollup failed: " ++ e.message)
    | none => r'.error = r.error ∨
        ∃ e : StoreError, r'.error = some ("Failed to fetch unfinalized days: " ++ e.message)
  modest : Modest xs

omit [Quantity α] in
theorem modest_append {ys : List (Exchange α)} : Modest (xs ++ ys) ↔ Modest xs ∧ Modest ys :=
  List.forall_mem_append

omit [Quantity α] in
/-- A rollup fetches no page and seals no day. -/
theorem of_weekly (hxs : ∀ x ∈ xs, Weekly x.request) :
    xs.filterMap Exchange.page? = [] ∧ xs.filterMap Exchange.sealedKey? = [] ∧ Modest xs := by
  refine ⟨List.filterMap_eq_nil_iff.2 fun x hx => page?_of_weekly (hxs x hx),
    List.filterMap_eq_nil_iff.2 fun x hx => sealedKey?_of_weekly (hxs x hx), ?_⟩
  intro x hx v condition hv
  have hw := hxs x hx
  rw [hv] at hw
  cases v with
  | weekly w => exact .inl ⟨w, rfl⟩
  | _ => exact hw.elim

/-- No page and no sealed day, and nothing is counted. -/
theorem account_nil {r r' : SweepResult} (hpages : xs.filterMap Exchange.page? = [])
    (hkeys : xs.filterMap Exchange.sealedKey? = []) (hxs : Modest xs)
    (hcounts : r'.processed = r.processed ∧ r'.skipped = r.skipped ∧ r'.failed = r.failed)
    (hstopped : r'.error = r.error ∨
      ∃ e : StoreError, r'.error = some ("Failed to fetch unfinalized days: " ++ e.message)) :
    Account r r' xs [] none [] where
  fetched := ⟨[], xs, rfl, rfl, hpages, hkeys⟩
  days := rfl
  fated := by simp
  sealed_keys := hkeys
  processed := hcounts.1
  skipped := hcounts.2.1
  failed := hcounts.2.2
  stopped := hstopped
  modest := hxs

omit [Quantity α] in
theorem modest_now {now : Instant} : Modest [(⟨.now, .ok now⟩ : Exchange α)] := by
  intro x hx v condition hv
  rw [List.mem_singleton.1 hx] at hv
  cases hv

omit [Quantity α] in
theorem modest_look {now : Instant} {reply : Except StoreError (Page α)} :
    Modest [⟨.now, .ok now⟩, (⟨.page cutoff settings.pageSize.toNat cursor, reply⟩ : Exchange α)] := by
  intro x hx v condition hv
  rcases List.mem_pair.1 hx with rfl | rfl <;> cases hv

/-- A portion that was written back. -/
theorem account_kept (hweave : ∀ ps, Program.Weave ps (schedule ps)) {now : Instant} {p : Page α}
    {keys : List String} {writes : List (DailyView α × Except StoreError Version)}
    (hrolled : (rollUp settings schedule (closeDays p.days r).1).Traces xs (.ok keys))
    (hwrites : writes.map Prod.fst = (closeDays p.days r).1) :
    ∃ fates, Account r (writes.foldl (fun r w => countWrite r w.2) (closeDays p.days r).2)
      ([⟨.now, .ok now⟩, ⟨.page cutoff settings.pageSize.toNat cursor, .ok p⟩] ++
        (xs ++ writes.map Exchange.writeDay)) [p.days] none fates := by
  obtain ⟨hpages, hkeys, hmodest⟩ := of_weekly ((rollUp_asks hweave _).of_traces hrolled)
  obtain ⟨fates, hdays, hfated, hsealed, hcount⟩ := exists_fates hwrites
  have hnone : (writes.map Exchange.writeDay).filterMap Exchange.page? = [] :=
    List.filterMap_eq_nil_iff.2 fun x hx => by
      obtain ⟨w, -, rfl⟩ := List.mem_map.1 hx
      rfl
  refine ⟨fates, ⟨⟨_, [], (List.append_nil _).symm, ?_, rfl, rfl⟩, by simpa using hdays, ?_, ?_,
    ?_, ?_, ?_, .inl ?_, ?_⟩⟩
  · rw [List.filterMap_append, List.filterMap_append, hpages, hnone]
    rfl
  · refine fun f hf => (hfated f hf).mono fun x hx => ?_
    exact List.mem_append_right _ (List.mem_append_right _ hx)
  · rw [List.filterMap_append, List.filterMap_append, hkeys, hsealed]
    rfl
  · rw [hcount]
    rfl
  · rw [hcount]
    rfl
  · rw [hcount]
    rfl
  · rw [hcount]
    rfl
  · refine modest_append.2 ⟨modest_look, modest_append.2 ⟨hmodest, ?_⟩⟩
    intro x hx v condition hv
    obtain ⟨w, hw, rfl⟩ := List.mem_map.1 hx
    cases hv
    have hc : w.1 ∈ (closeDays p.days r).1 := hwrites ▸ List.mem_map_of_mem hw
    obtain ⟨d, -, hd⟩ := mem_closeDays.1 hc
    exact .inr ⟨w.1, rfl, (DailyView.close_frame hd).1⟩

/-- A portion whose rollup failed. -/
theorem account_aborted (hweave : ∀ ps, Program.Weave ps (schedule ps)) {now : Instant} {p : Page α}
    {e : RollupError}
    (hrolled : (rollUp settings schedule (closeDays p.days r).1).Traces xs (.error e)) :
    Account r ((closeDays p.days r).2.critical ("Weekly rollup failed: " ++ e.message))
      ([⟨.now, .ok now⟩, ⟨.page cutoff settings.pageSize.toNat cursor, .ok p⟩] ++ xs)
      [] (some p.days) [] := by
  obtain ⟨hpages, hkeys, hmodest⟩ := of_weekly ((rollUp_asks hweave _).of_traces hrolled)
  refine ⟨⟨[], [_, _] ++ xs, rfl, rfl, ?_, ?_⟩, rfl, by simp, ?_, rfl, rfl, ?_, ⟨rfl, e, rfl⟩,
    modest_append.2 ⟨modest_look, hmodest⟩⟩
  · rw [List.filterMap_append, hpages]
    rfl
  · rw [List.filterMap_append, hkeys]
    rfl
  · rw [List.filterMap_append, hkeys]
    rfl
  · show r.failed + (p.days.length - (closeDays p.days r).1.length) = _
    rw [length_sub_closeDays]
    simp

/-- A portion after which the sweep stops. -/
theorem Portion.account_stop (hweave : ∀ ps, Program.Weave ps (schedule ps)) {r' : SweepResult}
    (h : Portion settings schedule started cutoff cursor r xs (.ok (.stop r'))) :
    ∃ kept aborted fates, Account r r' xs kept aborted fates := by
  generalize hy : (Except.ok (Step.stop r') : Except Overflow Step) = y at h
  cases h with
  | noTime => cases hy
  | exhausted =>
    cases hy
    exact ⟨[], none, [], account_nil rfl rfl modest_now ⟨rfl, rfl, rfl⟩ (.inl rfl)⟩
  | @unfetched now e =>
    cases hy
    exact ⟨[], none, [], account_nil rfl rfl modest_look ⟨rfl, rfl, rfl⟩ (.inr ⟨e, rfl⟩)⟩
  | @empty now p _ hdays =>
    cases hy
    refine ⟨[p.days], none, [], ⟨_, [], (List.append_nil _).symm, rfl, rfl, rfl⟩, ?_, by simp, rfl,
      rfl, rfl, rfl, .inl rfl, modest_look⟩
    simp [hdays]
  | aborted _ hrolled =>
    cases hy
    exact ⟨_, _, _, account_aborted hweave hrolled⟩
  | @kept now p xs keys writes _ hrolled hwrites =>
    obtain ⟨fates, h⟩ := account_kept hweave hrolled hwrites
    cases hp : p.next with
    | some after =>
      simp only [hp] at hy
      cases hy
    | none =>
      simp only [hp] at hy
      cases hy
      exact ⟨_, _, fates, h⟩

/-- A portion after which the sweep goes on. -/
theorem Portion.account_next (hweave : ∀ ps, Program.Weave ps (schedule ps)) {after : Cursor}
    {r' : SweepResult}
    (h : Portion settings schedule started cutoff cursor r xs (.ok (.next after r'))) :
    ∃ days fates, Account r r' xs [days] none fates := by
  generalize hy : (Except.ok (Step.next after r') : Except Overflow Step) = y at h
  cases h with
  | @kept now p xs keys writes _ hrolled hwrites =>
    obtain ⟨fates, h⟩ := account_kept hweave hrolled hwrites
    cases hp : p.next with
    | none =>
      simp only [hp] at hy
      cases hy
    | some after =>
      simp only [hp] at hy
      cases hy
      exact ⟨_, fates, h⟩
  | _ => cases hy

theorem Account.append {r₁ r₂ r₃ : SweepResult} {ys : List (Exchange α)}
    {kept kept' : List (List (DailyView α))} {aborted : Option (List (DailyView α))}
    {fates fates' : List (DailyView α × Fate)} (h : Account r₁ r₂ xs kept none fates)
    (h' : Account r₂ r₃ ys kept' aborted fates') :
    Account r₁ r₃ (xs ++ ys) (kept ++ kept') aborted (fates ++ fates') := by
  obtain ⟨ys₁, zs₁, hxs, hkept, hnone, -⟩ := h.fetched
  obtain ⟨ys₂, zs₂, hys, hkept', haborted, hzs⟩ := h'.fetched
  refine ⟨⟨xs ++ ys₂, zs₂, ?_, ?_, haborted, hzs⟩, ?_, ?_, ?_, ?_, ?_, ?_, ?_,
    modest_append.2 ⟨h.modest, h'.modest⟩⟩
  · rw [hys, List.append_assoc]
  · rw [hxs, List.filterMap_append, List.filterMap_append, hkept, hnone, hkept']
    simp
  · rw [List.map_append, h.days, h'.days, List.flatten_append]
  · intro f hf
    rcases List.mem_append.1 hf with hf | hf
    · exact (h.fated f hf).mono fun x => List.mem_append_left _
    · exact (h'.fated f hf).mono fun x => List.mem_append_right _
  · rw [List.filterMap_append, h.sealed_keys, h'.sealed_keys, sealedKeys, sealedKeys, sealedKeys,
      List.filter_append, List.map_append]
  · rw [h'.processed, h.processed, List.map_append, List.count_append, Nat.add_assoc]
  · rw [h'.skipped, h.skipped, List.map_append, List.count_append, Nat.add_assoc]
  · have hfirst := h.failed
    have hrest := h'.failed
    simp only [Option.getD_none, List.countP_nil, List.map_append, List.count_append] at *
    omega
  · have hrest := h'.stopped
    cases aborted with
    | some days => exact hrest
    | none =>
      rcases hrest with hrest | hrest
      · rw [hrest]
        exact h.stopped
      · exact .inr hrest

/-- Every sweep that comes to a result has an account. -/
theorem Portions.account (hweave : ∀ ps, Program.Weave ps (schedule ps)) {limit : ℕ}
    {r' : SweepResult}
    (h : Portions settings schedule started cutoff limit cursor r xs (.ok r')) :
    ∃ kept aborted fates, Account r r' xs kept aborted fates := by
  generalize hy : (Except.ok r' : Except Overflow SweepResult) = y at h
  induction h with
  | unlimited =>
    cases hy
    exact ⟨[], none, [], account_nil rfl rfl (by simp [Modest]) ⟨rfl, rfl, rfl⟩ (.inl rfl)⟩
  | failed h => cases hy
  | stop h =>
    cases hy
    exact h.account_stop hweave
  | next h _ ih =>
    obtain ⟨days, fates, hfirst⟩ := h.account_next hweave
    obtain ⟨kept, aborted, fates', hrest⟩ := ih hy
    exact ⟨_, aborted, _, hfirst.append hrest⟩

/-! ## Time -/

omit [Quantity α] in
/-- All times that the clock has shown are within the budget. -/
def InTime (settings : SweepSettings) (started : Instant) (xs : List (Exchange α)) : Prop :=
  ∀ time, ⟨.now, time⟩ ∈ xs →
    ∃ now, time = .ok now ∧ now.since started ≤ (settings.timeBudget.nanoseconds : ℤ)

theorem Portion.in_time {y : Except Overflow Step}
    (h : Portion settings schedule started cutoff cursor r xs y) (ht : InTime settings started xs)
    (hr : r.budgetExhausted = false) :
    ∃ step, y = .ok step ∧ step.result.budgetExhausted = false := by
  cases h with
  | noTime =>
    obtain ⟨now, hnow, -⟩ := ht _ List.mem_cons_self
    cases hnow
  | exhausted htime =>
    obtain ⟨now, hnow, hle⟩ := ht _ List.mem_cons_self
    cases hnow
    exact absurd hle (not_le.2 htime)
  | unfetched _ => exact ⟨_, rfl, hr⟩
  | empty _ _ => exact ⟨_, rfl, hr⟩
  | aborted _ _ => exact ⟨_, rfl, hr⟩
  | @kept now p xs keys writes _ _ hwrites =>
    obtain ⟨fates, -, -, -, hcount⟩ := exists_fates hwrites
    refine ⟨_, rfl, ?_⟩
    rw [hcount]
    cases p.next <;> exact hr

/-- A sweep whose clock shows times within the budget comes to a result without exhausting it. -/
theorem Portions.in_time {limit : ℕ} {y : Except Overflow SweepResult}
    (h : Portions settings schedule started cutoff limit cursor r xs y)
    (ht : InTime settings started xs) (hr : r.budgetExhausted = false) :
    ∃ r', y = .ok r' ∧ r'.budgetExhausted = false := by
  induction h with
  | unlimited => exact ⟨_, rfl, hr⟩
  | failed hp =>
    obtain ⟨step, hstep, -⟩ := hp.in_time ht hr
    cases hstep
  | stop hp =>
    obtain ⟨step, hstep, hresult⟩ := hp.in_time ht hr
    cases hstep
    exact ⟨_, rfl, hresult⟩
  | next hp _ ih =>
    obtain ⟨step, hstep, hresult⟩ := hp.in_time
      (fun time htime => ht time (List.mem_append_left _ htime)) hr
    cases hstep
    exact ih (fun time htime => ht time (List.mem_append_right _ htime)) hresult

end Sweep

end WeatherStation
