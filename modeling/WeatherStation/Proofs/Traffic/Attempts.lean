import WeatherStation.Proofs.Traffic.Exchanges

/-!
# Attempts

A view is changed in attempts. It is read, what is made of it is written under the condition that
nobody wrote in between, and after a conflict all of this is done again, from the reading on. The
store may answer whatever it wants.

Results:
* `Attempt`: what was read, and the write with its outcome.
* `Loop`: what is made of a view, how often it is tried, and what becomes of the refusals.
* `Loop.Made`: everything that one attempt can be; `Loop.Made.tries`: what is made of a view, an
  attempt tries to write.
* `Loop.traces_run`: a loop is a row of attempts, of which all but the last met a conflict.
* `Loop.Ran.retried`: how many attempts there are, and what they write.
* `Loop.Ran.written_iff`, `Loop.Ran.settled`, `Loop.Ran.exhausted_iff`: what a loop reports.
-/

namespace WeatherStation

variable {α β ε σ : Type}

/-! ## Replies -/

namespace Client

variable {γ : Type} {xs : List (Exchange α)}

/-- What was read, as a view of one kind. -/
def recognise (kind : ViewKind) (as? : View α → Option β) (key : String) :
    Option (View α) → Except StoreError (Option β)
  | none => .ok none
  | some v =>
    match as? v with
    | some x => .ok (some x)
    | none => .error (.wrongKind key kind v.kind)

theorem traces_getAs {kind : ViewKind} {as? : View α → Option β} {key : String}
    {x : Except StoreError (Option β)} (h : (getAs kind as? key).Traces xs x) :
    ∃ reply : Except StoreError (Option (View α)), xs = [⟨.get key, reply⟩] ∧
      x = reply >>= recognise kind as? key := by
  rcases traces_bind.1 h with ⟨v, xs₁, xs₂, rfl, h₁, h₂⟩ | ⟨e, h₁, rfl⟩
  · obtain rfl := Program.traces_request.1 h₁
    refine ⟨.ok v, ?_⟩
    cases v with
    | none =>
      obtain ⟨rfl, rfl⟩ := traces_pure.1 h₂
      exact ⟨rfl, rfl⟩
    | some v =>
      change _ ∧ x = recognise kind as? key (some v)
      dsimp only [recognise] at h₂ ⊢
      cases hv : as? v with
      | none =>
        rw [hv] at h₂
        obtain ⟨rfl, rfl⟩ := Program.traces_done.1 h₂
        exact ⟨rfl, rfl⟩
      | some stored =>
        rw [hv] at h₂
        obtain ⟨rfl, rfl⟩ := traces_pure.1 h₂
        exact ⟨rfl, rfl⟩
  · obtain rfl := Program.traces_request.1 h₁
    exact ⟨.error e, rfl, rfl⟩

theorem traces_adapt {ε' : Type} {f : ε → ε'} {c : Client α ε β} {x : Except ε' β} :
    Traces (c.adapt f) xs x ↔ ∃ y, c.Traces xs y ∧ x = y.mapError f := by
  have hadapt : (c.adapt f).run = c.run >>= fun y => pure (y.mapError f) := rfl
  rw [Traces, hadapt, Program.traces_bind]
  constructor
  · rintro ⟨y, xs₁, xs₂, rfl, h₁, h₂⟩
    obtain ⟨rfl, rfl⟩ := Program.traces_done.1 h₂
    exact ⟨y, by rwa [List.append_nil], rfl⟩
  · rintro ⟨y, h, rfl⟩
    exact ⟨y, xs, [], by simp, h, .done _⟩

/-- A look at a key, and what comes after it. -/
theorem traces_getAs_bind {kind : ViewKind} {as? : View α → Option β} {key : String}
    {f : StoreError → ε} {c : Option β → Client α ε γ} {x : Except ε γ}
    (h : Traces ((getAs kind as? key).adapt f >>= c) xs x) :
    ∃ (reply : Except StoreError (Option (View α))) (ys : List (Exchange α)),
      xs = ⟨.get key, reply⟩ :: ys ∧
        match reply >>= recognise kind as? key with
        | .error e => ys = [] ∧ x = .error (f e)
        | .ok stored => (c stored).Traces ys x := by
  rcases traces_bind.1 h with ⟨stored, xs₁, xs₂, rfl, h₁, h₂⟩ | ⟨e, h₁, rfl⟩
  · obtain ⟨y, h₁, hy⟩ := traces_adapt.1 h₁
    obtain ⟨reply, rfl, rfl⟩ := traces_getAs h₁
    refine ⟨reply, xs₂, rfl, ?_⟩
    cases hread : reply >>= recognise kind as? key with
    | error e =>
      rw [hread] at hy
      cases hy
    | ok stored' =>
      rw [hread] at hy
      cases hy
      exact h₂
  · obtain ⟨y, h₁, hy⟩ := traces_adapt.1 h₁
    obtain ⟨reply, rfl, rfl⟩ := traces_getAs h₁
    refine ⟨reply, [], rfl, ?_⟩
    cases hread : reply >>= recognise kind as? key with
    | error e' =>
      rw [hread] at hy
      cases hy
      exact ⟨rfl, rfl⟩
    | ok stored' =>
      rw [hread] at hy
      cases hy

end Client

/-- The replies of a run come from whatever answered. -/
theorem Program.replies_of_run (answer : (r : Request α) → σ → r.Reply × σ) (p : Program α β)
    (s : σ) : ∀ e ∈ (p.traced.run answer s).1.2, ∃ s', e.reply = (answer e.request s').1 := by
  have hfrom (p : Program α β) (seen : List (Exchange α)) (s : σ)
      (hseen : ∀ e ∈ seen, ∃ s', e.reply = (answer e.request s').1) :
      ∀ e ∈ ((p.tracedFrom seen).run answer s).1.2, ∃ s', e.reply = (answer e.request s').1 := by
    induction p generalizing seen s with
    | done x => exact hseen
    | ask r next ih =>
      refine ih _ _ _ ?_
      exact List.forall_mem_append.2 ⟨hseen, List.forall_mem_singleton.2 ⟨s, rfl⟩⟩
  exact hfrom p [] s (by simp)

/-! ## Attempts -/

/-- One attempt to change a view: what was read, and the write with its outcome, if there was
    one. -/
structure Attempt (α : Type) where
  read : Except StoreError (Option (View α))
  write : Option (View α × WriteCondition × Except StoreError Version)

namespace Attempt

/-- The exchanges of an attempt to change the view under a key. -/
def exchanges (key : String) (a : Attempt α) : List (Exchange α) :=
  ⟨.get key, a.read⟩ :: (a.write.map fun w => ⟨.write w.1 w.2.1, w.2.2⟩).toList

/-- The view was written. -/
def Wrote (a : Attempt α) : Prop := ∃ v c version, a.write = some (v, c, .ok version)

/-- The write met a conflict. -/
def Lost (a : Attempt α) : Prop := ∃ v c key, a.write = some (v, c, .error (.conflict key))

end Attempt

/-- Attempts in a row, at most `most` of them. Each of them writes what is made of the view that it
    has read, if something is made of it, and nothing else, under the condition that this view is
    still there. It is tried again after a conflict, as long as attempts are left, and only then. -/
structure Retried (Makes : Option (View α) → View α → Prop) (most : ℕ)
    (attempts : List (Attempt α)) : Prop where
  nonempty : attempts ≠ []
  length_le : attempts.length ≤ most
  writes : ∀ a ∈ attempts, ∀ v c reply, a.write = some (v, c, reply) →
    ∃ stored, a.read = .ok stored ∧ Makes stored v ∧ c = .expecting (stored.bind View.version)
  tries : ∀ a ∈ attempts, ∀ stored v, a.read = .ok stored → Makes stored v →
    ∃ reply, a.write = some (v, .expecting (stored.bind View.version), reply)
  lost : ∀ a ∈ attempts.dropLast, a.Lost
  ended : attempts.length < most → ∀ a ∈ attempts.getLast?, ¬ a.Lost

theorem Retried.congr {Makes Makes' : Option (View α) → View α → Prop} {most : ℕ}
    {attempts : List (Attempt α)} (h : Retried Makes most attempts)
    (hmakes : ∀ stored v, Makes stored v ↔ Makes' stored v) : Retried Makes' most attempts := by
  have hsame : Makes = Makes' := funext₂ fun stored v => propext (hmakes stored v)
  rwa [← hsame]

/-- The last attempt met a conflict iff all attempts were made and met one. -/
theorem Retried.lost_iff {Makes : Option (View α) → View α → Prop} {most : ℕ}
    {attempts : List (Attempt α)} (h : Retried Makes most attempts) :
    (∃ a ∈ attempts.getLast?, a.Lost) ↔ attempts.length = most ∧ ∀ a ∈ attempts, a.Lost := by
  have hlast := List.getLast?_eq_getLast_of_ne_nil h.nonempty
  constructor
  · rintro ⟨a, ha, hl⟩
    have hlength : ¬ attempts.length < most := fun hlt => h.ended hlt a ha hl
    refine ⟨le_antisymm h.length_le (not_lt.1 hlength), ?_⟩
    rw [← List.dropLast_append_getLast? a ha]
    exact List.forall_mem_append.2 ⟨h.lost, List.forall_mem_singleton.2 hl⟩
  · rintro ⟨-, hall⟩
    exact ⟨_, hlast, hall _ (List.getLast_mem h.nonempty)⟩

/-- How a view is changed in attempts. -/
structure Loop (α ε β : Type) where
  key : String
  /-- What is made of the view that was read: a result at once, or a view to write. -/
  plan : Option (View α) → Except ε (β ⊕ View α)
  /-- The result after a write. -/
  written : β
  /-- The pause between attempts. -/
  pause : Option ℕ
  /-- The refusal of the store, as a failure of the loop. -/
  failure : StoreError → ε
  /-- The conflict of the last attempt, as a failure of the loop. -/
  exhausted : StoreError → ε

namespace Loop

/-- The pause between attempts. -/
def wait (l : Loop α ε β) : Client α ε Unit :=
  match l.pause with
  | none => pure ()
  | some d => Client.pause d

/-- Makes an attempt, and after conflicts at most `retries` more of them. An attempt hands on the
    refusal of its write. -/
def run (l : Loop α ε β) (attempt : Client α ε (Except StoreError β)) :
    (retries : ℕ) → Client α ε β
  | 0 => do
    match ← attempt with
    | .ok x => return x
    | .error e => throw (if e.isConflict then l.exhausted e else l.failure e)
  | retries + 1 => do
    match ← attempt with
    | .ok x => return x
    | .error e =>
      if e.isConflict then do
        l.wait
        run l attempt retries
      else throw (l.failure e)

/-! ## Traces -/

variable {l : Loop α ε β} {xs : List (Exchange α)} {n : ℕ} {as : List (Attempt α)}

/-- What an attempt comes to: a failure, a refusal of its write, or a result. -/
inductive Made (l : Loop α ε β) : Attempt α → Except ε (Except StoreError β) → Prop
  | unread (e : StoreError) : Made l ⟨.error e, none⟩ (.error (l.failure e))
  | failed {stored : Option (View α)} {e : ε} : l.plan stored = .error e →
      Made l ⟨.ok stored, none⟩ (.error e)
  | settled {stored : Option (View α)} {x : β} : l.plan stored = .ok (.inl x) →
      Made l ⟨.ok stored, none⟩ (.ok (.ok x))
  | tried {stored : Option (View α)} {v : View α} (reply : Except StoreError Version) :
      l.plan stored = .ok (.inr v) →
      Made l ⟨.ok stored, some (v, .expecting (stored.bind View.version), reply)⟩
        (.ok (reply.map fun _ => l.written))

/-- Everything that a client does is an attempt of the loop. -/
def Attempts (l : Loop α ε β) (attempt : Client α ε (Except StoreError β)) : Prop :=
  ∀ xs x, attempt.Traces xs x → ∃ a, xs = a.exchanges l.key ∧ l.Made a x

/-- Attempts that read views of one kind. -/
theorem attempts_getAs_bind {γ : Type} {kind : ViewKind} {as? : View α → Option γ}
    {c : Option γ → Client α ε (Except StoreError β)} {planned : Option γ → Except ε (β ⊕ View α)}
    (hplan : ∀ v, l.plan v =
      (Client.recognise kind as? l.key v).mapError l.failure >>= planned)
    (hc : ∀ v stored, Client.recognise kind as? l.key v = .ok stored →
      l.plan v = planned stored → ∀ ys x, (c stored).Traces ys x →
        ∃ a, ⟨.get l.key, .ok v⟩ :: ys = a.exchanges l.key ∧ l.Made a x) :
    l.Attempts ((Client.getAs kind as? l.key).adapt l.failure >>= c) := by
  intro xs x htraces
  obtain ⟨reply, ys, rfl, h⟩ := Client.traces_getAs_bind htraces
  clear htraces
  cases reply with
  | error e =>
    obtain ⟨rfl, rfl⟩ := h
    exact ⟨⟨.error e, none⟩, rfl, .unread e⟩
  | ok v =>
    change match Client.recognise kind as? l.key v with
      | .error e => _
      | .ok stored => _ at h
    have hplan := hplan v
    cases hread : Client.recognise kind as? l.key v with
    | error e =>
      rw [hread] at h hplan
      obtain ⟨rfl, rfl⟩ := h
      exact ⟨⟨.ok v, none⟩, rfl, .failed hplan⟩
    | ok stored =>
      rw [hread] at h hplan
      exact hc v stored hread hplan ys x h

/-- The exchanges between two attempts. -/
def between (l : Loop α ε β) : List (Exchange α) := (l.pause.map fun d => ⟨.pause d, ()⟩).toList

theorem traces_wait_bind {f : Unit → Client α ε β} {x : Except ε β} :
    Client.Traces (l.wait >>= f) xs x ↔ ∃ ys, xs = l.between ++ ys ∧ (f ()).Traces ys x := by
  rw [wait, between]
  cases l.pause with
  | none =>
    change (f ()).Traces xs x ↔ _
    simp
  | some d =>
    change Client.Traces (ExceptT.lift (Program.request (.pause d)) >>= f) xs x ↔ _
    rw [Client.traces_lift_bind]
    constructor
    · rintro ⟨reply, xs₁, ys, rfl, h₁, h⟩
      obtain rfl := Program.traces_request.1 h₁
      exact ⟨ys, rfl, h⟩
    · rintro ⟨ys, rfl, h⟩
      exact ⟨(), _, ys, rfl, Program.traces_request.2 rfl, h⟩

/-- The attempts of a loop that may try `n` times again, and its result. -/
inductive Ran (l : Loop α ε β) : ℕ → List (Attempt α) → Except ε β → Prop
  | failed {n : ℕ} {a : Attempt α} {e : ε} : l.Made a (.error e) → Ran l n [a] (.error e)
  | done {n : ℕ} {a : Attempt α} {x : β} : l.Made a (.ok (.ok x)) → Ran l n [a] (.ok x)
  | refused {n : ℕ} {a : Attempt α} {e : StoreError} : l.Made a (.ok (.error e)) →
      e.isConflict = false → Ran l n [a] (.error (l.failure e))
  | exhausted {a : Attempt α} {key : String} : l.Made a (.ok (.error (.conflict key))) →
      Ran l 0 [a] (.error (l.exhausted (.conflict key)))
  | again {n : ℕ} {a : Attempt α} {key : String} {as : List (Attempt α)} {x : Except ε β} :
      l.Made a (.ok (.error (.conflict key))) → Ran l n as x → Ran l (n + 1) (a :: as) x

theorem Ran.ne_nil {x : Except ε β} (h : l.Ran n as x) : as ≠ [] := by
  cases h <;> exact List.cons_ne_nil _ _

/-- An attempt, and what comes after it unless it fails. -/
theorem Attempts.traces_bind {attempt : Client α ε (Except StoreError β)}
    (hattempt : l.Attempts attempt) {f : Except StoreError β → Client α ε β} {x : Except ε β}
    (h : Client.Traces (attempt >>= f) xs x) :
    ∃ a, (∃ e, xs = a.exchanges l.key ∧ l.Made a (.error e) ∧ x = .error e) ∨
      ∃ y ys, xs = a.exchanges l.key ++ ys ∧ l.Made a (.ok y) ∧ (f y).Traces ys x := by
  rcases Client.traces_bind.1 h with ⟨y, xs₁, ys, rfl, h₁, h₂⟩ | ⟨e, h₁, rfl⟩
  · obtain ⟨a, rfl, ha⟩ := hattempt _ _ h₁
    exact ⟨a, .inr ⟨y, ys, rfl, ha, h₂⟩⟩
  · obtain ⟨a, rfl, ha⟩ := hattempt _ _ h₁
    exact ⟨a, .inl ⟨e, rfl, ha, rfl⟩⟩

/-- A loop is a row of attempts, with pauses in between. -/
theorem traces_run {attempt : Client α ε (Except StoreError β)} (hattempt : l.Attempts attempt)
    {x : Except ε β} (h : (l.run attempt n).Traces xs x) :
    ∃ as, xs = l.between.intercalate (as.map (Attempt.exchanges l.key)) ∧ l.Ran n as x := by
  induction n generalizing xs with
  | zero =>
    rw [run] at h
    obtain ⟨a, ⟨e, rfl, ha, rfl⟩ | ⟨y, ys, rfl, ha, h⟩⟩ := hattempt.traces_bind h
    · exact ⟨[a], by simp, .failed ha⟩
    cases y with
    | ok y =>
      obtain ⟨rfl, rfl⟩ := Client.traces_pure.1 h
      exact ⟨[a], by simp, .done ha⟩
    | error e =>
      obtain ⟨rfl, rfl⟩ := Program.traces_done.1 h
      refine ⟨[a], by simp, ?_⟩
      cases e with
      | conflict key => exact .exhausted ha
      | _ => exact .refused ha rfl
  | succ n ih =>
    rw [run] at h
    obtain ⟨a, ⟨e, rfl, ha, rfl⟩ | ⟨y, ys, rfl, ha, h⟩⟩ := hattempt.traces_bind h
    · exact ⟨[a], by simp, .failed ha⟩
    cases y with
    | ok y =>
      obtain ⟨rfl, rfl⟩ := Client.traces_pure.1 h
      exact ⟨[a], by simp, .done ha⟩
    | error e =>
      cases e with
      | conflict key =>
        obtain ⟨ys, rfl, hrest⟩ := traces_wait_bind.1 h
        obtain ⟨as, rfl, has⟩ := ih hrest
        refine ⟨a :: as, ?_, .again ha has⟩
        obtain ⟨b, bs, rfl⟩ := List.exists_cons_of_ne_nil has.ne_nil
        simp [List.intercalate_cons_cons]
      | _ =>
        obtain ⟨rfl, rfl⟩ := Program.traces_done.1 h
        exact ⟨[a], by simp, .refused ha rfl⟩

/-- Every row has its exchanges among those of all rows. -/
theorem mem_intercalate {sep : List (Exchange α)} {rows : List (List (Exchange α))}
    {row : List (Exchange α)} (hrow : row ∈ rows) {e : Exchange α} (he : e ∈ row) :
    e ∈ sep.intercalate rows := by
  induction rows with
  | nil => cases hrow
  | cons first rows ih =>
    cases rows with
    | nil => simpa [List.mem_singleton.1 hrow] using he
    | cons second rows =>
      rw [List.intercalate_cons_cons, List.append_assoc]
      rcases List.mem_cons.1 hrow with rfl | hrow
      · exact List.mem_append_left _ he
      · exact List.mem_append_right _ (List.mem_append_right _ (ih hrow))

/-- Without pauses the attempts follow each other. -/
theorem intercalate_nil (rows : List (List (Exchange α))) : [].intercalate rows = rows.flatten := by
  induction rows with
  | nil => rfl
  | cons first rows ih =>
    cases rows with
    | nil => simp
    | cons second rows =>
      rw [List.intercalate_cons_cons, ih, List.append_nil, List.flatten_cons (l := first)]

/-! ## What a loop reports -/

/-- What the loop makes of a view, if it writes one. -/
def Makes (l : Loop α ε β) (stored : Option (View α)) (v : View α) : Prop :=
  l.plan stored = .ok (.inr v)

theorem Made.lost_iff {a : Attempt α} {y : Except ε (Except StoreError β)} (h : l.Made a y) :
    a.Lost ↔ ∃ key, y = .ok (.error (.conflict key)) := by
  cases h with
  | tried reply hplan =>
    cases reply with
    | ok version => simp [Attempt.Lost, Except.map]
    | error e => simp [Attempt.Lost, Except.map]
  | _ => simp [Attempt.Lost]

theorem Made.lost {a : Attempt α} {key : String}
    (h : l.Made a (.ok (.error (.conflict key)))) : a.Lost := h.lost_iff.2 ⟨key, rfl⟩

theorem Made.writes {a : Attempt α} {y : Except ε (Except StoreError β)} (h : l.Made a y)
    {v : View α} {c : WriteCondition} {reply : Except StoreError Version}
    (hw : a.write = some (v, c, reply)) : ∃ stored, a.read = .ok stored ∧ l.Makes stored v ∧
      c = .expecting (stored.bind View.version) := by
  cases h with
  | @tried stored _ _ hplan =>
    cases hw
    exact ⟨stored, rfl, hplan, rfl⟩
  | _ => cases hw

/-- What is made of a view is tried. -/
theorem Made.tries {a : Attempt α} {y : Except ε (Except StoreError β)} (h : l.Made a y)
    {stored : Option (View α)} {v : View α} (hread : a.read = .ok stored)
    (hmakes : l.Makes stored v) :
    ∃ reply, a.write = some (v, .expecting (stored.bind View.version), reply) := by
  rw [Makes] at hmakes
  cases h with
  | unread e => cases hread
  | failed he =>
    cases hread
    rw [he] at hmakes
    cases hmakes
  | settled hx =>
    cases hread
    rw [hx] at hmakes
    cases hmakes
  | tried reply hv =>
    cases hread
    rw [hv] at hmakes
    cases hmakes
    exact ⟨reply, rfl⟩

/-- An attempt that is not lost, or the last one that is left. -/
theorem Made.retried {a : Attempt α} {y : Except ε (Except StoreError β)} (h : l.Made a y)
    (hended : 0 < n → ¬ a.Lost) : Retried l.Makes (n + 1) [a] where
  nonempty := List.cons_ne_nil a []
  length_le := Nat.le_add_left 1 n
  writes := List.forall_mem_singleton.2 fun _ _ _ => h.writes
  tries := List.forall_mem_singleton.2 fun _ _ => h.tries
  lost := by simp
  ended hlt := by simpa using hended (by simpa using hlt)

/-- How often a loop tries, and what it writes. -/
theorem Ran.retried {x : Except ε β} (h : l.Ran n as x) : Retried l.Makes (n + 1) as := by
  induction h with
  | failed ha => exact ha.retried fun _ hl => by simpa using ha.lost_iff.1 hl
  | done ha => exact ha.retried fun _ hl => by simpa using ha.lost_iff.1 hl
  | refused ha he =>
    refine ha.retried fun _ hl => ?_
    obtain ⟨key, hkey⟩ := ha.lost_iff.1 hl
    cases hkey
    cases he
  | exhausted ha => exact ha.retried fun h => absurd h (lt_irrefl 0)
  | @again n a key as x ha has ih =>
    have hdrop : (a :: as).dropLast = a :: as.dropLast := List.dropLast_cons_of_ne_nil has.ne_nil
    have hlast : (a :: as).getLast? = as.getLast? := by
      obtain ⟨b, bs, rfl⟩ := List.exists_cons_of_ne_nil has.ne_nil
      exact List.getLast?_cons_cons
    refine ⟨List.cons_ne_nil a as, Nat.succ_le_succ ih.length_le, ?_, ?_, ?_, ?_⟩
    · exact List.forall_mem_cons.2 ⟨fun _ _ _ => ha.writes, ih.writes⟩
    · exact List.forall_mem_cons.2 ⟨fun _ _ => ha.tries, ih.tries⟩
    · rw [hdrop]
      exact List.forall_mem_cons.2 ⟨ha.lost, ih.lost⟩
    · rw [hlast]
      exact fun hlt => ih.ended (Nat.lt_of_succ_lt_succ hlt)

/-- What the loop reports after its last attempt. -/
def conclude (l : Loop α ε β) : Except ε (Except StoreError β) → Except ε β
  | .error e => .error e
  | .ok (.ok x) => .ok x
  | .ok (.error e) => .error (if e.isConflict then l.exhausted e else l.failure e)

/-- The last attempt decides. -/
theorem Ran.last {x : Except ε β} (h : l.Ran n as x) :
    ∃ a y, as.getLast? = some a ∧ l.Made a y ∧ x = l.conclude y := by
  induction h with
  | failed ha => exact ⟨_, _, rfl, ha, rfl⟩
  | done ha => exact ⟨_, _, rfl, ha, rfl⟩
  | refused ha he => exact ⟨_, _, rfl, ha, by rw [conclude, he]; rfl⟩
  | exhausted ha => exact ⟨_, _, rfl, ha, rfl⟩
  | again ha has ih =>
    obtain ⟨b, y, hb, hy, hx⟩ := ih
    obtain ⟨c, cs, rfl⟩ := List.exists_cons_of_ne_nil has.ne_nil
    exact ⟨b, y, List.getLast?_cons_cons.trans hb, hy, hx⟩

/-- A loop reports a write iff its last attempt wrote. -/
theorem Ran.written_iff {x : Except ε β} (h : l.Ran n as x)
    (hplan : ∀ stored, l.plan stored ≠ .ok (.inl l.written)) :
    x = .ok l.written ↔ ∃ a ∈ as.getLast?, a.Wrote := by
  obtain ⟨a, y, ha, hy, rfl⟩ := h.last
  simp only [ha, Option.mem_some_iff, exists_eq_left', Attempt.Wrote]
  cases hy with
  | unread e => simp [conclude]
  | failed he => simp [conclude]
  | @settled stored z hz =>
    have hne : z ≠ l.written := fun hzw => hplan stored (hzw ▸ hz)
    simp [conclude, hne]
  | tried reply hv => cases reply <;> simp [conclude, Except.map]

/-- Where nothing is settled without a write, there is no other result. -/
theorem Ran.eq_written {x : Except ε β} (h : l.Ran n as x)
    (hplan : ∀ stored z, l.plan stored ≠ .ok (.inl z)) {z : β} (hz : x = .ok z) :
    z = l.written := by
  obtain ⟨a, y, -, hy, rfl⟩ := h.last
  cases hy with
  | unread e => cases hz
  | failed he => cases hz
  | @settled stored z' hz' => exact absurd hz' (hplan stored z')
  | tried reply hv =>
    cases reply with
    | ok version => exact (Except.ok.inj hz).symm
    | error e => cases hz

/-- A view that settles the matter at once ends the loop without a write. -/
theorem Ran.settled {x : Except ε β} (h : l.Ran n as x) {a : Attempt α} (ha : a ∈ as)
    {stored : Option (View α)} (hread : a.read = .ok stored) {z : β}
    (hplan : l.plan stored = .ok (.inl z)) : a.write = none ∧ x = .ok z := by
  have hmade {a : Attempt α} {y : Except ε (Except StoreError β)} (hy : l.Made a y)
      (hread : a.read = .ok stored) : a.write = none ∧ y = .ok (.ok z) := by
    cases hy with
    | unread e => cases hread
    | _ =>
      cases hread
      simp_all
  have hsingle {a b : Attempt α} {y : Except ε (Except StoreError β)} (hy : l.Made b y)
      (ha : a ∈ [b]) (hread : a.read = .ok stored) : a.write = none ∧ y = .ok (.ok z) := by
    obtain rfl := List.mem_singleton.1 ha
    exact hmade hy hread
  induction h with
  | failed hy => simpa using hsingle hy ha hread
  | done hy => simpa using hsingle hy ha hread
  | refused hy he => simpa using hsingle hy ha hread
  | exhausted hy => simpa using hsingle hy ha hread
  | again hy has ih =>
    rcases List.mem_cons.1 ha with rfl | ha
    · simpa using hmade hy hread
    · exact ih ha

/-- A loop reports that its attempts are used up iff all of them were made and met a conflict.
    `Exhausted` are the failures that say so. -/
theorem Ran.exhausted_iff {x : Except ε β} (h : l.Ran n as x) (Exhausted : ε → Prop)
    (hread : ∀ key, ⟨.get l.key, .error (.conflict key)⟩ ∉
      l.between.intercalate (as.map (Attempt.exchanges l.key)))
    (hplan : ∀ stored e, l.plan stored = .error e → ¬ Exhausted e)
    (hfailure : ∀ e, Exhausted (l.failure e) → e.isConflict = true)
    (hexhausted : ∀ key, Exhausted (l.exhausted (.conflict key))) :
    (∃ e, x = .error e ∧ Exhausted e) ↔ as.length = n + 1 ∧ ∀ a ∈ as, a.Lost := by
  rw [← h.retried.lost_iff]
  obtain ⟨a, y, ha, hy, rfl⟩ := h.last
  have hread (key : String) : a.read ≠ .error (.conflict key) := fun hconflict => by
    have hmem : ⟨.get l.key, a.read⟩ ∈ a.exchanges l.key := List.mem_cons_self
    rw [hconflict] at hmem
    exact hread key (mem_intercalate (List.mem_map_of_mem (List.mem_of_getLast? ha)) hmem)
  have hfailed (e : StoreError) (he : e.isConflict = false) : ¬ Exhausted (l.failure e) :=
    fun h => by simp [hfailure e h] at he
  simp only [ha, Option.mem_some_iff, exists_eq_left', hy.lost_iff]
  cases hy with
  | unread e =>
    have he : e.isConflict = false := by
      cases e with
      | conflict key => exact absurd rfl (hread key)
      | _ => rfl
    simp [conclude, hfailed e he]
  | @failed stored e he => simp [conclude, hplan stored e he]
  | settled hz => simp [conclude]
  | tried reply hv =>
    cases reply with
    | ok version => simp [conclude, Except.map]
    | error e =>
      cases e with
      | conflict key =>
        have hconflict : (StoreError.conflict key).isConflict = true := rfl
        simp [conclude, Except.map, hconflict, hexhausted key]
      | _ => simpa [conclude, Except.map, StoreError.isConflict] using hfailed _ rfl

end Loop

end WeatherStation
