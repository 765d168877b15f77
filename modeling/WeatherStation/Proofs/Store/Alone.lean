import Mathlib.Tactic
import WeatherStation.Store.Program

/-!
# A store to oneself

What a client does on a store that answers every request and that nobody else uses.

Results:
* `Client.alone_bind`: one step after the other.
* `Client.alone_write`, `Client.alone_tryWrite`, `Client.alone_getAs`: writes and looks.
* `Client.nextVersion_le`: versions only count up.
* `Program.Yields`, `Client.FailsWith`: what holds of every result and of every failure, whatever
  the replies are.
-/

namespace WeatherStation

variable {α β γ σ ε ε' : Type}

namespace Program

theorem run_bind (answer : (r : Request α) → σ → r.Reply × σ) (p : Program α β)
    (f : β → Program α γ) (s : σ) :
    (p >>= f).run answer s = (f (p.run answer s).1).run answer (p.run answer s).2 := by
  change (p.bind f).run answer s = _
  induction p generalizing s with
  | done x => rfl
  | ask r next ih => exact ih (answer r s).1 (answer r s).2

theorem run_pure (answer : (r : Request α) → σ → r.Reply × σ) (x : β) (s : σ) :
    (pure x : Program α β).run answer s = (x, s) := rfl

/-- Every result of the program satisfies `post`, whatever the replies are. -/
def Yields (post : β → Prop) : Program α β → Prop
  | done x => post x
  | ask _ next => ∀ reply, Yields post (next reply)

theorem Yields.bind {post : γ → Prop} {pre : β → Prop} {p : Program α β} {f : β → Program α γ}
    (hp : p.Yields pre) (hf : ∀ x, pre x → (f x).Yields post) : (p >>= f).Yields post := by
  change (p.bind f).Yields post
  induction p with
  | done x => exact hf x hp
  | ask r next ih => exact fun reply => ih reply (hp reply)

theorem Yields.mono {post post' : β → Prop} {p : Program α β} (hp : p.Yields post)
    (h : ∀ x, post x → post' x) : p.Yields post' := by
  induction p with
  | done x => exact h x hp
  | ask r next ih => exact fun reply => ih reply (hp reply)

theorem yields_true (p : Program α β) : p.Yields fun _ => True := by
  induction p with
  | done x => trivial
  | ask r next ih => exact ih

theorem Yields.run {post : β → Prop} {p : Program α β} (hp : p.Yields post)
    (answer : (r : Request α) → σ → r.Reply × σ) (s : σ) : post (p.run answer s).1 := by
  induction p generalizing s with
  | done x => exact hp
  | ask r next ih => exact ih (answer r s).1 (hp _) (answer r s).2

end Program

theorem Store.nextVersion_reply (now : Except Overflow Instant) (r : Request α) (s : Store α) :
    s.nextVersion ≤ (s.reply now r).2.nextVersion := by
  cases r with
  | write v condition =>
    simp only [Store.reply, Store.write]
    split_ifs
    · exact Nat.le_succ _
    · exact le_rfl
  | _ => exact le_rfl

namespace Client

variable (now : Except Overflow Instant)

/-- The outcome of a client on a store that nobody else uses, and the store after it. -/
def alone (c : Client α ε β) (s : Store α) : Except ε β × Store α :=
  Program.run (Store.reply now) c.run s

theorem alone_bind (c : Client α ε β) (f : β → Client α ε γ) (s : Store α) :
    (c >>= f).alone now s =
      match c.alone now s with
      | (.ok x, s') => (f x).alone now s'
      | (.error e, s') => (.error e, s') := by
  simp only [alone, ExceptT.run_bind, Program.run_bind]
  cases Program.run (Store.reply now) c.run s with
  | mk result s' => cases result <;> rfl

@[simp] theorem alone_compute (x : Except ε β) (s : Store α) :
    (compute x : Client α ε β).alone now s = (x, s) := rfl

theorem alone_adapt (f : ε → ε') (c : Client α ε β) (s : Store α) :
    alone now (c.adapt f) s = ((c.alone now s).1.mapError f, (c.alone now s).2) := by
  have : (c.adapt f).run = c.run >>= fun x => pure (x.mapError f) := rfl
  simp only [alone, this, Program.run_bind, Program.run_pure]

theorem alone_write (v : View α) (condition : WriteCondition) (s : Store α) :
    (write v condition).alone now s =
      if s.allows v.key condition then (.ok s.freshVersion, s.put v)
      else (.error (.conflict v.key), s) := by
  simp only [write, alone, Program.run, Program.request, ExceptT.run_mk, Store.reply, Store.write]
  split_ifs <;> rfl

theorem alone_tryWrite (v : View α) (condition : WriteCondition) (s : Store α) :
    (tryWrite v condition : Client α ε _).alone now s =
      if s.allows v.key condition then (.ok (.ok s.freshVersion), s.put v)
      else (.ok (.error (.conflict v.key)), s) := by
  have : (tryWrite v condition : Client α ε _).run =
      Program.request (.write v condition) >>= fun x => pure (.ok x) := rfl
  simp only [alone, this, Program.run_bind, Program.run_pure, Program.run, Program.request,
    Store.reply, Store.write]
  split_ifs <;> rfl

/-- What a look at a key of a store gives, for views of one kind. -/
def look (s : Store α) (kind : ViewKind) (as? : View α → Option β) (key : String) :
    Except StoreError (Option β) :=
  match s.get? key with
  | none => .ok none
  | some v =>
    match as? v with
    | some x => .ok (some x)
    | none => .error (.wrongKind key kind v.kind)

theorem alone_getAs (kind : ViewKind) (as? : View α → Option β) (key : String) (s : Store α) :
    (getAs kind as? key).alone now s = (look s kind as? key, s) := by
  have hget : (get key : Client α StoreError _).alone now s = (.ok (s.get? key), s) := rfl
  rw [getAs, alone_bind, hget, look]
  cases s.get? key with
  | none => rfl
  | some v =>
    dsimp only
    cases as? v <;> rfl

/-! ## Failures -/

/-- Every failure of the client satisfies `p`, whatever the replies are. -/
def FailsWith (p : ε → Prop) (c : Client α ε β) : Prop :=
  c.run.Yields fun x => ∀ e, x = .error e → p e

theorem FailsWith.bind {p : ε → Prop} {c : Client α ε β} {f : β → Client α ε γ}
    (hc : c.FailsWith p) (hf : ∀ x, (f x).FailsWith p) : FailsWith p (c >>= f) := by
  rw [FailsWith, ExceptT.run_bind]
  refine Program.Yields.bind hc fun x hx => ?_
  cases x with
  | ok x => exact hf x
  | error e =>
    intro e' h
    cases h
    exact hx e rfl

theorem failsWith_compute {p : ε → Prop} {x : Except ε β} (h : ∀ e, x = .error e → p e) :
    FailsWith p (compute x : Client α ε β) := h

theorem failsWith_pure {p : ε → Prop} (x : β) : FailsWith p (pure x : Client α ε β) :=
  fun e h => by cases h

theorem failsWith_throw {p : ε → Prop} {e : ε} (h : p e) : FailsWith p (throw e : Client α ε β) :=
  fun e' he => by
    cases he
    exact h

theorem failsWith_true (c : Client α ε β) : c.FailsWith fun _ => True :=
  c.run.yields_true.mono fun _ _ _ _ => trivial

theorem FailsWith.adapt {p : ε' → Prop} {f : ε → ε'} {c : Client α ε β}
    (hc : c.FailsWith fun e => p (f e)) : FailsWith p (c.adapt f) := by
  have : (c.adapt f).run = c.run >>= fun x => pure (x.mapError f) := rfl
  rw [FailsWith, this]
  refine Program.Yields.bind hc fun x hx e h => ?_
  cases x with
  | ok x => cases h
  | error e' =>
    cases h
    exact hx e' rfl

theorem failsWith_tryWrite {p : ε → Prop} (v : View α) (condition : WriteCondition) :
    FailsWith p (tryWrite v condition : Client α ε _) := fun _ _ h => by cases h

theorem FailsWith.alone {p : ε → Prop} {c : Client α ε β} (hc : c.FailsWith p) {s : Store α} {e : ε}
    (h : (c.alone now s).1 = .error e) : p e :=
  Program.Yields.run hc (Store.reply now) s e h

theorem nextVersion_le (c : Client α ε β) (s : Store α) :
    s.nextVersion ≤ (c.alone now s).2.nextVersion := by
  unfold alone
  generalize c.run = p
  induction p generalizing s with
  | done x => exact le_rfl
  | ask r next ih => exact (Store.nextVersion_reply now r s).trans (ih _ _)

end Client

end WeatherStation
