import WeatherStation.Store.Basic

/-!
# Programs over a store

Everything that works with a store is a program: it asks for one thing at a time and goes on with
the reply. A program says nothing about what happens between its requests, so programs can be
interleaved, and any of their requests can be made to fail.

* `Program.run`: runs a program against something that answers requests.
* `Store.reply`: the answers of a store that never fails.
-/

namespace WeatherStation

/-- One step of a program. -/
inductive Request (α : Type) where
  | get (key : String)
  | write (view : View α) (condition : WriteCondition)
  | page (cutoff : Instant) (size : Nat) (cursor : Option Cursor)
  | readMany (keys : List String)
  /-- The time of the clock. -/
  | now
  /-- A pause, in which others can go on. -/
  | pause (milliseconds : Nat)

/-- The reply to a request. -/
abbrev Request.Reply {α : Type} : Request α → Type
  | .get _ => Except StoreError (Option (View α))
  | .write _ _ => Except StoreError Version
  | .page _ _ _ => Except StoreError (Page α)
  | .readMany _ => Except StoreError (List (View α))
  | .now => Except Overflow Instant
  | .pause _ => Unit

/-- A program with a result of type `β`. -/
inductive Program (α β : Type) where
  | done (result : β)
  | ask (request : Request α) (next : request.Reply → Program α β)

namespace Program

variable {α β γ σ : Type}

/-- Goes on with the result of a program. -/
def bind : Program α β → (β → Program α γ) → Program α γ
  | done x, f => f x
  | ask r next, f => ask r fun reply => (next reply).bind f

instance : Monad (Program α) where
  pure := done
  bind := bind

theorem bind_done (p : Program α β) : p.bind done = p := by
  induction p with
  | done x => rfl
  | ask r next ih => exact congrArg (ask r) (funext ih)

theorem bind_assoc {δ : Type} (p : Program α β) (f : β → Program α γ) (g : γ → Program α δ) :
    (p.bind f).bind g = p.bind fun x => (f x).bind g := by
  induction p with
  | done x => rfl
  | ask r next ih => exact congrArg (ask r) (funext ih)

instance : LawfulMonad (Program α) :=
  LawfulMonad.mk' _ (fun p => bind_done p) (fun _ _ => rfl) (fun p f g => bind_assoc p f g)

/-- The program of a single request. -/
def request (r : Request α) : Program α r.Reply := ask r done

/-- Runs a program; `answer` replies to a request and changes the state. -/
def run (answer : (r : Request α) → σ → r.Reply × σ) : Program α β → σ → β × σ
  | done x, s => (x, s)
  | ask r next, s => run answer (next (answer r s).1) (answer r s).2

end Program

/-- The reply of a store that never fails, at a time that the clock shows. -/
def Store.reply {α : Type} (now : Except Overflow Instant) :
    (r : Request α) → Store α → r.Reply × Store α
  | .get key, s => (.ok (s.get? key), s)
  | .write v condition, s =>
    match s.write v condition with
    | .ok (version, s') => (.ok version, s')
    | .error e => (.error e, s)
  | .page cutoff size cursor, s => (.ok (s.page cutoff size cursor), s)
  | .readMany keys, s => (.ok (s.readMany keys), s)
  | .now, s => (now, s)
  | .pause _, s => ((), s)

/-! ## Programs that can fail -/

/-- A program with failures of type `ε`. -/
abbrev Client (α ε : Type) := ExceptT ε (Program α)

namespace Client

variable {α β ε ε' : Type}

/-- The view under a key. -/
def get (key : String) : Client α StoreError (Option (View α)) :=
  .mk (Program.request (.get key))

/-- The view under a key, which has to be of one kind: `as?` recognises its views. -/
def getAs (kind : ViewKind) (as? : View α → Option β) (key : String) :
    Client α StoreError (Option β) := do
  match ← get key with
  | none => return none
  | some v =>
    match as? v with
    | some x => return some x
    | none => throw (.wrongKind key kind v.kind)

/-- The views under some keys. -/
def readMany (keys : List String) : Client α StoreError (List (View α)) :=
  .mk (Program.request (.readMany keys))

/-- Writes a view and hands the outcome on, whatever it is. -/
def tryWrite (v : View α) (condition : WriteCondition) :
    Client α ε (Except StoreError Version) :=
  ExceptT.lift (Program.request (.write v condition))

/-- Writes a view. -/
def write (v : View α) (condition : WriteCondition) : Client α StoreError Version :=
  .mk (Program.request (.write v condition))

/-- The time of the clock. -/
def now : Client α Overflow Instant := .mk (Program.request .now)

/-- Lets others go on for some milliseconds. -/
def pause (milliseconds : Nat) : Client α ε Unit :=
  ExceptT.lift (Program.request (.pause milliseconds))

/-- A computation without requests. -/
def compute (x : Except ε β) : Client α ε β := .mk (pure x)

end Client

end WeatherStation
