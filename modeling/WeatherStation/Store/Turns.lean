import WeatherStation.Store.Program

/-!
# Programs in time

Only the pauses of a program take time. Programs that run side by side take turns: one of them has
its turn until it pauses, and goes on when its pause is over.

* `Program.timed`: a program that also tells how long it took.
* `Program.runFor`: runs a program for a stretch of time.
* `Program.together`: runs programs side by side.
-/

namespace WeatherStation

/-- How many milliseconds a request takes. -/
def Request.duration {α : Type} : Request α → Nat
  | .pause milliseconds => milliseconds
  | _ => 0

namespace Program

variable {α β σ : Type}

/-- The result of a program, and how long it took on top of `elapsed` milliseconds. -/
def timedFrom : Program α β → Nat → Program α (β × Nat)
  | done x, elapsed => done (x, elapsed)
  | ask r next, elapsed => ask r fun reply => timedFrom (next reply) (elapsed + r.duration)

/-- The result of a program, and how many milliseconds it took. -/
def timed (p : Program α β) : Program α (β × Nat) := p.timedFrom 0

/-- Runs a program for some milliseconds and gives what is left of it. What is due at the very end
    of this time is left, too. -/
def runFor (answer : (r : Request α) → σ → r.Reply × σ) :
    Program α β → Nat → σ → Program α β × σ
  | done x, _, s => (done x, s)
  | ask (.pause d) next, time, s =>
    if d < time then runFor answer (next ()) (time - d) s
    else (ask (.pause (d - time)) next, s)
  | ask r next, time, s => runFor answer (next (answer r s).1) time (answer r s).2

/-! ## Turns -/

/-- How a turn of a program ends. -/
inductive Turn (α β : Type) where
  | finished (result : β)
  /-- The program gives way, although it has nothing to wait for. -/
  | yielded (rest : Program α β)
  | asleep (milliseconds : Nat) (rest : Program α β)

/-- Runs a program for one turn. It goes on through pauses of no length, but only through
    `patience` of them. -/
def turn : Program α β → (patience : Nat) → Program α (Turn α β)
  | done x, _ => done (.finished x)
  | ask (.pause 0) next, 0 => done (.yielded (ask (.pause 0) next))
  | ask (.pause 0) next, patience + 1 => turn (next ()) patience
  | ask (.pause (d + 1)) next, _ => done (.asleep (d + 1) (next ()))
  | ask r next, patience => ask r fun reply => turn (next reply) patience

/-- Through how many pauses of no length a program goes on in one turn. -/
def patience : Nat := 128

/-- Programs that wait for their turns. -/
structure Queue (α β : Type) where
  /-- Those whose turns come next, in order. -/
  ready : List (Program α β)
  /-- Those that gave way, the last one first: the order of their turns after all that are ready. -/
  yielded : List (Program α β)
  /-- Those that pause, by the milliseconds that are left; of equal ones, the first one first. -/
  asleep : List (Nat × Program α β)

namespace Queue

/-- All programs of a queue. -/
def all (q : Queue α β) : List (Program α β) := q.ready ++ q.yielded ++ q.asleep.map (·.2)

/-- Puts a program that pauses behind all that wake up no later. -/
def sleep (milliseconds : Nat) (p : Program α β) (q : Queue α β) : Queue α β :=
  { q with
    asleep := q.asleep.takeWhile (·.1 ≤ milliseconds) ++
      (milliseconds, p) :: q.asleep.dropWhile (·.1 ≤ milliseconds) }

/-- Lets the first pauses run out, if nothing else is to be done: the milliseconds until then, and
    the queue after them. -/
def wake (q : Queue α β) : Nat × Queue α β :=
  match q with
  | ⟨[], [], (d, p) :: rest⟩ =>
    (d, ⟨p :: (rest.takeWhile (·.1 ≤ d)).map (·.2), [],
      (rest.dropWhile (·.1 ≤ d)).map fun e => (e.1 - d, e.2)⟩)
  | ⟨[], yielded, asleep⟩ => (0, ⟨yielded, [], asleep⟩)
  | q => (0, q)

end Queue

/-- Runs programs to their ends, one after the other. -/
def runThrough : List (Program α β) → Program α (List β)
  | [] => done []
  | p :: rest => do
    let x ← p
    return x :: (← runThrough rest)

/-- Gives some turns to the programs of a queue; what is left is then run in order. The results
    come in the order in which the programs finish. -/
def takeTurns : (turns : Nat) → Queue α β → Program α (List β)
  | 0, q => runThrough q.all
  | turns + 1, q => do
    let (time, q) := q.wake
    if time ≠ 0 then request (.pause time)
    match q.ready with
    | [] => return []
    | p :: rest =>
      let q := { q with ready := rest }
      match ← p.turn patience with
      | .finished x => return x :: (← takeTurns turns q)
      | .yielded p => takeTurns turns { q with yielded := p :: q.yielded }
      | .asleep time p => takeTurns turns (q.sleep time p)

/-- Runs programs side by side, with a bound on the number of their turns. -/
def together (turns : Nat) (programs : List (Program α β)) : Program α (List β) :=
  takeTurns turns ⟨programs, [], []⟩

end Program

end WeatherStation
