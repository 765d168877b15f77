import WeatherStation.Ingest
import WeatherStation.Store.Faults
import WeatherStation.Sweep
import WeatherStation.Time.Clock

/-!
# Workers

A worker holds a store and a clock, and answers the requests of programs one at a time. Rules can
make its store fail.

* `Worker.answer`: the answer to one request.
* `Worker.answer_eq_reply`: without faults it is the answer of the store.
* `Worker.run`: a whole program.
* `Worker.sweep`, `Worker.background`: sweeps on demand and in fixed periods.
-/

namespace WeatherStation

/-- A store and a clock, with the faults of the store. -/
structure Worker (α : Type) where
  store : Store α
  clock : Clock
  faults : List (FaultRule α)
  /-- The keys that were written since they were last looked at. -/
  written : SortedSet String
  deriving DecidableEq

namespace Worker

variable {α β : Type}

/-- A worker with an empty store. -/
def start (clock : Clock) : Worker α := ⟨.empty, clock, [], SortedMap.empty⟩

/-- Writes a view without a condition. -/
def put (v : View α) (w : Worker α) : Worker α :=
  { w with store := w.store.put v, written := SortedSet.add w.written v.key }

/-- Lets the rules act on a call: the call is refused, or another writer comes first. -/
def disturb (r : Request α) (w : Worker α) : Option StoreError × Worker α :=
  let (effect, faults) := FaultRule.fire r w.faults
  let w := { w with faults := faults }
  match effect with
  | none => (none, w)
  | some .conflict => (some (.conflict (r.key?.getD "")), w)
  | some .lock => (some .lock, w)
  | some (.storage text) => (some (.storage text), w)
  | some (.race view) =>
    match view.or (r.key?.bind w.store.get?) with
    | some v => (none, w.put v)
    | none => (none, w)

/-- The answer to a request, and the worker after it. -/
def answer : (r : Request α) → Worker α → r.Reply × Worker α
  | .get key, w =>
    match w.disturb (.get key) with
    | (some e, w) => (.error e, w)
    | (none, w) => (.ok (w.store.get? key), w)
  | .write v condition, w =>
    match w.disturb (.write v condition) with
    | (some e, w) => (.error e, w)
    | (none, w) =>
      if w.store.allows v.key condition then (.ok w.store.freshVersion, w.put v)
      else (.error (.conflict v.key), w)
  | .page cutoff size cursor, w =>
    match w.disturb (.page cutoff size cursor) with
    | (some e, w) => (.error e, w)
    | (none, w) => (.ok (w.store.page cutoff size cursor), w)
  | .readMany keys, w =>
    match w.disturb (.readMany keys) with
    | (some e, w) => (.error e, w)
    | (none, w) => (.ok (w.store.readMany keys), w)
  | .now, w => let (t, clock) := w.clock.read; (t, { w with clock := clock })
  | .pause _, w => ((), w)

theorem disturb_eq {r : Request α} {w : Worker α} (h : w.faults = []) :
    w.disturb r = (none, w) := by
  obtain ⟨store, clock, faults, written⟩ := w
  subst h
  rfl

/-- A worker without faults answers as its store does. -/
theorem answer_eq_reply (r : Request α) {w : Worker α} (h : w.faults = []) :
    (answer r w).1 = (w.store.reply w.clock.read.1 r).1 ∧
      (answer r w).2.store = (w.store.reply w.clock.read.1 r).2 := by
  cases r with
  | write v condition =>
    simp only [answer, disturb_eq h, Store.reply, Store.write]
    split <;> exact ⟨rfl, rfl⟩
  | now => exact ⟨rfl, rfl⟩
  | pause _ => exact ⟨rfl, rfl⟩
  | _ => simp [answer, disturb_eq h, Store.reply]

/-- Runs a program. -/
def run (p : Program α β) (w : Worker α) : β × Worker α := p.run answer w

/-- The worker after its writes were looked at. -/
def looked (w : Worker α) : Worker α := { w with written := SortedMap.empty }

/-- More portions than any sweep has: each goes on behind a day that was there, or that another
    writer brought in. -/
def portionLimit (w : Worker α) : Nat :=
  w.store.views.size + (w.faults.map FaultRule.times).foldl (· + ·) 0 + 1

variable [Quantity α]

/-- Runs one sweep. -/
def sweep (settings : SweepSettings) (lookbackHours : UInt32) (w : Worker α) :
    Except Overflow SweepResult × Worker α :=
  w.run (Sweep.execute settings (Rollup.turns settings) w.portionLimit lookbackHours).run

/-- The sweeps in fixed periods of seconds that begin within some milliseconds. -/
def patrol (settings : SweepSettings) (period time : Nat) (w : Worker α) : Program α Unit :=
  if period = 0 then .done ()
  else Sweep.every settings (Rollup.turns settings) w.portionLimit (1000 * period) time
    (1000 * period) 0

/-- Sweeps in fixed periods of seconds while some stretches of seconds pass; gives the keys that
    were written up to the end of each. What is not finished then is given up. -/
def background (settings : SweepSettings) (period : Nat) (stretches : List Nat) (w : Worker α) :
    List (List String) × Worker α :=
  let step (s : List (List String) × Program α Unit × Worker α) (seconds : Nat) :=
    let (rest, w) := s.2.1.runFor answer (1000 * seconds) s.2.2
    (s.1 ++ [w.written.keys], rest, w)
  let time := 1000 * stretches.foldl (· + ·) 0
  let (keys, _, w) := stretches.foldl step ([], w.patrol settings period time, w)
  (keys, w)

end Worker

end WeatherStation
