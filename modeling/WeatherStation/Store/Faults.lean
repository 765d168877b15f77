import WeatherStation.Store.Program

/-!
# Store faults

Rules that make calls of a store fail, or let another writer come in just before a call. A rule
skips some of the calls that it fits and then fires for some of them.

* `FaultRule.fits`: the calls that a rule is about.
* `FaultRule.fire`: the first rule that fires for a call.
-/

namespace WeatherStation

/-- The calls of a store. -/
inductive StoreCall where
  | get
  | write
  | page
  | readMany
  deriving DecidableEq

/-- What happens to a call when a rule fires. -/
inductive FaultEffect (α : Type) where
  /-- The call is refused as a conflict on its key. -/
  | conflict
  | lock
  | storage (text : String)
  /-- Another writer writes a view first: the given one, or the one that is stored. -/
  | race (view : Option (View α))
  deriving DecidableEq

/-- A rule about calls. Filters that are absent hold for every call. -/
structure FaultRule (α : Type) where
  call : StoreCall
  key : Option String
  kind : Option ViewKind
  /-- Whether the written view is a sealed day. -/
  isSealed : Option Bool
  /-- Whether the write has a condition. -/
  conditional : Option Bool
  /-- How many fitting calls pass before the rule fires. -/
  skip : Nat
  /-- How often the rule still fires. -/
  times : Nat
  effect : FaultEffect α
  deriving DecidableEq

namespace FaultRule

variable {α : Type}

/-- Whether a filter holds for a value. -/
def holds {β : Type} [DecidableEq β] (filter : Option β) (value : β) : Bool :=
  filter.all (· == value)

/-- Whether a rule is about a call. Reads by key are filtered by key, writes by everything. -/
def fits (rule : FaultRule α) : Request α → Bool
  | .get key => rule.call = .get && holds rule.key key
  | .write v condition =>
    let sealedDay := (View.daily? v).any WindowView.isSealed
    rule.call = .write && holds rule.key v.key && holds rule.kind v.kind
      && holds rule.isSealed sealedDay && holds rule.conditional (decide (condition ≠ .always))
  | .page .. => rule.call = .page
  | .readMany _ => rule.call = .readMany
  | .now => false
  | .pause _ => false

/-- The effect of the first rule that fires for a call, and the rules that are left. -/
def fire (r : Request α) : List (FaultRule α) → Option (FaultEffect α) × List (FaultRule α)
  | [] => (none, [])
  | rule :: rest =>
    if !rule.fits r then
      let (effect, rest) := fire r rest
      (effect, rule :: rest)
    else if 0 < rule.skip then
      let (effect, rest) := fire r rest
      (effect, { rule with skip := rule.skip - 1 } :: rest)
    else if 0 < rule.times then (some rule.effect, { rule with times := rule.times - 1 } :: rest)
    else
      let (effect, rest) := fire r rest
      (effect, rule :: rest)

end FaultRule

/-- The key that a call is about, if it is about one. -/
def Request.key? {α : Type} : Request α → Option String
  | .get key => some key
  | .write v _ => some v.key
  | _ => none

end WeatherStation
