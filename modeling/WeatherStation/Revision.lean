/-!
# Revisions

A revision changes a value step by step and can be refused on the way. After a refusal the value
keeps what was changed before it.
-/

namespace WeatherStation

/-- A change of a value of type `σ`, with refusals of type `ε` and a result of type `β`. -/
abbrev Revision (ε σ β : Type) := ExceptT ε (StateM σ) β

namespace Revision

variable {ε σ : Type}

/-- The outcome of a revision, and the value that is left. -/
def applyTo (r : Revision ε σ Unit) (s : σ) : Except ε Unit × σ := r.run.run s

/-- The value after a revision that was not refused. -/
def result (r : Revision ε σ Unit) (s : σ) : Except ε σ :=
  match r.applyTo s with
  | (.ok _, s) => .ok s
  | (.error e, _) => .error e

end Revision

end WeatherStation
