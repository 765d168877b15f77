import WeatherStation.Revision

/-!
# Reasoning about revisions

Results:
* `Revision.outcome_bind`: one step after the other.
* `Revision.Keeps`: what a revision never changes, whether it is refused or not.
* `Revision.Commutes`: a change that a revision does not look at, before it or after it.
* `Revision.result_eq_ok`: revisions that were not refused.
-/

namespace WeatherStation

namespace Revision

variable {ε σ β γ : Type}

/-- The result of a revision, and the value that is left. -/
def outcome (r : Revision ε σ β) (s : σ) : Except ε β × σ := r.run.run s

theorem outcome_bind (r : Revision ε σ β) (f : β → Revision ε σ γ) (s : σ) :
    outcome (r >>= f) s = match outcome r s with
      | (.ok x, s') => outcome (f x) s'
      | (.error e, s') => (.error e, s') := by
  unfold outcome
  rw [ExceptT.run_bind]
  simp only [StateT.run_bind]
  rcases StateT.run (ExceptT.run r) s with ⟨x | x, s'⟩ <;> rfl

theorem outcome_bind_ok {r : Revision ε σ β} {f : β → Revision ε σ γ} {s s' : σ} {y : γ}
    (h : outcome (r >>= f) s = (.ok y, s')) :
    ∃ x s₁, outcome r s = (.ok x, s₁) ∧ outcome (f x) s₁ = (.ok y, s') := by
  rw [outcome_bind] at h
  split at h
  · next x s₁ hr => exact ⟨x, s₁, hr, h⟩
  · cases h

theorem result_eq_ok {r : Revision ε σ Unit} {s s' : σ} :
    r.result s = .ok s' ↔ outcome r s = (.ok (), s') := by
  have : r.applyTo s = outcome r s := rfl
  rw [result, this]
  rcases outcome r s with ⟨_ | _, _⟩ <;> simp

/-- Whatever the outcome of the revision, `p` stays true of the value. -/
def Keeps (p : σ → Prop) (r : Revision ε σ β) : Prop := ∀ s, p s → p (outcome r s).2

variable {p : σ → Prop}

theorem Keeps.bind {r : Revision ε σ β} {f : β → Revision ε σ γ} (hr : Keeps p r)
    (hf : ∀ x, Keeps p (f x)) : Keeps p (r >>= f) := by
  intro s hs
  rw [outcome_bind]
  have h := hr s hs
  split
  · next x s' heq =>
    rw [heq] at h
    exact hf x s' h
  · next e s' heq =>
    rw [heq] at h
    exact h

theorem keeps_pure (x : β) : Keeps p (pure x : Revision ε σ β) := fun _ hs => hs

theorem keeps_get : Keeps p (get : Revision ε σ σ) := fun _ hs => hs

theorem keeps_modify {f : σ → σ} (hf : ∀ s, p s → p (f s)) :
    Keeps p (modify f : Revision ε σ PUnit) := hf

theorem keeps_liftExcept (x : Except ε β) : Keeps p (liftM x : Revision ε σ β) := by
  intro s hs
  cases x <;> exact hs

theorem keeps_forM {f : γ → Revision ε σ PUnit} (hf : ∀ x, Keeps p (f x)) (l : List γ) :
    Keeps p (l.forM f) := by
  induction l with
  | nil => exact keeps_pure _
  | cons x l ih => exact Keeps.bind (hf x) fun _ => ih

/-! ## Changes before and after -/

/-- It is the same to change the value before the revision or after it. -/
def Commutes (m : σ → σ) (r : Revision ε σ β) : Prop :=
  ∀ s, outcome r (m s) = ((outcome r s).1, m (outcome r s).2)

variable {m : σ → σ}

theorem Commutes.bind {r : Revision ε σ β} {f : β → Revision ε σ γ} (hr : Commutes m r)
    (hf : ∀ x, Commutes m (f x)) : Commutes m (r >>= f) := by
  intro s
  rw [outcome_bind, outcome_bind, hr]
  rcases outcome r s with ⟨_ | x, s'⟩
  · rfl
  · exact hf x s'

theorem commutes_modify {f : σ → σ} (hf : ∀ s, f (m s) = m (f s)) :
    Commutes m (modify f : Revision ε σ PUnit) :=
  fun s => congrArg (Prod.mk (Except.ok ())) (hf s)

theorem commutes_forM {f : γ → Revision ε σ PUnit} (hf : ∀ x, Commutes m (f x)) (l : List γ) :
    Commutes m (l.forM f) := by
  induction l with
  | nil => exact fun _ => rfl
  | cons x l ih => exact Commutes.bind (hf x) fun _ => ih

theorem Commutes.result {r : Revision ε σ Unit} (hr : Commutes m r) (s : σ) :
    r.result (m s) = (r.result s).map m := by
  have happly (s : σ) : r.applyTo s = outcome r s := rfl
  rw [Revision.result, Revision.result, happly, happly, hr]
  rcases outcome r s with ⟨_ | x, s'⟩ <;> rfl

end Revision

end WeatherStation
