import WeatherStation.Proofs.Except

/-!
# Steps in either order

Steps that can fail commute if both of them succeed in one order exactly when they do in the other,
and come to the same result. Steps that commute pairwise can be taken in any order.

Results:
* `Commuting.seq`, `Commuting.foldlM`, `Commuting.guard`: steps that are made of others.
* `foldlM_perm`: many steps in any order.
* `Cell.commuting`, `Cell.Apart.commuting`: steps that fill cells of a value.
-/

namespace WeatherStation

variable {ε σ β γ : Type}

/-- Two steps succeed in one order iff they do in the other, with the same result. -/
def Commuting (f g : σ → Except ε σ) : Prop := ∀ s c, f s >>= g = .ok c ↔ g s >>= f = .ok c

namespace Commuting

variable {f g g₁ g₂ : σ → Except ε σ}

theorem symm (h : Commuting f g) : Commuting g f := fun s c => (h s c).symm

/-- Changes that cannot fail. -/
theorem of_comm {m m' : σ → σ} (h : ∀ s, m' (m s) = m (m' s)) :
    Commuting (fun s => Except.ok (ε := ε) (m s)) fun s => .ok (m' s) := by
  intro s c
  change Except.ok (m' (m s)) = _ ↔ Except.ok (m (m' s)) = _
  rw [h]

/-- A change that cannot fail, and that a step does not look at. -/
theorem of_map {m : σ → σ} (h : ∀ s, f (m s) = (f s).map m) :
    Commuting (fun s => .ok (m s)) f := by
  intro s c
  change f (m s) = _ ↔ _
  rw [h]
  cases f s <;> rfl

/-- No change at all. -/
theorem of_pure (f : σ → Except ε σ) : Commuting (fun s => .ok s) f :=
  of_map (m := fun s => s) fun s => by cases f s <;> rfl

/-- Whether two steps commute does not depend on their failures. -/
theorem of_eq_ok {ε' : Type} {f' g' : σ → Except ε' σ} (h : Commuting f g)
    (hf : ∀ s a, f' s = .ok a ↔ f s = .ok a) (hg : ∀ s a, g' s = .ok a ↔ g s = .ok a) :
    Commuting f' g' := by
  intro s c
  have hs := h s c
  simp only [bind_eq_ok] at hs ⊢
  simpa only [hf, hg] using hs

/-- One step after the other. -/
theorem seq (h₁ : Commuting f g₁) (h₂ : Commuting f g₂) : Commuting f fun s => g₁ s >>= g₂ := by
  intro s c
  calc f s >>= (fun s => g₁ s >>= g₂) = .ok c
      ↔ (f s >>= g₁) >>= g₂ = .ok c := by rw [bind_assoc]
    _ ↔ ∃ b, g₁ s >>= f = .ok b ∧ g₂ b = .ok c := by simp only [bind_eq_ok (x := f s >>= g₁), h₁ s]
    _ ↔ (g₁ s >>= f) >>= g₂ = .ok c := bind_eq_ok.symm
    _ ↔ g₁ s >>= (fun a => f a >>= g₂) = .ok c := by rw [bind_assoc]
    _ ↔ g₁ s >>= (fun a => g₂ a >>= f) = .ok c := by simp only [bind_eq_ok (x := g₁ s), h₂ _]
    _ ↔ (g₁ s >>= g₂) >>= f = .ok c := by rw [bind_assoc]

/-- Many steps, one after the other. -/
theorem foldlM {step : σ → γ → Except ε σ} {l : List γ} (h : ∀ x ∈ l, Commuting f (step · x)) :
    Commuting f fun s => l.foldlM step s := by
  induction l with
  | nil =>
    intro s c
    change f s >>= pure = _ ↔ f s = _
    rw [bind_pure]
  | cons x l ih =>
    simp only [List.foldlM_cons]
    exact seq (h x List.mem_cons_self) (ih fun y hy => h y (List.mem_cons_of_mem x hy))

/-- A step that depends on something that the other one does not change. -/
theorem guard {k : σ → Except ε β} {step : β → σ → Except ε σ}
    (hk : ∀ s a, g s = .ok a → k a = k s) (h : ∀ b, Commuting (step b) g) :
    Commuting (fun s => k s >>= (step · s)) g := by
  intro s c
  calc (k s >>= (step · s)) >>= g = .ok c
      ↔ ∃ b, k s = .ok b ∧ step b s >>= g = .ok c := by rw [bind_assoc, bind_eq_ok]
    _ ↔ ∃ b, k s = .ok b ∧ g s >>= step b = .ok c := by simp only [h _ s c]
    _ ↔ ∃ a, g s = .ok a ∧ ∃ b, k s = .ok b ∧ step b a = .ok c := by
      simp only [bind_eq_ok]
      constructor
      · rintro ⟨b, hb, a, ha, hc⟩
        exact ⟨a, ha, b, hb, hc⟩
      · rintro ⟨a, ha, b, hb, hc⟩
        exact ⟨b, hb, a, ha, hc⟩
    _ ↔ g s >>= (fun a => k a >>= (step · a)) = .ok c := by
      rw [bind_eq_ok]
      refine exists_congr fun a => and_congr_right fun ha => ?_
      rw [hk s a ha, bind_eq_ok]

end Commuting

/-- Steps that commute pairwise can be taken in any order. -/
theorem foldlM_perm {step : σ → γ → Except ε σ} (h : ∀ x y, Commuting (step · x) (step · y))
    {l l' : List γ} (hp : l.Perm l') (s c : σ) :
    l.foldlM step s = .ok c ↔ l'.foldlM step s = .ok c := by
  induction hp generalizing s with
  | nil => rfl
  | cons x _ ih => simp only [List.foldlM_cons, bind_eq_ok, ih]
  | swap x y l =>
    have hswap (b : σ) := h y x s b
    simp only [List.foldlM_cons, ← bind_assoc]
    rw [bind_eq_ok, bind_eq_ok]
    simp only [hswap]
  | trans _ _ ih₁ ih₂ => exact (ih₁ s).trans (ih₂ s)

/-! ## Cells -/

/-- A part of a value that may be empty. -/
structure Cell (σ β : Type) where
  get : σ → Option β
  set : σ → β → σ
  get_set : ∀ s x, get (set s x) = some x
  set_set : ∀ s x y, set (set s x) y = set s y

namespace Cell

variable (p : Cell σ β)

/-- Fills the cell with something that depends on what it holds. -/
def fill (f : Option β → Except ε β) (s : σ) : Except ε σ := (f (p.get s)).map (p.set s)

theorem fill_eq_ok {f : Option β → Except ε β} {s s' : σ} :
    p.fill f s = .ok s' ↔ ∃ x, f (p.get s) = .ok x ∧ p.set s x = s' := by
  rw [fill]
  constructor
  · exact map_eq_ok
  · rintro ⟨x, hx, rfl⟩
    rw [hx]
    rfl

theorem fill_fill (f g : Option β → Except ε β) (s : σ) :
    p.fill f s >>= p.fill g = (f (p.get s) >>= fun x => g (some x)).map (p.set s) := by
  rw [fill]
  cases f (p.get s) with
  | error e => rfl
  | ok x =>
    change p.fill g (p.set s x) = (g (some x)).map (p.set s)
    rw [fill, p.get_set]
    cases g (some x) with
    | error e => rfl
    | ok y => exact congrArg Except.ok (p.set_set s x y)

/-- Two steps that fill one cell. -/
theorem commuting {f g : Option β → Except ε β}
    (h : ∀ o, f o >>= (fun x => g (some x)) = g o >>= fun x => f (some x)) :
    Commuting (p.fill f) (p.fill g) := by
  intro s c
  rw [p.fill_fill, p.fill_fill, h]

/-- What one cell holds has nothing to do with the other one. -/
structure Apart (p : Cell σ β) (q : Cell σ γ) : Prop where
  get_set : ∀ s x, q.get (p.set s x) = q.get s
  get_set' : ∀ s y, p.get (q.set s y) = p.get s
  set_comm : ∀ s x y, q.set (p.set s x) y = p.set (q.set s y) x

variable {p}

theorem Apart.symm {q : Cell σ γ} (h : p.Apart q) : q.Apart p :=
  ⟨h.get_set', h.get_set, fun s y x => (h.set_comm s x y).symm⟩

/-- Two steps that fill different cells. -/
theorem Apart.commuting {q : Cell σ γ} (h : p.Apart q) (f : Option β → Except ε β)
    (g : Option γ → Except ε γ) : Commuting (p.fill f) (q.fill g) := by
  intro s c
  simp only [bind_eq_ok, fill_eq_ok]
  constructor
  · rintro ⟨_, ⟨x, hx, rfl⟩, y, hy, rfl⟩
    rw [h.get_set] at hy
    exact ⟨_, ⟨y, hy, rfl⟩, x, by rw [h.get_set', hx], (h.set_comm s x y).symm⟩
  · rintro ⟨_, ⟨y, hy, rfl⟩, x, hx, rfl⟩
    rw [h.get_set'] at hx
    exact ⟨_, ⟨x, hx, rfl⟩, y, by rw [h.get_set, hy], h.set_comm s x y⟩

end Cell

end WeatherStation
