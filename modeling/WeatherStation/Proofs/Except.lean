import Mathlib.Tactic

/-!
# Computations that can fail

Steps that can fail, one after the other or along a list.

Results:
* `exists_of_isOk`: a result.
* `bind_eq_ok`, `bind_eq_error`: how two steps succeed, and how they fail.
* `map_eq_ok`, `toOption_eq_some`: a changed result, and one whose failure is left out.
* `mapError_eq_ok`, `mapError_eq_error`: a renamed failure.
* `foldlM_ok`, `foldlM_error`: what every step keeps, and what every failure of a step has, the fold
  keeps and has.
* `foldlM_map`: a change that commutes with every step commutes with the fold.
* `exists_of_mapM_error`, `mapM_error`, `map_of_mapM_ok`, `ok_of_mapM_ok`, `mem_of_mapM_ok`,
  `forM_error`, `forM_ok`: the same for maps and checks.
-/

namespace WeatherStation

variable {ε β γ δ : Type}

theorem exists_of_isOk {x : Except ε β} (h : x.isOk = true) : ∃ y, x = .ok y := by
  cases x with
  | ok y => exact ⟨y, rfl⟩
  | error e => cases h

theorem bind_eq_ok {x : Except ε β} {f : β → Except ε γ} {y : γ} :
    x >>= f = .ok y ↔ ∃ b, x = .ok b ∧ f b = .ok y := by
  cases x <;> simp [bind, Except.bind]

theorem bind_eq_error {x : Except ε β} {f : β → Except ε γ} {e : ε} :
    x >>= f = .error e ↔ x = .error e ∨ ∃ b, x = .ok b ∧ f b = .error e := by
  cases x <;> simp [bind, Except.bind]

theorem map_eq_ok {f : β → γ} {x : Except ε β} {y : γ} (h : x.map f = .ok y) :
    ∃ b, x = .ok b ∧ f b = y := by
  cases x with
  | ok b => exact ⟨b, rfl, Except.ok.inj h⟩
  | error e => cases h

theorem map_eq_error {f : β → γ} {x : Except ε β} {e : ε} (h : x.map f = .error e) :
    x = .error e := by
  cases x with
  | ok b => cases h
  | error e' =>
    cases h
    rfl

theorem toOption_eq_some {x : Except ε β} {y : β} : x.toOption = some y ↔ x = .ok y := by
  cases x <;> simp [Except.toOption]

theorem mapError_eq_ok {f : ε → β} {x : Except ε γ} {y : γ} (h : x.mapError f = .ok y) :
    x = .ok y := by
  cases x with
  | ok y' =>
    cases h
    rfl
  | error e => cases h

theorem mapError_eq_ok_iff {f : ε → β} {x : Except ε γ} {y : γ} :
    x.mapError f = .ok y ↔ x = .ok y :=
  ⟨mapError_eq_ok, fun h => by rw [h]; rfl⟩

theorem mapError_eq_error {f : ε → β} {x : Except ε γ} {e : β} (h : x.mapError f = .error e) :
    ∃ e', x = .error e' ∧ e = f e' := by
  cases x with
  | ok y => cases h
  | error e' =>
    cases h
    exact ⟨e', rfl, rfl⟩

/-! ## Folds -/

theorem foldlM_ok {f : β → γ → Except ε β} {p : β → Prop} {l : List γ}
    (hf : ∀ b x b', x ∈ l → f b x = .ok b' → p b → p b') {b b' : β} (hb : p b)
    (h : l.foldlM f b = .ok b') : p b' := by
  induction l generalizing b with
  | nil =>
    cases h
    exact hb
  | cons x l ih =>
    rw [List.foldlM_cons] at h
    obtain ⟨c, hx, h⟩ := bind_eq_ok.1 h
    exact ih (fun b y b' hy => hf b y b' (List.mem_cons_of_mem x hy))
      (hf b x c List.mem_cons_self hx hb) h

theorem foldlM_error {f : β → γ → Except ε β} {p : ε → Prop} {l : List γ}
    (hf : ∀ b x e, x ∈ l → f b x = .error e → p e) {b : β} {e : ε}
    (h : l.foldlM f b = .error e) : p e := by
  induction l generalizing b with
  | nil => cases h
  | cons x l ih =>
    rw [List.foldlM_cons] at h
    rcases bind_eq_error.1 h with hx | ⟨c, -, h⟩
    · exact hf b x e List.mem_cons_self hx
    · exact ih (fun b y e' hy => hf b y e' (List.mem_cons_of_mem x hy)) h

/-- A change that commutes with every step commutes with the fold. -/
theorem foldlM_map {f : β → γ → Except ε β} {m : β → β} (hf : ∀ b x, f (m b) x = (f b x).map m)
    {l : List γ} (b : β) : l.foldlM f (m b) = (l.foldlM f b).map m := by
  induction l generalizing b with
  | nil => rfl
  | cons x l ih =>
    rw [List.foldlM_cons, List.foldlM_cons, hf]
    cases f b x with
    | error e => rfl
    | ok c => exact ih c

/-! ## Maps and checks -/

theorem exists_of_mapM_error {f : γ → Except ε δ} {l : List γ} {e : ε}
    (h : l.mapM f = .error e) : ∃ x ∈ l, f x = .error e := by
  induction l with
  | nil => cases h
  | cons x l ih =>
    rw [List.mapM_cons] at h
    rcases bind_eq_error.1 h with hx | ⟨y, -, h⟩
    · exact ⟨x, List.mem_cons_self, hx⟩
    · rcases bind_eq_error.1 h with hl | ⟨ys, -, h⟩
      · obtain ⟨x', hx', he⟩ := ih hl
        exact ⟨x', List.mem_cons_of_mem x hx', he⟩
      · cases h

theorem mapM_error {f : γ → Except ε δ} {p : ε → Prop} {l : List γ}
    (hf : ∀ x e, f x = .error e → p e) {e : ε} (h : l.mapM f = .error e) : p e := by
  obtain ⟨x, -, hx⟩ := exists_of_mapM_error h
  exact hf x e hx

theorem map_of_mapM_ok {f : γ → Except ε δ} {l : List γ} {ys : List δ} (h : l.mapM f = .ok ys) :
    l.map f = ys.map .ok := by
  induction l generalizing ys with
  | nil =>
    cases h
    rfl
  | cons x l ih =>
    rw [List.mapM_cons] at h
    obtain ⟨y, hy, h⟩ := bind_eq_ok.1 h
    obtain ⟨zs, hl, h⟩ := bind_eq_ok.1 h
    cases h
    rw [List.map_cons, List.map_cons, hy, ih hl]

theorem ok_of_mapM_ok {f : γ → Except ε δ} {l : List γ} {ys : List δ} (h : l.mapM f = .ok ys)
    {x : γ} (hx : x ∈ l) : ∃ y ∈ ys, f x = .ok y := by
  have hmem : f x ∈ l.map f := List.mem_map_of_mem hx
  rw [map_of_mapM_ok h] at hmem
  obtain ⟨y, hy, he⟩ := List.mem_map.1 hmem
  exact ⟨y, hy, he.symm⟩

theorem mem_of_mapM_ok {f : γ → Except ε δ} {l : List γ} {ys : List δ} (h : l.mapM f = .ok ys)
    {y : δ} (hy : y ∈ ys) : ∃ x ∈ l, f x = .ok y := by
  have hmem : Except.ok y ∈ ys.map (@Except.ok ε δ) := List.mem_map_of_mem hy
  rw [← map_of_mapM_ok h] at hmem
  exact List.mem_map.1 hmem

theorem forM_error {f : γ → Except ε Unit} {l : List γ} {e : ε} (h : l.forM f = .error e) :
    ∃ x ∈ l, f x = .error e := by
  induction l with
  | nil => cases h
  | cons x l ih =>
    rcases bind_eq_error.1 h with hx | ⟨u, -, h⟩
    · exact ⟨x, List.mem_cons_self, hx⟩
    · obtain ⟨y, hy, hy'⟩ := ih h
      exact ⟨y, List.mem_cons_of_mem x hy, hy'⟩

theorem forM_ok {f : γ → Except ε Unit} {l : List γ} (h : l.forM f = .ok ()) {x : γ} (hx : x ∈ l) :
    f x = .ok () := by
  induction l with
  | nil => cases hx
  | cons y l ih =>
    obtain ⟨u, hy, h⟩ := bind_eq_ok.1 h
    rcases List.mem_cons.1 hx with rfl | hx
    · exact hy
    · exact ih h hx

end WeatherStation
