import WeatherStation.Proofs.Traffic.Weave

/-!
# Exchanges

What a program asks for and what it is told. The exchanges of a program can be looked at from two
sides: what the program makes of the replies, whatever they are, and what the replies have to do
with the shared store.

Results:
* `Program.Traces`: the exchanges that lead a program to a result.
* `Program.traced`, `Program.map_fst_traced`: a program that hands on its exchanges, and changes
  nothing else; `Program.fst_run_traced`: its result.
* `Program.traces_bind`, `Client.traces_bind`: the exchanges of one step after the other.
* `Program.Asks`: every request of a program has a property.
* `Terms.Told`: the replies came from the shared store, while all kept their terms.
* `Program.Safe.traced`: a program that keeps its terms is told so.
-/

namespace WeatherStation

variable {ι α β γ ε ε' σ : Type}

/-- A request, and the reply to it. -/
structure Exchange (α : Type) where
  request : Request α
  reply : request.Reply

namespace Program

/-- These exchanges lead the program to a result. -/
inductive Traces : Program α β → List (Exchange α) → β → Prop
  | done (x : β) : Traces (done x) [] x
  | ask {r : Request α} {next : r.Reply → Program α β} {xs : List (Exchange α)} {x : β}
      (reply : r.Reply) : Traces (next reply) xs x → Traces (ask r next) (⟨r, reply⟩ :: xs) x

theorem traces_done {x y : β} {xs : List (Exchange α)} :
    (done x : Program α β).Traces xs y ↔ xs = [] ∧ y = x := by
  constructor
  · rintro ⟨⟩
    exact ⟨rfl, rfl⟩
  · rintro ⟨rfl, rfl⟩
    exact .done y

theorem traces_bind {p : Program α β} {f : β → Program α γ} {xs : List (Exchange α)} {y : γ} :
    (p >>= f).Traces xs y ↔
      ∃ x xs₁ xs₂, xs = xs₁ ++ xs₂ ∧ p.Traces xs₁ x ∧ (f x).Traces xs₂ y := by
  change (p.bind f).Traces xs y ↔ _
  induction p generalizing xs with
  | done x =>
    constructor
    · exact fun h => ⟨x, [], xs, rfl, .done x, h⟩
    · rintro ⟨x', xs₁, xs₂, rfl, h₁, h₂⟩
      obtain ⟨rfl, rfl⟩ := traces_done.1 h₁
      exact h₂
  | ask r next ih =>
    constructor
    · intro h
      cases h with
      | ask reply h =>
        obtain ⟨x, xs₁, xs₂, rfl, h₁, h₂⟩ := (ih reply).1 h
        exact ⟨x, ⟨r, reply⟩ :: xs₁, xs₂, rfl, .ask reply h₁, h₂⟩
    · rintro ⟨x, xs₁, xs₂, rfl, h₁, h₂⟩
      cases h₁ with
      | ask reply h₁ => exact .ask reply ((ih reply).2 ⟨x, _, xs₂, rfl, h₁, h₂⟩)

theorem traces_request {r : Request α} {xs : List (Exchange α)} {reply : r.Reply} :
    (request r).Traces xs reply ↔ xs = [⟨r, reply⟩] := by
  constructor
  · intro h
    cases h with
    | ask reply' h =>
      obtain ⟨rfl, rfl⟩ := traces_done.1 h
      rfl
  · rintro rfl
    exact .ask reply (.done reply)

/-- A program that hands on its exchanges, after those in `seen`. -/
def tracedFrom : Program α β → List (Exchange α) → Program α (β × List (Exchange α))
  | done x, seen => done (x, seen)
  | ask r next, seen => ask r fun reply => tracedFrom (next reply) (seen ++ [⟨r, reply⟩])

/-- A program that hands on its exchanges. -/
def traced (p : Program α β) : Program α (β × List (Exchange α)) := p.tracedFrom []

theorem traced_yields (p : Program α β) : p.traced.Yields fun y => p.Traces y.2 y.1 := by
  have hfrom (p : Program α β) (seen : List (Exchange α)) :
      (p.tracedFrom seen).Yields fun y => ∃ xs, y.2 = seen ++ xs ∧ p.Traces xs y.1 := by
    induction p generalizing seen with
    | done x => exact ⟨[], by simp, .done x⟩
    | ask r next ih =>
      intro reply
      refine (ih reply _).mono fun y hy => ?_
      obtain ⟨xs, hxs, h⟩ := hy
      exact ⟨⟨r, reply⟩ :: xs, by simp [hxs], .ask reply h⟩
  refine (hfrom p []).mono fun y hy => ?_
  obtain ⟨xs, hxs, h⟩ := hy
  rw [hxs]
  exact h

/-- Handing on the exchanges changes nothing else. -/
theorem map_fst_traced (p : Program α β) : Prod.fst <$> p.traced = p := by
  have hfrom (p : Program α β) (seen : List (Exchange α)) :
      (p.tracedFrom seen).bind (fun y => done y.1) = p := by
    induction p generalizing seen with
    | done x => rfl
    | ask r next ih => exact congrArg (ask r) (funext fun reply => ih reply _)
  exact hfrom p []

/-- A program that hands on its exchanges comes to the same result. -/
theorem fst_run_traced (answer : (r : Request α) → σ → r.Reply × σ) (p : Program α β) (s : σ) :
    (p.traced.run answer s).1.1 = (p.run answer s).1 := by
  have hmap : (Prod.fst <$> p.traced).run answer s =
      ((p.traced.run answer s).1.1, (p.traced.run answer s).2) := by
    rw [map_eq_pure_bind, run_bind, run_pure]
  rw [← congrArg Prod.fst hmap, map_fst_traced]

/-- Every request of the program has the property, whatever the replies are. -/
def Asks (P : Request α → Prop) : Program α β → Prop
  | done _ => True
  | ask r next => P r ∧ ∀ reply, Asks P (next reply)

variable {P : Request α → Prop}

theorem Asks.of_traces {p : Program α β} (hp : p.Asks P) {xs : List (Exchange α)} {x : β}
    (h : p.Traces xs x) : ∀ e ∈ xs, P e.request := by
  induction h with
  | done x => simp
  | ask reply _ ih => simpa using ⟨hp.1, ih (hp.2 reply)⟩

theorem Asks.bind {p : Program α β} {f : β → Program α γ} (hp : p.Asks P)
    (hf : ∀ x, (f x).Asks P) : (p >>= f).Asks P := by
  change (p.bind f).Asks P
  induction p with
  | done x => exact hf x
  | ask r next ih => exact ⟨hp.1, fun reply => ih reply (hp.2 reply)⟩

/-- A program that weaves others asks for what they ask for, and waits. -/
theorem Weave.asks {ps : List (Program α β)} {q : Program α (List β)} (hw : Weave ps q)
    (hwait : ∀ d, P (.pause d)) (hps : ∀ p ∈ ps, p.Asks P) : q.Asks P := by
  induction hw with
  | done => exact trivial
  | finish hp _ ih =>
    exact (ih fun p hm => hps p (hp.mem_iff.2 (List.mem_cons_of_mem _ hm))).bind fun _ => trivial
  | @ask ps rest r next k hp _ ih =>
    have hr := hps (.ask r next) (hp.mem_iff.2 List.mem_cons_self)
    refine ⟨hr.1, fun reply => ih reply fun p hm => ?_⟩
    rcases List.mem_cons.1 hm with rfl | hm
    · exact hr.2 reply
    · exact hps p (hp.mem_iff.2 (List.mem_cons_of_mem _ hm))
  | @slept ps rest d next q hp _ ih =>
    refine ih fun p hm => ?_
    rcases List.mem_cons.1 hm with rfl | hm
    · exact (hps (.ask (.pause d) next) (hp.mem_iff.2 List.mem_cons_self)).2 ()
    · exact hps p (hp.mem_iff.2 (List.mem_cons_of_mem _ hm))
  | wait _ ih => exact ⟨hwait _, fun _ => ih hps⟩

end Program

/-! ## What was told -/

/-- All replies came from the shared store, in this order, while the client and the others kept the
    terms. -/
inductive Terms.Told (T : Terms ι α) : History ι α → List (Exchange α) → History ι α → Prop
  | done {h h' : History ι α} : T.rely h h' → T.Told h [] h'
  | ask {h h₁ h' : History ι α} {r : Request α} {xs : List (Exchange α)}
      (now : Except Overflow Instant) (fault : Option StoreError) : (fault.isSome → T.faulty) →
      T.rely h h₁ → T.inv h₁ → T.inv (h₁.serve now fault T.client r).2 →
      T.grant h₁ (h₁.serve now fault T.client r).2 →
      T.Told (h₁.serve now fault T.client r).2 xs h' →
      T.Told h (⟨r, (h₁.serve now fault T.client r).1⟩ :: xs) h'

namespace Terms.Told

variable {T : Terms ι α} {h h₁ h' : History ι α} {xs ys : List (Exchange α)}

theorem rely_left (ht : T.Told h₁ xs h') (hr : T.rely h h₁) : T.Told h xs h' := by
  cases ht with
  | done hr' => exact .done (T.rely_trans hr hr')
  | ask now fault hf hr' hi hi' hg ht =>
    exact .ask now fault hf (T.rely_trans hr hr') hi hi' hg ht

theorem append (ht : T.Told h xs h₁) (ht' : T.Told h₁ ys h') : T.Told h (xs ++ ys) h' := by
  induction ht with
  | done hr => exact ht'.rely_left hr
  | ask now fault hf hr hi hi' hg _ ih => exact .ask now fault hf hr hi hi' hg (ih ht')

theorem exists_of_append (ht : T.Told h (xs ++ ys) h') :
    ∃ h₁, T.Told h xs h₁ ∧ T.Told h₁ ys h' := by
  induction xs generalizing h with
  | nil => exact ⟨h, .done (T.rely_refl h), ht⟩
  | cons x xs ih =>
    cases ht with
    | ask now fault hf hr hi hi' hg ht =>
      obtain ⟨h₁, hxs, hys⟩ := ih ht
      exact ⟨h₁, .ask now fault hf hr hi hi' hg hxs, hys⟩

end Terms.Told

namespace Program

variable {T : Terms ι α} {h h' : History ι α}

/-- A program that keeps its terms keeps them with its exchanges, too. -/
theorem Safe.traced {post : β → History ι α → Prop} {p : Program α β} (hp : p.Safe T post h) :
    p.traced.Safe T (fun y h' => post y.1 h' ∧ T.Told h y.2 h') h := by
  have hfrom (p : Program α β) (seen : List (Exchange α)) (h₁ : History ι α)
      (hp : p.Safe T post h₁) (ht : T.Told h seen h₁) :
      (p.tracedFrom seen).Safe T (fun y h' => post y.1 h' ∧ T.Told h y.2 h') h₁ := by
    induction p generalizing seen h₁ with
    | done x =>
      intro h' hi hr
      refine ⟨hp h' hi hr, ?_⟩
      simpa using ht.append (.done hr)
    | ask r next ih =>
      intro h₂ hi hr now fault hf
      obtain ⟨hi', hg, hs⟩ := hp h₂ hi hr now fault hf
      refine ⟨hi', hg, ih _ _ _ hs (ht.append ?_)⟩
      exact .ask now fault hf hr hi hi' hg (.done (T.rely_refl _))
  exact hfrom p [] h hp (.done (T.rely_refl h))

/-- What every result of a program satisfies, the result of a safe one satisfies, too. -/
theorem Yields.safe {post : β → History ι α → Prop} {pre : β → Prop} {p : Program α β}
    (hy : p.Yields pre) (hp : p.Safe T post h) : p.Safe T (fun x h' => pre x ∧ post x h') h := by
  induction p generalizing h with
  | done x => exact fun h' hi hr => ⟨hy, hp h' hi hr⟩
  | ask r next ih =>
    intro h' hi hr now fault hf
    obtain ⟨hi', hg, hs⟩ := hp h' hi hr now fault hf
    exact ⟨hi', hg, ih _ (hy _) hs⟩

end Program

/-! ## Clients -/

namespace Client

/-- These exchanges lead the client to an outcome. -/
def Traces (c : Client α ε β) (xs : List (Exchange α)) (x : Except ε β) : Prop :=
  Program.Traces c.run xs x

variable {xs : List (Exchange α)}

theorem traces_bind {c : Client α ε β} {f : β → Client α ε γ} {y : Except ε γ} :
    Traces (c >>= f) xs y ↔
      (∃ x xs₁ xs₂, xs = xs₁ ++ xs₂ ∧ c.Traces xs₁ (.ok x) ∧ (f x).Traces xs₂ y) ∨
        ∃ e, c.Traces xs (.error e) ∧ y = .error e := by
  rw [Traces, ExceptT.run_bind, Program.traces_bind]
  constructor
  · rintro ⟨x, xs₁, xs₂, rfl, h₁, h₂⟩
    cases x with
    | ok x => exact .inl ⟨x, xs₁, xs₂, rfl, h₁, h₂⟩
    | error e =>
      obtain ⟨rfl, rfl⟩ := Program.traces_done.1 h₂
      rw [List.append_nil]
      exact .inr ⟨e, h₁, rfl⟩
  · rintro (⟨x, xs₁, xs₂, rfl, h₁, h₂⟩ | ⟨e, h, rfl⟩)
    · exact ⟨.ok x, xs₁, xs₂, rfl, h₁, h₂⟩
    · exact ⟨.error e, xs, [], by simp, h, .done _⟩

theorem traces_lift_bind {p : Program α β} {f : β → Client α ε γ} {y : Except ε γ} :
    Traces (ExceptT.lift p >>= f) xs y ↔
      ∃ x xs₁ xs₂, xs = xs₁ ++ xs₂ ∧ p.Traces xs₁ x ∧ (f x).Traces xs₂ y := by
  have : (ExceptT.lift p >>= f).run = p >>= fun x => (f x).run :=
    Program.bind_assoc p _ _
  rw [Traces, this, Program.traces_bind]
  rfl

theorem traces_pure {x : β} {y : Except ε β} :
    (pure x : Client α ε β).Traces xs y ↔ xs = [] ∧ y = .ok x := Program.traces_done

theorem traces_compute_bind {x : Except ε β} {f : β → Client α ε γ} {y : Except ε γ} :
    Traces (compute x >>= f) xs y ↔
      (∃ z, x = .ok z ∧ (f z).Traces xs y) ∨ ∃ e, x = .error e ∧ xs = [] ∧ y = .error e := by
  cases x with
  | ok z =>
    change (f z).Traces xs y ↔ _
    simp
  | error e =>
    change Program.Traces (.done (.error e)) xs y ↔ _
    simp [Program.traces_done]

/-- Every request of the client has the property, whatever the replies are. -/
def Asks (P : Request α → Prop) (c : Client α ε β) : Prop := Program.Asks P c.run

variable {P : Request α → Prop}

theorem Asks.bind {c : Client α ε β} {f : β → Client α ε γ} (hc : c.Asks P)
    (hf : ∀ x, (f x).Asks P) : Asks P (c >>= f) := by
  rw [Asks, ExceptT.run_bind]
  refine Program.Asks.bind hc fun x => ?_
  cases x with
  | ok x => exact hf x
  | error e => exact trivial

theorem asks_pure (x : β) : Asks P (pure x : Client α ε β) := trivial

theorem asks_throw (e : ε) : Asks P (throw e : Client α ε β) := trivial

theorem asks_compute (x : Except ε β) : Asks P (compute x : Client α ε β) := trivial

theorem asks_request {r : Request α} (hr : P r) : Program.Asks P (Program.request r) :=
  ⟨hr, fun _ => trivial⟩

theorem asks_lift {p : Program α β} (hp : p.Asks P) :
    Asks P (ExceptT.lift p : Client α ε β) := Program.Asks.bind hp fun _ => trivial

theorem Asks.adapt {f : ε → ε'} {c : Client α ε β} (hc : c.Asks P) : Asks P (c.adapt f) :=
  Program.Asks.bind hc fun _ => trivial

theorem asks_getAs {kind : ViewKind} {as? : View α → Option β} {key : String}
    (hr : P (.get key)) : Asks P (getAs kind as? key) := by
  refine Asks.bind (asks_request hr) fun v => ?_
  cases v with
  | none => exact asks_pure none
  | some v =>
    dsimp only
    cases as? v with
    | none => exact asks_throw _
    | some x => exact asks_pure _

end Client

end WeatherStation
