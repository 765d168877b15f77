import WeatherStation.Proofs.Traffic.Exchanges

/-!
# Clients in bad weather

A client that has the store to itself, while the clock shows any times and the store may refuse
calls.

Results:
* `Program.runUnder`: what a program comes to, and what it leaves behind.
* `Terms.lone`: the terms of a client that has the store to itself.
* `Program.Safe.runUnder`: what holds of its result.
* `Program.runUnder_eq_run`: on a store that answers every call.
* `Program.exists_traces_runUnder`: the exchanges that led to it, with the times that were shown.
-/

namespace WeatherStation

variable {ι α β : Type}

/-- What a request meets: the time that the clock shows, and whether the store refuses the call. -/
structure Weather where
  now : Except Overflow Instant
  fault : Option StoreError

/-- The result of a program that has the store to itself, and the store after it. Its requests meet
    the weather in order. -/
def Program.runUnder (i : ι) : Program α β → (ℕ → Weather) → History ι α → β × History ι α
  | .done x, _, h => (x, h)
  | .ask r next, weather, h =>
    let served := h.serve (weather 0).now (weather 0).fault i r
    (next served.1).runUnder i (fun n => weather (n + 1)) served.2

/-- The terms of a client that has the store to itself. -/
def Terms.lone (i : ι) (inv : History ι α → Prop) (faulty : Prop) : Terms ι α where
  client := i
  inv := inv
  rely h h' := h' = h
  grant _ _ := True
  faulty := faulty
  rely_refl _ := rfl
  rely_trans h₁ h₂ := h₂.trans h₁
  grant_refl _ := trivial

variable {i : ι} {inv : History ι α → Prop} {faulty : Prop} {h : History ι α}

/-- Nothing happens between the requests of such a client. -/
theorem Terms.lasts_lone {p : History ι α → Prop} (hp : inv h → p h) :
    (Terms.lone i inv faulty).Lasts p h := by
  intro h' hi hr
  obtain rfl := hr
  exact hp hi

/-- A client that has the store to itself keeps its terms, and what follows from them holds of its
    result. -/
theorem Program.Safe.runUnder {T : Terms ι α} {post : β → History ι α → Prop} {p : Program α β}
    (hp : p.Safe T post h) (hi : T.inv h) {weather : ℕ → Weather}
    (hf : ∀ n, (weather n).fault.isSome → T.faulty) :
    T.inv (p.runUnder T.client weather h).2 ∧
      post (p.runUnder T.client weather h).1 (p.runUnder T.client weather h).2 := by
  induction p generalizing h weather with
  | done x => exact ⟨hi, hp h hi (T.rely_refl h)⟩
  | ask r next ih =>
    obtain ⟨hi', -, hs⟩ := hp h hi (T.rely_refl h) (weather 0).now (weather 0).fault (hf 0)
    exact ih _ hs hi' fun n => hf (n + 1)

/-- While the store answers every call and the clock stands still, nothing but the store matters. -/
theorem Program.runUnder_eq_run (i : ι) (now : Except Overflow Instant) (p : Program α β)
    (h : History ι α) :
    (p.runUnder i (fun _ => ⟨now, none⟩) h).1 = (p.run (Store.reply now) h.store).1 ∧
      (p.runUnder i (fun _ => ⟨now, none⟩) h).2.store = (p.run (Store.reply now) h.store).2 := by
  induction p generalizing h with
  | done x => exact ⟨rfl, rfl⟩
  | ask r next ih =>
    obtain ⟨hreply, hstore⟩ := serve_eq_reply now i r h
    have hrest := ih (h.serve now none i r).1 (h.serve now none i r).2
    rw [hstore] at hrest
    rw [Program.run, ← hreply]
    exact hrest

/-- There are exchanges that led to the result, in which the clock showed what it shows. -/
theorem Program.exists_traces_runUnder (i : ι) (p : Program α β) (weather : ℕ → Weather)
    (h : History ι α) : ∃ xs, p.Traces xs (p.runUnder i weather h).1 ∧
      ∀ time, ⟨.now, time⟩ ∈ xs → ∃ n, (weather n).now = time := by
  induction p generalizing weather h with
  | done x => exact ⟨[], .done x, by simp⟩
  | ask r next ih =>
    obtain ⟨xs, hxs, htimes⟩ := ih _ (fun n => weather (n + 1))
      (h.serve (weather 0).now (weather 0).fault i r).2
    refine ⟨_ :: xs, .ask _ hxs, fun time htime => ?_⟩
    rcases List.mem_cons.1 htime with he | htime
    · cases he
      exact ⟨0, rfl⟩
    · obtain ⟨n, hn⟩ := htimes time htime
      exact ⟨n + 1, hn⟩

end WeatherStation
