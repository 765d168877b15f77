import WeatherStation.Proofs.Traffic.Terms

/-!
# Interleaved clients

Any number of clients on one store, which make their requests in any order. A move lets one client
make its next request; the clock may show any time, and the store may refuse the call. What some
moves lead to is computed, so every list of moves is one interleaving.

Results:
* `Traffic.move_safe`: one move of a client that keeps its terms.
* `Traffic.run_safe`: clients whose terms fit together keep them along every interleaving;
  `Traffic.run_safe_among` is the same for some of the clients, if no others make a move.
* `Traffic.run_grants`: what such a run does to the store is something that the clients may do.
* `Traffic.run_safe_exclusive`: the same, where the terms of some clients do not fit together, and
  these clients do not overlap.
* `Traffic.run_concluding`: what clients conclude from their results in the end does not matter to
  the run.
-/

namespace WeatherStation

/-- The result of a program that is done. -/
def Program.result? {α β : Type} : Program α β → Option β
  | .done x => some x
  | .ask _ _ => none

theorem Program.eq_done_of_result? {α β : Type} {p : Program α β} {x : β}
    (h : p.result? = some x) : p = .done x := by
  cases p with
  | done y => rw [Option.some_inj.1 h]
  | ask r next => cases h

theorem Program.eq_done_of_outcome? {α β ε : Type} {p : Program α (Except ε β)} {x : β}
    (h : p.result?.bind Except.toOption = some x) : p = .done (.ok x) := by
  obtain ⟨y, hy, hyx⟩ := Option.bind_eq_some_iff.1 h
  rw [eq_done_of_result? hy, toOption_eq_some.1 hyx]

/-- One move: who makes a request, what the clock shows, and whether the store refuses the call. -/
structure Move (ι : Type) where
  client : ι
  now : Except Overflow Instant
  fault : Option StoreError

/-- A recorded store and its clients, each with what it has left to do. -/
structure Traffic (ι α β : Type) where
  history : History ι α
  clients : ι → Program α β

namespace Traffic

variable {ι α β : Type} [DecidableEq ι]

/-- A client makes its next request. One that is done does nothing. -/
def move (t : Traffic ι α β) (m : Move ι) : Traffic ι α β :=
  match t.clients m.client with
  | .done _ => t
  | .ask r next =>
    let served := t.history.serve m.now m.fault m.client r
    ⟨served.2, Function.update t.clients m.client (next served.1)⟩

/-- Moves, one after the other. -/
def run (t : Traffic ι α β) (moves : List (Move ι)) : Traffic ι α β := moves.foldl move t

/-- Clients that have not begun, on a store without writes. -/
def start (clients : ι → Program α β) : Traffic ι α β := ⟨.empty, clients⟩

theorem run_concat (t : Traffic ι α β) (moves : List (Move ι)) (m : Move ι) :
    t.run (moves ++ [m]) = (t.run moves).move m := by
  simp [run]

theorem clients_move_ne (t : Traffic ι α β) {m : Move ι} {i : ι} (hi : i ≠ m.client) :
    (t.move m).clients i = t.clients i := by
  rw [move]
  split
  · rfl
  · exact Function.update_of_ne hi _ _

/-- A client that keeps its terms makes a move. -/
theorem move_safe {T : Terms ι α} {post : β → History ι α → Prop} {t : Traffic ι α β} {m : Move ι}
    (hm : T.client = m.client) (hf : m.fault.isSome → T.faulty) (hi : T.inv t.history)
    (hs : (t.clients m.client).Safe T post t.history) :
    T.inv (t.move m).history ∧ T.grant t.history (t.move m).history ∧
      ((t.move m).clients m.client).Safe T post (t.move m).history := by
  rw [move]
  cases hc : t.clients m.client with
  | done x =>
    rw [hc] at hs
    exact ⟨hi, T.grant_refl _, by rw [hc]; exact hs⟩
  | ask r next =>
    rw [hc] at hs
    have hstep := hs t.history hi (T.rely_refl _) m.now m.fault hf
    rw [hm] at hstep
    simpa using hstep

/-- Clients of some kind, whose terms fit together: what one of them may do, the others put up with.
    Only clients of this kind make a move, and the store refuses calls only where the terms of the
    client allow it. -/
theorem run_safe_among {T : ι → Terms ι α} {inv : History ι α → Prop} {p : ι → Prop}
    (post : ι → β → History ι α → Prop) (hclient : ∀ i, (T i).client = i)
    (hinv : ∀ i, p i → (T i).inv = inv)
    (hfit : ∀ i j h h', p i → p j → i ≠ j → (T i).grant h h' → (T j).rely h h')
    {t : Traffic ι α β} (hi : inv t.history)
    (hs : ∀ i, p i → (t.clients i).Safe (T i) (post i) t.history) {moves : List (Move ι)}
    (hmoves : ∀ m ∈ moves, p m.client)
    (hfaulty : ∀ m ∈ moves, m.fault.isSome → (T m.client).faulty) :
    inv (t.run moves).history ∧
      ∀ i, p i → ((t.run moves).clients i).Safe (T i) (post i) (t.run moves).history := by
  induction moves using List.reverseRecOn with
  | nil => exact ⟨hi, hs⟩
  | append_singleton moves m ih =>
    obtain ⟨hi, hs⟩ := ih (fun m' hm' => hmoves m' (List.mem_append_left _ hm'))
      fun m' hm' => hfaulty m' (List.mem_append_left _ hm')
    have hp := hmoves m (by simp)
    rw [run_concat]
    obtain ⟨hi', hg, hs'⟩ := move_safe (hclient m.client) (hfaulty m (by simp))
      (by rwa [hinv _ hp]) (hs m.client hp)
    rw [hinv _ hp] at hi'
    refine ⟨hi', fun i hpi => ?_⟩
    by_cases him : i = m.client
    · rw [him]
      exact hs'
    · rw [clients_move_ne _ him]
      exact (hs i hpi).rely (hfit _ _ _ _ hp hpi (Ne.symm him) hg)

/-- Clients whose terms fit together keep them along every interleaving. -/
theorem run_safe {T : ι → Terms ι α} {inv : History ι α → Prop}
    (post : ι → β → History ι α → Prop)
    (hclient : ∀ i, (T i).client = i) (hinv : ∀ i, (T i).inv = inv)
    (hfit : ∀ i j h h', i ≠ j → (T i).grant h h' → (T j).rely h h') {t : Traffic ι α β}
    (hi : inv t.history) (hs : ∀ i, (t.clients i).Safe (T i) (post i) t.history)
    (moves : List (Move ι))
    (hfaulty : ∀ i, (T i).faulty := by intro i; first | exact trivial | simp) :
    inv (t.run moves).history ∧
      ∀ i, ((t.run moves).clients i).Safe (T i) (post i) (t.run moves).history := by
  have h := run_safe_among (p := fun _ => True) post hclient (fun i _ => hinv i)
    (fun i j h h' _ _ => hfit i j h h') hi (fun i _ => hs i) (fun m (_ : m ∈ moves) => trivial)
    fun m _ _ => hfaulty m.client
  exact ⟨h.1, fun i => h.2 i trivial⟩

/-- What every client may do only in accordance with some order of histories, no run leaves. -/
theorem run_grants {T : ι → Terms ι α} {inv : History ι α → Prop}
    {R : History ι α → History ι α → Prop} (post : ι → β → History ι α → Prop)
    (hclient : ∀ i, (T i).client = i) (hinv : ∀ i, (T i).inv = inv)
    (hfit : ∀ i j h h', i ≠ j → (T i).grant h h' → (T j).rely h h')
    (hrefl : ∀ h, R h h) (htrans : ∀ {h h' h''}, R h h' → R h' h'' → R h h'')
    (hgrant : ∀ i h h', (T i).grant h h' → R h h') {t : Traffic ι α β} (hi : inv t.history)
    (hs : ∀ i, (t.clients i).Safe (T i) (post i) t.history) (moves : List (Move ι))
    (hfaulty : ∀ i, (T i).faulty := by intro i; first | exact trivial | simp) :
    R t.history (t.run moves).history := by
  induction moves using List.reverseRecOn with
  | nil => exact hrefl _
  | append_singleton moves m ih =>
    obtain ⟨hi', hs'⟩ := run_safe post hclient hinv hfit hi hs moves hfaulty
    rw [run_concat]
    have hmove := move_safe (hclient m.client) (fun _ => hfaulty _) (by rwa [hinv])
      (hs' m.client)
    exact htrans ih (hgrant _ _ _ hmove.2.1)

/-- Of two clients of some kind, none makes a move between two moves of the other. -/
def Exclusive (p : ι → Prop) (moves : List (Move ι)) : Prop :=
  ∀ i j, p i → p j → [i, j, i].Sublist (moves.map Move.client) → i = j

instance [Fintype ι] (p : ι → Prop) [DecidablePred p] (moves : List (Move ι)) :
    Decidable (Exclusive p moves) :=
  inferInstanceAs
    (Decidable (∀ i j, p i → p j → [i, j, i].Sublist (moves.map Move.client) → i = j))

omit [DecidableEq ι] in
theorem Exclusive.of_concat {p : ι → Prop} {moves : List (Move ι)} {m : Move ι}
    (he : Exclusive p (moves ++ [m])) : Exclusive p moves := by
  intro i j hi hj hs
  refine he i j hi hj (hs.trans ?_)
  rw [List.map_append]
  exact List.sublist_append_left _ _

theorem clients_run_of_notMem (t : Traffic ι α β) {moves : List (Move ι)} {i : ι}
    (hi : i ∉ moves.map Move.client) : (t.run moves).clients i = t.clients i := by
  induction moves using List.reverseRecOn with
  | nil => rfl
  | append_singleton moves m ih =>
    rw [List.map_append, List.mem_append, not_or] at hi
    rw [run_concat, clients_move_ne _ (List.ne_of_not_mem_cons hi.2)]
    exact ih hi.1

/-- Clients whose terms fit together unless both are of some kind, where those of that kind do not
    overlap: they keep their terms until another one of the kind takes over. -/
theorem run_safe_exclusive {T : ι → Terms ι α} {inv : History ι α → Prop}
    (post : ι → β → History ι α → Prop) {p : ι → Prop} (hclient : ∀ i, (T i).client = i)
    (hinv : ∀ i, (T i).inv = inv)
    (hfit : ∀ i j h h', i ≠ j → ¬ (p i ∧ p j) → (T i).grant h h' → (T j).rely h h')
    {clients : ι → Program α β} (hi : inv .empty) (hs : ∀ i h, (clients i).Safe (T i) (post i) h)
    {moves : List (Move ι)} (he : Exclusive p moves)
    (hfaulty : ∀ i, (T i).faulty := by intro i; first | exact trivial | simp) :
    let t := (start clients).run moves
    inv t.history ∧ ∀ i, (p i → ∀ j, p j → [i, j].Sublist (moves.map Move.client) → i = j) →
      (t.clients i).Safe (T i) (post i) t.history := by
  induction moves using List.reverseRecOn with
  | nil => exact ⟨hi, fun i _ => hs i _⟩
  | append_singleton moves m ih =>
    obtain ⟨hi, hs'⟩ := ih he.of_concat
    -- Nobody of its kind has taken over from the client that moves, since it moves again.
    have hmover := hs' m.client fun hp j hj hij => he _ j hp hj (by
      rw [List.map_append]
      exact hij.append (List.Sublist.refl [m.client]))
    obtain ⟨hi', hg, hsafe⟩ := move_safe (hclient m.client) (fun _ => hfaulty _) (by rwa [hinv])
      hmover
    rw [hinv] at hi'
    rw [run_concat]
    refine ⟨hi', fun i hlast => ?_⟩
    by_cases him : i = m.client
    · rw [him]
      exact hsafe
    rw [clients_move_ne _ him]
    by_cases hp : p i ∧ p m.client
    · -- A client from which another one takes over now has not begun.
      have hnew : i ∉ moves.map Move.client := fun hmem => him <| hlast hp.1 m.client hp.2 <| by
        rw [List.map_append]
        exact (List.singleton_sublist.2 hmem).append (List.Sublist.refl [m.client])
      rw [clients_run_of_notMem _ hnew]
      exact hs i _
    · refine (hs' i fun hpi j hj hij => hlast hpi j hj (hij.trans ?_)).rely
        (hfit _ _ _ _ (Ne.symm him) (fun h => hp h.symm) hg)
      rw [List.map_append]
      exact List.sublist_append_left _ _

/-- Each client draws a conclusion from its result. -/
def concluding {γ : Type} (t : Traffic ι α β) (f : ι → β → γ) : Traffic ι α γ :=
  ⟨t.history, fun i => t.clients i >>= fun x => pure (f i x)⟩

/-- Conclusions take no requests. -/
theorem run_concluding {γ : Type} (t : Traffic ι α β) (f : ι → β → γ) (moves : List (Move ι)) :
    (t.concluding f).run moves = (t.run moves).concluding f := by
  induction moves using List.reverseRecOn with
  | nil => rfl
  | append_singleton moves m ih =>
    rw [run_concat, run_concat, ih]
    generalize t.run moves = t
    have hclient : (t.concluding f).clients m.client =
        t.clients m.client >>= fun x => pure (f m.client x) := rfl
    rw [move, move, hclient]
    cases t.clients m.client with
    | done x => rfl
    | ask r next =>
      refine congrArg (Traffic.mk _) (funext fun i => ?_)
      by_cases hi : i = m.client
      · subst hi
        simp only [Function.update_self]
        rfl
      · rw [Function.update_of_ne hi]
        simp only [concluding, Function.update_of_ne hi]

omit [DecidableEq ι] in
/-- A client that is done has drawn its conclusion from a result. -/
theorem done_of_concluding {γ : Type} {t : Traffic ι α β} {f : ι → β → γ} {i : ι} {y : γ}
    (h : (t.concluding f).clients i = .done y) : ∃ x, t.clients i = .done x ∧ y = f i x := by
  have hclient : (t.concluding f).clients i = t.clients i >>= fun x => pure (f i x) := rfl
  rw [hclient] at h
  cases hx : t.clients i with
  | done x =>
    rw [hx] at h
    cases h
    exact ⟨x, rfl, rfl⟩
  | ask r next =>
    rw [hx] at h
    cases h

omit [DecidableEq ι] in
/-- What is known of the result of a client that is done. -/
theorem post_of_done {T : Terms ι α} {post : β → History ι α → Prop} {t : Traffic ι α β} {i : ι}
    {x : β} (hi : T.inv t.history) (hs : (t.clients i).Safe T post t.history)
    (hx : t.clients i = .done x) : post x t.history := by
  rw [hx] at hs
  exact Terms.Lasts.now hs hi

end Traffic

end WeatherStation
