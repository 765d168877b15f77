import WeatherStation.Proofs.Except
import WeatherStation.Proofs.Store.Alone
import WeatherStation.Proofs.Traffic.History

/-!
# Sharing a store

A client of a shared store is judged by the terms on which the store is shared: what always holds,
what the others may do between two of its requests, and what it may do itself. A client that keeps
its terms does so whatever the others do within them, whatever the clock shows and whichever calls
the store refuses.

Results:
* `Terms.Lasts`: what stays true whatever the others do.
* `Terms.growing`: any writes, by anyone.
* `Program.Safe`: a program keeps its terms, and what holds of its result.
* `Program.Safe.bind`, `Client.safe_bind`: one step after the other; `Client.safe_bind_total`: two
  steps that come to a result.
* `Program.Safe.run`: a safe program that is alone on the store.
* `Client.safe_getAs`, `Client.safe_write`, `Client.safe_tryWrite`: the requests.
* `Client.safe_writeBack`: a write under the condition that nobody wrote in between.
-/

namespace WeatherStation

variable {ι α β γ ε ε' : Type}

/-- The terms on which a client shares a store. -/
structure Terms (ι α : Type) where
  client : ι
  /-- What holds before and after every request. -/
  inv : History ι α → Prop
  /-- What the others may do between two requests. -/
  rely : History ι α → History ι α → Prop
  /-- What a request of the client may do. -/
  grant : History ι α → History ι α → Prop
  /-- Whether the store may refuse calls. -/
  faulty : Prop := True
  rely_refl : ∀ h, rely h h
  rely_trans : ∀ {h h' h''}, rely h h' → rely h' h'' → rely h h''
  grant_refl : ∀ h, grant h h

namespace Terms

variable {T : Terms ι α} {h h' : History ι α} {p q : History ι α → Prop}

/-- From `h` on, `p` holds as long as only the others make requests. -/
def Lasts (T : Terms ι α) (p : History ι α → Prop) (h : History ι α) : Prop :=
  ∀ h', T.inv h' → T.rely h h' → p h'

theorem Lasts.now (hp : T.Lasts p h) (hi : T.inv h) : p h := hp h hi (T.rely_refl h)

theorem Lasts.rely (hp : T.Lasts p h) (hr : T.rely h h') : T.Lasts p h' :=
  fun h'' hi hr' => hp h'' hi (T.rely_trans hr hr')

theorem Lasts.mono (hp : T.Lasts p h) (hpq : ∀ h', T.inv h' → p h' → q h') : T.Lasts q h :=
  fun h' hi hr => hpq h' hi (hp h' hi hr)

/-- At some moment after `h`, `p` held. -/
def Since (T : Terms ι α) (h : History ι α) (p : History ι α → Prop) (now : History ι α) : Prop :=
  ∃ h', T.inv h' ∧ T.rely h h' ∧ T.rely h' now ∧ p h'

/-- The terms of a client that makes writes and puts up with any writes of others. -/
def growing (i : ι) (inv : History ι α → Prop) : Terms ι α where
  client := i
  inv := inv
  rely h h' := h.log <+: h'.log
  grant h h' := h.log <+: h'.log
  rely_refl := History.grows_refl
  rely_trans := @History.grows_trans ι α
  grant_refl := History.grows_refl

/-- The terms of a client that relies on one more property of the store, and keeps it. -/
def keeping (T : Terms ι α) (J : History ι α → Prop) : Terms ι α where
  client := T.client
  inv h := T.inv h ∧ J h
  rely := T.rely
  grant := T.grant
  faulty := T.faulty
  rely_refl := T.rely_refl
  rely_trans := T.rely_trans
  grant_refl := T.grant_refl

/-- The terms of a client that keeps those of `T` and of `T'`. -/
def and (T T' : Terms ι α) : Terms ι α where
  client := T.client
  inv h := T.inv h ∧ T'.inv h
  rely h h' := T.rely h h' ∧ T'.rely h h'
  grant h h' := T.grant h h' ∧ T'.grant h h'
  faulty := T.faulty ∧ T'.faulty
  rely_refl h := ⟨T.rely_refl h, T'.rely_refl h⟩
  rely_trans h₁ h₂ := ⟨T.rely_trans h₁.1 h₂.1, T'.rely_trans h₁.2 h₂.2⟩
  grant_refl h := ⟨T.grant_refl h, T'.grant_refl h⟩

end Terms

namespace Program

/-- From `h` on, the program keeps its terms, and `post` holds of its result. -/
def Safe (T : Terms ι α) (post : β → History ι α → Prop) : Program α β → History ι α → Prop
  | done x, h => T.Lasts (post x) h
  | ask r next, h => ∀ h', T.inv h' → T.rely h h' → ∀ now fault, (fault.isSome → T.faulty) →
      let served := h'.serve now fault T.client r
      T.inv served.2 ∧ T.grant h' served.2 ∧ Safe T post (next served.1) served.2

variable {T : Terms ι α} {h h' : History ι α}

/-- What the others do does not make a program unsafe. -/
theorem Safe.rely {post : β → History ι α → Prop} {p : Program α β} (hp : p.Safe T post h)
    (hr : T.rely h h') : p.Safe T post h' := by
  cases p with
  | done x => exact Terms.Lasts.rely hp hr
  | ask r next => exact fun h'' hi hr' => hp h'' hi (T.rely_trans hr hr')

/-- It is enough to look at a program when it goes on. -/
theorem safe_of_lasts {post : β → History ι α → Prop} {p : Program α β}
    (hp : T.Lasts (p.Safe T post) h) : p.Safe T post h := by
  cases p with
  | done x => exact fun h' hi hr => Terms.Lasts.now (hp h' hi hr) hi
  | ask r next => exact fun h' hi hr => hp h' hi hr h' hi (T.rely_refl h')

theorem Safe.bind {P : β → History ι α → Prop} {post : γ → History ι α → Prop}
    {p : Program α β} {f : β → Program α γ} (hp : p.Safe T P h)
    (hf : ∀ x h', T.inv h' → T.Lasts (P x) h' → (f x).Safe T post h') :
    (p >>= f).Safe T post h := by
  change (p.bind f).Safe T post h
  induction p generalizing h with
  | done x => exact safe_of_lasts fun h' hi hr => hf x h' hi (Terms.Lasts.rely hp hr)
  | ask r next ih =>
    intro h' hi hr now fault hf
    obtain ⟨hi', hg, hs⟩ := hp h' hi hr now fault hf
    exact ⟨hi', hg, ih _ hs⟩

theorem Safe.mono {post post' : β → History ι α → Prop} {p : Program α β} (hp : p.Safe T post h)
    (himp : ∀ x h', T.inv h' → post x h' → post' x h') : p.Safe T post' h := by
  induction p generalizing h with
  | done x => exact Terms.Lasts.mono hp (himp x)
  | ask r next ih =>
    intro h' hi hr now fault hf
    obtain ⟨hi', hg, hs⟩ := hp h' hi hr now fault hf
    exact ⟨hi', hg, ih _ hs⟩

/-- What no write of the program destroys, the program keeps. -/
theorem Safe.keeping {J : History ι α → Prop} {post : β → History ι α → Prop} {p : Program α β}
    (hp : p.Safe T post h) (hJ : ∀ {h h'}, J h → T.inv h' → T.grant h h' → J h') :
    p.Safe (T.keeping J) post h := by
  induction p generalizing h with
  | done x => exact fun h' hi hr => hp h' hi.1 hr
  | ask r next ih =>
    intro h' hi hr now fault hf
    obtain ⟨hi', hg, hs⟩ := hp h' hi.1 hr now fault hf
    exact ⟨⟨hi', hJ hi.2 hi' hg⟩, hg, ih _ hs⟩

theorem Safe.and {T' : Terms ι α} {post post' : β → History ι α → Prop} {p : Program α β}
    (hp : p.Safe T post h) (hp' : p.Safe T' post' h) (hclient : T'.client = T.client) :
    p.Safe (T.and T') (fun x h' => post x h' ∧ post' x h') h := by
  induction p generalizing h with
  | done x => exact fun h' hi hr => ⟨hp h' hi.1 hr.1, hp' h' hi.2 hr.2⟩
  | ask r next ih =>
    intro h' hi hr now fault hf
    obtain ⟨hi₁, hg₁, hs₁⟩ := hp h' hi.1 hr.1 now fault fun h => (hf h).1
    have h₂ := hp' h' hi.2 hr.2 now fault fun h => (hf h).2
    rw [hclient] at h₂
    exact ⟨⟨hi₁, h₂.1⟩, ⟨hg₁, h₂.2.1⟩, ih _ hs₁ h₂.2.2⟩

theorem serve_eq_reply (now : Except Overflow Instant) (i : ι) (r : Request α) (h : History ι α) :
    (h.serve now none i r).1 = (h.store.reply now r).1 ∧
      (h.serve now none i r).2.store = (h.store.reply now r).2 := by
  cases r with
  | write v condition =>
    simp only [History.serve, Store.reply, Store.write]
    split_ifs <;> exact ⟨rfl, rfl⟩
  | _ => exact ⟨rfl, rfl⟩

/-- A safe program that is alone on the store. -/
theorem Safe.run {post : β → History ι α → Prop} {p : Program α β} (hp : p.Safe T post h)
    (hi : T.inv h) (now : Except Overflow Instant) :
    ∃ h', h'.store = (p.run (Store.reply now) h.store).2 ∧ T.inv h' ∧
      post (p.run (Store.reply now) h.store).1 h' := by
  induction p generalizing h with
  | done x => exact ⟨h, rfl, hi, Terms.Lasts.now hp hi⟩
  | ask r next ih =>
    obtain ⟨hi', -, hs⟩ := hp h hi (T.rely_refl h) now none (by simp)
    obtain ⟨hreply, hstore⟩ := serve_eq_reply now T.client r h
    have := ih _ hs hi'
    rw [hreply, hstore] at this
    exact this

end Program

namespace Client

variable {T : Terms ι α} {h : History ι α}

/-- From `h` on, the client keeps its terms, and `post` holds of its outcome. -/
def Safe (T : Terms ι α) (post : Except ε β → History ι α → Prop) (c : Client α ε β)
    (h : History ι α) : Prop :=
  Program.Safe T post c.run h

theorem safe_bind {P : Except ε β → History ι α → Prop} {post : Except ε γ → History ι α → Prop}
    {c : Client α ε β} {f : β → Client α ε γ} (hc : c.Safe T P h)
    (hok : ∀ x h', T.inv h' → T.Lasts (P (.ok x)) h' → (f x).Safe T post h')
    (herr : ∀ e h', T.inv h' → T.Lasts (P (.error e)) h' → T.Lasts (post (.error e)) h') :
    Safe T post (c >>= f) h := by
  rw [Safe, ExceptT.run_bind]
  refine Program.Safe.bind hc fun x h' hi hx => ?_
  cases x with
  | ok x => exact hok x h' hi hx
  | error e => exact herr e h' hi hx

/-- The same, where nothing is claimed of failures. -/
theorem safe_bind_ok {P : Except ε β → History ι α → Prop} {post : Except ε γ → History ι α → Prop}
    {c : Client α ε β} {f : β → Client α ε γ} (hc : c.Safe T P h)
    (hok : ∀ x h', T.inv h' → T.Lasts (P (.ok x)) h' → (f x).Safe T post h')
    (herr : ∀ e h', post (.error e) h') : Safe T post (c >>= f) h :=
  safe_bind hc hok fun e _ _ _ h' _ _ => herr e h'

/-- The same, where something is claimed of results only. -/
theorem safe_bind_result {P : Except ε β → History ι α → Prop} {Q : γ → History ι α → Prop}
    {c : Client α ε β} {f : β → Client α ε γ} (hc : c.Safe T P h)
    (hok : ∀ x h', T.inv h' → T.Lasts (P (.ok x)) h' →
      (f x).Safe T (fun y h' => ∀ z, y = .ok z → Q z h') h') :
    Safe T (fun y h' => ∀ z, y = .ok z → Q z h') (c >>= f) h :=
  safe_bind_ok hc hok fun e _ z hz => by cases hz

/-- A result of which something is claimed. -/
theorem safe_pure_result {Q : β → History ι α → Prop} {x : β} (hx : T.Lasts (Q x) h) :
    Safe T (fun y h' => ∀ z, y = .ok z → Q z h') (pure x : Client α ε β) h := by
  intro h' hi hr z hz
  cases hz
  exact hx h' hi hr

/-- Two steps that come to a result, one after the other. -/
theorem safe_bind_total {c : Client α ε β} {f : β → Client α ε γ}
    (hc : c.Safe T (fun x _ => ∃ y, x = .ok y) h)
    (hf : ∀ y h', T.inv h' → (f y).Safe T (fun x _ => ∃ z, x = .ok z) h') :
    Safe T (fun x _ => ∃ z, x = .ok z) (c >>= f) h := by
  refine safe_bind hc (fun y h' hi _ => hf y h' hi) fun e h' hi he => ?_
  obtain ⟨y, hy⟩ := he.now hi
  cases hy

theorem safe_pure {post : Except ε β → History ι α → Prop} {x : β}
    (hx : T.Lasts (post (.ok x)) h) : Safe T post (pure x : Client α ε β) h := hx

theorem safe_throw {post : Except ε β → History ι α → Prop} {e : ε}
    (he : T.Lasts (post (.error e)) h) : Safe T post (throw e : Client α ε β) h := he

/-- A computation without requests, and what follows it. -/
theorem safe_compute_bind {post : Except ε γ → History ι α → Prop} {x : Except ε β}
    {f : β → Client α ε γ} (hok : ∀ y, x = .ok y → (f y).Safe T post h)
    (herr : ∀ e, x = .error e → T.Lasts (post (.error e)) h) :
    Safe T post (compute x >>= f) h := by
  cases x with
  | ok y => exact hok y rfl
  | error e => exact herr e rfl

theorem safe_adapt {post : Except ε' β → History ι α → Prop} {f : ε → ε'} {c : Client α ε β}
    (hc : c.Safe T (fun x h' => post (x.mapError f) h') h) : Safe T post (c.adapt f) h := by
  have : (c.adapt f).run = c.run >>= fun x => pure (x.mapError f) := rfl
  rw [Safe, this]
  exact Program.Safe.bind hc fun _ _ _ hx => hx

theorem safe_lift {post : Except ε β → History ι α → Prop} {p : Program α β}
    (hp : p.Safe T (fun x h' => post (.ok x) h') h) :
    Safe T post (ExceptT.lift p : Client α ε β) h := by
  have : (ExceptT.lift p : Client α ε β).run = p >>= fun x => pure (.ok x) := rfl
  rw [Safe, this]
  exact Program.Safe.bind hp fun _ _ _ hx => hx

/-- A program that does not fail, and what follows it. -/
theorem safe_lift_bind {P : β → History ι α → Prop} {post : Except ε γ → History ι α → Prop}
    {p : Program α β} {f : β → Client α ε γ} (hp : p.Safe T P h)
    (hok : ∀ x h', T.inv h' → T.Lasts (P x) h' → (f x).Safe T post h') :
    Safe T post (ExceptT.lift p >>= f) h := by
  refine safe_bind (P := fun x h' => match x with
    | .ok x => P x h'
    | .error _ => False) (safe_lift hp) hok fun e h' hi he => ?_
  exact (he.now hi).elim

/-! ## Requests -/

/-- A request that changes nothing. -/
theorem safe_look {r : Request α} {post : r.Reply → History ι α → Prop}
    (hsame : ∀ (h' : History ι α) now fault, (h'.serve now fault T.client r).2 = h')
    (hpost : ∀ h', T.inv h' → T.rely h h' → ∀ now fault, (fault.isSome → T.faulty) →
      T.Lasts (post (h'.serve now fault T.client r).1) h') :
    Program.Safe T post (Program.request r) h := by
  intro h' hi hr now fault hf
  dsimp only
  rw [hsame]
  exact ⟨hi, T.grant_refl h', hpost h' hi hr now fault hf⟩

theorem safe_get (key : String) :
    Safe T (fun x => T.Since h fun h' => x = .ok (h'.store.get? key) ∨ T.faulty ∧ x.isOk = false)
      (get key) h := by
  refine safe_look (fun _ _ _ => rfl) fun h' hi hr now fault hf h'' _ hr' => ⟨h', hi, hr, hr', ?_⟩
  cases fault with
  | some e => exact .inr ⟨hf rfl, rfl⟩
  | none => exact .inl rfl

/-- What a look at a key can have found; it fails where the key holds something else. -/
def Found (as? : View α → Option β) (key : String) (x : Except StoreError (Option β))
    (h : History ι α) : Prop :=
  match x with
  | .ok none => h.store.get? key = none
  | .ok (some y) => ∃ v, h.store.get? key = some v ∧ as? v = some y
  | .error _ => ∃ v, h.store.get? key = some v ∧ as? v = none

theorem safe_getAs (kind : ViewKind) (as? : View α → Option β) (key : String) :
    Safe T (fun x => T.Since h fun h' => Found as? key x h' ∨ T.faulty ∧ x.isOk = false)
      (getAs kind as? key) h := by
  refine safe_bind (safe_get key) (fun v h' hi hv => ?_) fun e h' hi he => ?_
  · obtain ⟨h₀, hi₀, hr₀, hr', hget⟩ := hv.now hi
    have hsince {x : Except StoreError (Option β)} (hx : Found as? key x h₀) :
        T.Lasts (T.Since h fun h' => Found as? key x h' ∨ T.faulty ∧ x.isOk = false) h' :=
      fun h'' _ hr'' => ⟨h₀, hi₀, hr₀, T.rely_trans hr' hr'', .inl hx⟩
    have hget : h₀.store.get? key = v := by
      rcases hget with hget | ⟨-, hget⟩
      · exact (Except.ok.inj hget).symm
      · cases hget
    cases v with
    | none => exact safe_pure (hsince hget)
    | some v =>
      cases hx : as? v with
      | none =>
        simp only [hx]
        exact safe_throw (hsince ⟨v, hget, hx⟩)
      | some x =>
        simp only [hx]
        exact safe_pure (hsince ⟨v, hget, hx⟩)
  · refine he.mono fun h'' _ ⟨h₀, hi₀, hr₀, hr', hget⟩ => ⟨h₀, hi₀, hr₀, hr', ?_⟩
    rcases hget with hget | ⟨hf, -⟩
    · cases hget
    · exact .inr ⟨hf, rfl⟩

/-- What follows a look at a key may rely on what was found there at some moment. -/
theorem safe_getAs_bind {post : Except ε γ → History ι α → Prop} {kind : ViewKind}
    {as? : View α → Option β} {key : String} {f : StoreError → ε} {c : Option β → Client α ε γ}
    (hok : ∀ stored h₀ h', T.inv h₀ → T.rely h h₀ → T.rely h₀ h' → Found as? key (.ok stored) h₀ →
      (c stored).Safe T post h')
    (herr : ∀ e h₀ h', T.inv h₀ → T.rely h h₀ → T.rely h₀ h' →
      Found as? key (.error e) h₀ ∨ T.faulty → post (.error (f e)) h') :
    Safe T post ((getAs kind as? key).adapt f >>= c) h := by
  refine safe_bind (P := fun x h' => ∃ y, x = y.mapError f ∧
      T.Since h (fun h' => Found as? key y h' ∨ T.faulty ∧ y.isOk = false) h')
    (safe_adapt ((safe_getAs kind as? key).mono fun x h' _ hx => ⟨x, rfl, hx⟩))
    (fun stored h' hi hx => ?_) fun e h' _ he => he.mono fun h'' hi'' hx => ?_
  · obtain ⟨y, hy, h₀, hi₀, hr₀, hr', hf⟩ := hx.now hi
    obtain rfl := mapError_eq_ok hy.symm
    rcases hf with hf | ⟨-, hf⟩
    · exact hok stored h₀ h' hi₀ hr₀ hr' hf
    · cases hf
  · obtain ⟨y, hy, h₀, hi₀, hr₀, hr', hf⟩ := hx
    obtain ⟨e', rfl, rfl⟩ := mapError_eq_error hy.symm
    exact herr e' h₀ h'' hi₀ hr₀ hr' (hf.imp_right And.left)

theorem safe_tryWrite {post : Except ε (Except StoreError Version) → History ι α → Prop}
    {v : View α} {condition : WriteCondition}
    (hput : ∀ h', T.inv h' → T.rely h h' → h'.store.allows v.key condition = true →
      T.inv (h'.put T.client v) ∧ T.grant h' (h'.put T.client v) ∧
        ∀ version, T.Lasts (post (.ok (.ok version))) (h'.put T.client v))
    (hno : ∀ e h', T.inv h' → T.rely h h' →
      h'.store.allows v.key condition = false ∨ T.faulty → T.Lasts (post (.ok (.error e))) h') :
    Safe T post (tryWrite v condition : Client α ε _) h := by
  refine safe_lift fun h' hi hr now fault hf => ?_
  cases fault with
  | some e => exact ⟨hi, T.grant_refl h', hno e h' hi hr (.inr (hf rfl))⟩
  | none =>
    simp only [History.serve]
    split_ifs with ha
    · obtain ⟨hi', hg, hp⟩ := hput h' hi hr ha
      exact ⟨hi', hg, hp _⟩
    · exact ⟨hi, T.grant_refl h', hno _ h' hi hr (.inl (Bool.eq_false_iff.2 ha))⟩

/-- A write that expects what a look at `h₀` has found: it succeeds only if the key still holds
    that, and is refused only if it does not. -/
theorem safe_writeBack {post : Except ε (Except StoreError Version) → History ι α → Prop}
    {v : View α} {version : Option Version} {h₀ : History ι α}
    (hsound : ∀ {h}, T.inv h → h.Sound) (hgrows : ∀ {h h'}, T.rely h h' → h.log <+: h'.log)
    (hi₀ : T.inv h₀) (hr₀ : T.rely h₀ h)
    (hversion : (h₀.store.get? v.key).bind View.version = version)
    (hput : ∀ h', T.inv h' → T.rely h₀ h' → h'.store.get? v.key = h₀.store.get? v.key →
      T.inv (h'.put T.client v) ∧ T.grant h' (h'.put T.client v) ∧
        ∀ version, T.Lasts (post (.ok (.ok version))) (h'.put T.client v))
    (hno : ∀ e h', T.inv h' → T.rely h h' →
      h'.store.get? v.key ≠ h₀.store.get? v.key ∨ T.faulty → T.Lasts (post (.ok (.error e))) h') :
    Safe T post (tryWrite v (.expecting version) : Client α ε _) h := by
  refine safe_tryWrite (fun h' hi hr ha => ?_) fun e h' hi hr ha => hno e h' hi hr ?_
  · have hr := T.rely_trans hr₀ hr
    rw [← hversion] at ha
    exact hput h' hi hr ((hsound hi₀).get?_of_allows (hsound hi) (hgrows hr) ha)
  · refine ha.imp_left fun ha hsame => ?_
    rw [← hversion, ← hsame, (hsound hi).allows_expecting] at ha
    cases ha

theorem safe_write {post : Except StoreError Version → History ι α → Prop} {v : View α}
    {condition : WriteCondition}
    (hput : ∀ h', T.inv h' → T.rely h h' → h'.store.allows v.key condition = true →
      T.inv (h'.put T.client v) ∧ T.grant h' (h'.put T.client v) ∧
        ∀ version, T.Lasts (post (.ok version)) (h'.put T.client v))
    (hno : ∀ e, T.Lasts (post (.error e)) h) :
    Safe T post (write v condition) h := by
  intro h' hi hr now fault _
  cases fault with
  | some e => exact ⟨hi, T.grant_refl h', (hno e).rely hr⟩
  | none =>
    simp only [History.serve]
    split_ifs with ha
    · obtain ⟨hi', hg, hp⟩ := hput h' hi hr ha
      exact ⟨hi', hg, hp _⟩
    · exact ⟨hi, T.grant_refl h', (hno _).rely hr⟩

end Client

end WeatherStation
