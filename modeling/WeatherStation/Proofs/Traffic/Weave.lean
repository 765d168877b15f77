import WeatherStation.Proofs.Traffic.Terms
import WeatherStation.Store.Turns

/-!
# Programs side by side

A program weaves others if it makes their requests one at a time, in any order, until all of them
are done. If the others keep terms that fit together, the program that weaves them keeps terms, too,
and the result of each of them is among its results.

Results:
* `Program.Weave`: a program that weaves others.
* `Program.Weave.together`: programs that take turns are woven.
* `Program.Weave.safe`: what holds of the results of woven programs.
-/

namespace WeatherStation

namespace Program

variable {ι α β : Type}

/-- The program makes the requests of some others, one at a time and in any order, until all are
    done; the results come in the order in which they finish. Their pauses take time, but it does
    not matter how much. -/
inductive Weave : List (Program α β) → Program α (List β) → Prop
  | done : Weave [] (.done [])
  | finish {ps rest : List (Program α β)} {x : β} {q : Program α (List β)} :
      ps.Perm (.done x :: rest) → Weave rest q → Weave ps (q >>= fun xs => pure (x :: xs))
  | ask {ps rest : List (Program α β)} {r : Request α} {next : r.Reply → Program α β}
      {k : r.Reply → Program α (List β)} :
      ps.Perm (.ask r next :: rest) → (∀ reply, Weave (next reply :: rest) (k reply)) →
        Weave ps (.ask r k)
  | slept {ps rest : List (Program α β)} {d : ℕ} {next : Unit → Program α β}
      {q : Program α (List β)} :
      ps.Perm (.ask (.pause d) next :: rest) → Weave (next () :: rest) q → Weave ps q
  | wait {ps : List (Program α β)} {d : ℕ} {k : Unit → Program α (List β)} :
      Weave ps (k ()) → Weave ps (.ask (.pause d) k)

namespace Weave

theorem perm {ps ps' : List (Program α β)} {q : Program α (List β)} (hw : Weave ps q)
    (hp : ps'.Perm ps) : Weave ps' q := by
  induction hw generalizing ps' with
  | done =>
    rw [hp.eq_nil]
    exact .done
  | finish hp' hw _ => exact .finish (hp.trans hp') hw
  | ask hp' hw _ => exact .ask (hp.trans hp') hw
  | slept hp' hw _ => exact .slept (hp.trans hp') hw
  | wait _ ih => exact .wait (ih hp)

/-! ## Turns -/

/-- The first of some programs has a turn. -/
theorem turn (rest : List (Program α β)) {f : Turn α β → Program α (List β)}
    (hfinished : ∀ x, Weave (.done x :: rest) (f (.finished x)))
    (hyielded : ∀ p, Weave (p :: rest) (f (.yielded p)))
    (hasleep : ∀ d p, Weave (p :: rest) (f (.asleep d p))) (p : Program α β) (patience : ℕ) :
    Weave (p :: rest) (p.turn patience >>= f) := by
  induction p generalizing patience with
  | done x =>
    rw [Program.turn.eq_def]
    exact hfinished x
  | ask r next ih =>
    cases r with
    | pause d =>
      cases d with
      | zero =>
        cases patience with
        | zero =>
          rw [Program.turn.eq_def]
          exact hyielded _
        | succ patience =>
          rw [Program.turn.eq_def]
          exact .slept (List.Perm.refl _) (ih () patience)
      | succ d =>
        rw [Program.turn.eq_def]
        exact .slept (List.Perm.refl _) (hasleep _ _)
    | _ =>
      rw [Program.turn.eq_def]
      exact .ask (List.Perm.refl _) fun reply => ih reply patience

theorem runThrough (ps : List (Program α β)) : Weave ps (Program.runThrough ps) := by
  induction ps with
  | nil => exact .done
  | cons p ps ih =>
    induction p with
    | done x => exact .finish (List.Perm.refl _) ih
    | ask r next ihp => exact .ask (List.Perm.refl _) fun reply => ihp reply

theorem all_sleep (d : ℕ) (p : Program α β) (q : Queue α β) :
    (q.sleep d p).all.Perm (p :: q.all) := by
  have hsplit := List.takeWhile_append_dropWhile (p := fun e : ℕ × Program α β => decide (e.1 ≤ d))
    (l := q.asleep)
  simp only [Queue.all, Queue.sleep, List.map_append, List.map_cons]
  rw [← List.append_assoc]
  refine List.perm_middle.trans (List.Perm.cons p ?_)
  rw [List.append_assoc, ← List.map_append, hsplit]

/-- Waiting neither adds nor removes a program, and gives some program its turn if there is one. -/
theorem all_wake (q : Queue α β) :
    q.wake.2.all.Perm q.all ∧ (q.wake.2.ready = [] → q.wake.2.all = []) := by
  obtain ⟨ready, yielded, asleep⟩ := q
  cases ready with
  | cons p ready => exact ⟨List.Perm.refl _, fun h => by cases h⟩
  | nil =>
    cases yielded with
    | cons p yielded => exact ⟨by simp [Queue.wake, Queue.all], fun h => by cases h⟩
    | nil =>
      cases asleep with
      | nil => exact ⟨List.Perm.refl _, fun _ => rfl⟩
      | cons e asleep =>
        refine ⟨?_, fun h => by cases h⟩
        have hsplit := List.takeWhile_append_dropWhile
          (p := fun a : ℕ × Program α β => decide (a.1 ≤ e.1)) (l := asleep)
        have hwaiting : (⟨[], [], e :: asleep⟩ : Queue α β).wake.2.all =
            e.2 :: ((asleep.takeWhile (·.1 ≤ e.1)).map (·.2) ++
              (asleep.dropWhile (·.1 ≤ e.1)).map (·.2)) := by
          simp [Queue.wake, Queue.all, Function.comp_def]
        rw [hwaiting, ← List.map_append, hsplit]
        exact List.Perm.refl _

/-- The turn of the first program of a queue, and the turns after it. -/
def round (turns : ℕ) (q : Queue α β) : Program α (List β) :=
  match q.ready with
  | [] => return []
  | p :: rest => do
    let q := { q with ready := rest }
    match ← p.turn patience with
    | .finished x => return x :: (← Program.takeTurns turns q)
    | .yielded p => Program.takeTurns turns { q with yielded := p :: q.yielded }
    | .asleep time p => Program.takeTurns turns (q.sleep time p)

theorem takeTurns_succ (turns : ℕ) (q : Queue α β) :
    Program.takeTurns (turns + 1) q = (do
      if q.wake.1 ≠ 0 then request (.pause q.wake.1)
      round turns q.wake.2) := rfl

theorem takeTurns (turns : ℕ) (q : Queue α β) : Weave q.all (Program.takeTurns turns q) := by
  induction turns generalizing q with
  | zero => exact runThrough q.all
  | succ turns ih =>
    have hround (q : Queue α β) (hnil : q.ready = [] → q.all = []) :
        Weave q.all (round turns q) := by
      obtain ⟨ready, yielded, asleep⟩ := q
      cases ready with
      | nil =>
        rw [hnil rfl]
        exact .done
      | cons p rest =>
        refine turn (⟨rest, yielded, asleep⟩ : Queue α β).all
          (fun x => .finish (List.Perm.refl _) (ih _)) (fun p => (ih _).perm ?_)
          (fun d p => (ih _).perm (all_sleep d p _).symm) p patience
        simp only [Queue.all, List.append_assoc, List.cons_append]
        exact List.perm_middle.symm
    obtain ⟨hperm, hnil⟩ := all_wake q
    have hturn := (hround q.wake.2 hnil).perm hperm.symm
    rw [takeTurns_succ]
    split_ifs
    · exact .wait hturn
    · exact hturn

/-- Programs that take turns are woven. -/
theorem together (turns : ℕ) (ps : List (Program α β)) : Weave ps (Program.together turns ps) := by
  have hall : (⟨ps, [], []⟩ : Queue α β).all = ps := by simp [Queue.all]
  have h := takeTurns turns (⟨ps, [], []⟩ : Queue α β)
  rw [hall] at h
  exact h

end Weave

end Program

/-! ## Terms of woven programs -/

namespace Terms

variable {ι α : Type}

/-- Terms of a part of a client. -/
structure Fits (s T : Terms ι α) : Prop where
  client : s.client = T.client
  inv : s.inv = T.inv
  rely : ∀ {h h'}, T.rely h h' → s.rely h h'
  grant : ∀ {h h'}, s.grant h h' → T.grant h h'
  faulty : T.faulty → s.faulty

theorem Fits.refl (T : Terms ι α) : T.Fits T := ⟨rfl, rfl, id, id, id⟩

/-- On each of two terms one puts up with what the other may do. -/
def Apart (s s' : Terms ι α) : Prop :=
  (∀ h h', s.grant h h' → s'.rely h h') ∧ ∀ h h', s'.grant h h' → s.rely h h'

theorem Apart.symm {s s' : Terms ι α} (h : Apart s s') : Apart s' s := And.symm h

end Terms

/-- The terms of one of several programs, and what holds of its result. -/
structure Task (ι α β : Type) where
  terms : Terms ι α
  post : β → History ι α → Prop

/-- Lists of equal length whose members belong together one by one. -/
theorem exists_of_forall₂ {β γ : Type} {R : β → γ → Prop} {xs : List β} {ys : List γ}
    (h : List.Forall₂ R xs ys) {x : β} (hx : x ∈ xs) : ∃ y ∈ ys, R x y := by
  induction h with
  | nil => cases hx
  | @cons x' y xs ys hxy _ ih =>
    rcases List.mem_cons.1 hx with rfl | hx
    · exact ⟨y, List.mem_cons_self, hxy⟩
    · obtain ⟨y', hy', hxy'⟩ := ih hx
      exact ⟨y', List.mem_cons_of_mem y hy', hxy'⟩

namespace Task

variable {ι α β : Type}

/-- The task of the first of some programs, and the tasks of the others. -/
theorem pick {γ δ : Type} {R : γ → δ → Prop} {l rest : List γ} {x : γ} {tasks : List δ}
    (hl : l.Perm (x :: rest)) (hR : List.Forall₂ R l tasks) :
    ∃ s ts, tasks.Perm (s :: ts) ∧ R x s ∧ List.Forall₂ R rest ts := by
  obtain ⟨tasks', hR', hperm⟩ := List.perm_comp_forall₂ hl.symm hR
  cases hR' with
  | cons hs hrest => exact ⟨_, _, hperm.symm, hs, hrest⟩

/-- Tasks stay safe as long as nothing happens that they do not put up with. -/
theorem forall₂_rely {ps : List (Program α β)} {tasks : List (Task ι α β)} {h h' : History ι α}
    (hps : List.Forall₂ (fun p s => p.Safe s.terms s.post h) ps tasks)
    (hr : ∀ s ∈ tasks, s.terms.rely h h') :
    List.Forall₂ (fun p s => p.Safe s.terms s.post h') ps tasks := by
  induction hps with
  | nil => exact .nil
  | @cons p s ps ts hs _ ih =>
    exact .cons (hs.rely (hr s List.mem_cons_self))
      (ih fun s' hs' => hr s' (List.mem_cons_of_mem s hs'))

end Task

/-- Woven programs that keep terms which fit together: the results are those of the programs, in the
    order in which they finish, and what all of them leave alone stays. -/
theorem Program.Weave.safe {ι α β : Type} {T : Terms ι α} {ps : List (Program α β)}
    {q : Program α (List β)} (hw : Weave ps q) {tasks : List (Task ι α β)} {h : History ι α}
    {F : History ι α → Prop} (hps : List.Forall₂ (fun p s => p.Safe s.terms s.post h) ps tasks)
    (hfits : ∀ s ∈ tasks, s.terms.Fits T)
    (hapart : tasks.Pairwise fun s s' => s.terms.Apart s'.terms) (hF : F h)
    (hrely : ∀ h h', T.rely h h' → F h → F h')
    (hgrant : ∀ s ∈ tasks, ∀ h h', s.terms.grant h h' → F h → F h') :
    q.Safe T (fun xs h' => F h' ∧ ∃ finished : List (Task ι α β), finished.Perm tasks ∧
      List.Forall₂ (fun x s => s.post x h') xs finished) h := by
  induction hw generalizing tasks h F with
  | done =>
    cases hps
    exact fun h' _ hr => ⟨hrely _ _ hr hF, [], List.Perm.refl _, .nil⟩
  | @finish ps rest x q hp hw ih =>
    obtain ⟨s, ts, hperm, hs, hrest⟩ := Task.pick hp hps
    obtain ⟨hsapart, hts⟩ := List.pairwise_cons.1 ((hperm.pairwise_iff Terms.Apart.symm).1 hapart)
    have hfit := hfits s (hperm.mem_iff.2 List.mem_cons_self)
    have hmem {s'} (hs' : s' ∈ ts) : s' ∈ tasks := hperm.mem_iff.2 (List.mem_cons_of_mem s hs')
    -- What the finished task has achieved is left alone by all others.
    have hq := ih (F := fun h' => F h' ∧ s.terms.Lasts (s.post x) h') hrest
      (fun s' hs' => hfits s' (hmem hs')) hts ⟨hF, hs⟩
      (fun _ _ hr hF' => ⟨hrely _ _ hr hF'.1, hF'.2.rely (hfit.rely hr)⟩)
      (fun s' hs' _ _ hg hF' =>
        ⟨hgrant s' (hmem hs') _ _ hg hF'.1, hF'.2.rely ((hsapart s' hs').2 _ _ hg)⟩)
    refine hq.bind fun xs h' hi hx => hx.mono fun h'' hi' hx' => ?_
    obtain ⟨⟨hF', hpost⟩, finished, hperm', hposts⟩ := hx'
    exact ⟨hF', s :: finished, (hperm'.cons s).trans hperm.symm,
      .cons (hpost.now (hfit.inv ▸ hi')) hposts⟩
  | @ask ps rest r next k hp hw ih =>
    obtain ⟨s, ts, hperm, hs, hrest⟩ := Task.pick hp hps
    have hapart' := (hperm.pairwise_iff Terms.Apart.symm).1 hapart
    have hfit := hfits s (hperm.mem_iff.2 List.mem_cons_self)
    intro h' hi hr now fault hf
    obtain ⟨hi', hg, hs'⟩ := hs h' (hfit.inv ▸ hi) (hfit.rely hr) now fault fun h =>
      hfit.faulty (hf h)
    have hrest' := Task.forall₂_rely hrest fun s' hs' =>
      s'.terms.rely_trans ((hfits s' (hperm.mem_iff.2 (List.mem_cons_of_mem s hs'))).rely hr)
        (((List.pairwise_cons.1 hapart').1 s' hs').1 _ _ hg)
    have hnext := ih _ (.cons hs' hrest') (fun s' hs' => hfits s' (hperm.mem_iff.2 hs')) hapart'
      (hgrant s (hperm.mem_iff.2 List.mem_cons_self) _ _ hg (hrely _ _ hr hF)) hrely
      fun s' hs' => hgrant s' (hperm.mem_iff.2 hs')
    rw [hfit.client] at hi' hg hnext
    rw [hfit.inv] at hi'
    refine ⟨hi', hfit.grant hg, hnext.mono fun xs h'' _ hx => ?_⟩
    obtain ⟨hF', finished, hperm', hposts⟩ := hx
    exact ⟨hF', finished, hperm'.trans hperm.symm, hposts⟩
  | @slept ps rest d next q hp hw ih =>
    obtain ⟨s, ts, hperm, hs, hrest⟩ := Task.pick hp hps
    have hnext : (next ()).Safe s.terms s.post h :=
      safe_of_lasts fun h' hi hr => (hs h' hi hr (.error .calendar) none (by simp)).2.2
    have hq := ih (.cons hnext hrest) (fun s' hs' => hfits s' (hperm.mem_iff.2 hs'))
      ((hperm.pairwise_iff Terms.Apart.symm).1 hapart) hF hrely
      fun s' hs' => hgrant s' (hperm.mem_iff.2 hs')
    refine hq.mono fun xs h'' _ hx => ?_
    obtain ⟨hF', finished, hperm', hposts⟩ := hx
    exact ⟨hF', finished, hperm'.trans hperm.symm, hposts⟩
  | @wait ps d k hw ih =>
    intro h' hi hr now fault _
    have hps' := Task.forall₂_rely hps fun s hs => (hfits s hs).rely hr
    exact ⟨hi, T.grant_refl h', ih hps' hfits hapart (hrely _ _ hr hF) hrely hgrant⟩

end WeatherStation
