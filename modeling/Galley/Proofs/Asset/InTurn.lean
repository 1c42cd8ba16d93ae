import Galley.Proofs.Asset.History

/-!
# Plans in turn as a history

A plan that is run without interruption makes a history of its own questions, whatever the world
outside answers each time (`Plan.run_history`), and so do plans in turn (`Plan.inTurn_history`).
What holds at the end of every history therefore holds of them. Side by side, plans in every order
of steps come to the end of a history (`inevitably_history`).
-/

namespace Galley.Asset

variable {α β γ σ : Type} {w : World σ}

namespace World

/-- What a world in a state answers. -/
def answers (w : World σ) (x : σ) : Answers :=
  ⟨fun url mode => (w.fetch url mode x).1, fun producer => (w.produce producer x).1⟩

theorem answer_eq (w : World σ) (r : Request) (st : Store) (x : σ) :
    (w.answer r (st, x)).1 = (w.answers x).answer st r := by
  cases r with
  | keepFont | keepImage => exact Cache.getD_get?_put _ _ _
  | cachedFont | registered | cachedImage | fetch | produce => rfl

end World

namespace Plan

/-! ## Laws -/

theorem bind_assoc (p : Plan α) (f : α → Plan β) (g : β → Plan γ) :
    (p.bind f).bind g = p.bind fun a => (f a).bind g := by
  induction p with
  | done a => rfl
  | ask r next ih => exact congrArg (ask r) (funext ih)

theorem bind_done (p : Plan α) : p.bind done = p := by
  induction p with
  | done a => rfl
  | ask r next ih => exact congrArg (ask r) (funext ih)

theorem inTurn_cons (p : Plan α) (ps : List (Plan α)) :
    inTurn (p :: ps) = p.bind fun a => (inTurn ps).bind fun as => done (a :: as) := rfl

theorem inTurn_append (ps qs : List (Plan α)) :
    inTurn (ps ++ qs) =
      (inTurn ps).bind fun as => (inTurn qs).bind fun bs => done (as ++ bs) := by
  induction ps with
  | nil => exact (bind_done (inTurn qs)).symm
  | cons p ps ih =>
    rw [List.cons_append, inTurn_cons, inTurn_cons, ih]
    simp only [bind_assoc, bind, List.cons_append]

theorem inTurn_map (ps : List (Plan α)) (f : α → β) :
    inTurn (ps.map fun p => p.bind fun a => done (f a)) =
      (inTurn ps).bind fun as => done (as.map f) := by
  induction ps with
  | nil => rfl
  | cons p ps ih =>
    rw [List.map_cons, inTurn_cons, inTurn_cons, ih]
    simp only [bind_assoc, bind, List.map_cons]

/-! ## Runs -/

theorem run_ask (r : Request) (next : r.Answer → Plan α) (st : Store) (x : σ) :
    ∃ x', (ask r next).run w (st, x) =
      (next ((w.answers x).answer st r)).run w (r.after st, x') := by
  have hanswer := w.answer_eq r st x
  have hstore := w.store_answer r st x
  rw [run]
  generalize w.answer r (st, x) = result at hanswer hstore
  obtain ⟨answer, after, x'⟩ := result
  exact ⟨x', by rw [← hanswer, ← hstore]⟩

/-- **A plan that is run makes a history.** -/
theorem run_history (p : Plan α) {ps : List (Plan α)} {i : Nat} (hp : ps[i]? = some p) (st : Store)
    (x : σ) :
    ∃ es, History ⟨ps, st⟩ es ⟨ps.set i (.done (p.run w (st, x)).1), (p.run w (st, x)).2.1⟩ := by
  induction p generalizing ps st x with
  | done a =>
    obtain ⟨hi, ha⟩ := List.getElem?_eq_some_iff.1 hp
    have hsame : ps.set i (.done a) = ps := by rw [← ha, List.set_getElem_self]
    refine ⟨[], ?_⟩
    show History _ _ ⟨ps.set i (.done a), st⟩
    rw [hsame]
    exact .nil _
  | ask r next ih =>
    obtain ⟨x', hrun⟩ := run_ask (w := w) r next st x
    have hi : i < ps.length := (List.getElem?_eq_some_iff.1 hp).1
    have hnext : (ps.set i (next ((w.answers x).answer st r)))[i]? =
        some (next ((w.answers x).answer st r)) := by
      simp [hi]
    obtain ⟨es, hes⟩ := ih _ hnext (r.after st) x'
    rw [List.set_set] at hes
    rw [hrun]
    exact ⟨_, .cons (.asked i (w.answers x) hp) hes⟩

theorem run_inTurn_cons (p : Plan α) (ps : List (Plan α)) (state : Store × σ) :
    (inTurn (p :: ps)).run w state =
      ((p.run w state).1 :: ((inTurn ps).run w (p.run w state).2).1,
        ((inTurn ps).run w (p.run w state).2).2) := by
  rw [inTurn, run_bind, run_bind, run_pure]

theorem length_run_inTurn (ps : List (Plan α)) (state : Store × σ) :
    ((inTurn ps).run w state).1.length = ps.length := by
  induction ps generalizing state with
  | nil => rfl
  | cons p ps ih => rw [run_inTurn_cons, List.length_cons, List.length_cons, ih]

theorem run_map (p : Plan α) (f : α → β) (state : Store × σ) :
    (p.bind fun a => done (f a)).run w state = (f (p.run w state).1, (p.run w state).2) :=
  run_bind w p (fun a => done (f a)) state

/-- **Plans in turn make a history**, while others wait. -/
theorem inTurn_history (ps : List (Plan α)) (as : List α) (others : List (Plan α)) (st : Store)
    (x : σ) :
    ∃ es, History ⟨as.map .done ++ ps ++ others, st⟩ es
      ⟨(as ++ ((inTurn ps).run w (st, x)).1).map .done ++ others,
        ((inTurn ps).run w (st, x)).2.1⟩ := by
  induction ps generalizing as st x with
  | nil => exact ⟨[], by simpa [inTurn] using History.nil _⟩
  | cons p ps ih =>
    have hp : (as.map done ++ p :: ps ++ others)[as.length]? = some p := by simp
    obtain ⟨es, hes⟩ := run_history (w := w) p hp st x
    generalize hresult : p.run w (st, x) = result at hes
    obtain ⟨a, st', x'⟩ := result
    obtain ⟨fs, hfs⟩ := ih (as ++ [a]) st' x'
    have hset : (as.map done ++ p :: ps ++ others).set as.length (done a) =
        (as ++ [a]).map done ++ ps ++ others := by
      simp
    rw [hset] at hes
    rw [run_inTurn_cons, hresult]
    exact ⟨es ++ fs, by simpa using hes.append hfs⟩

end Plan

/-! ## Side by side -/

/-- A step is an event. -/
theorem Step.happens {p p' : Pool α σ} (h : Step w p p') :
    ∃ e, Happens ⟨p.plans, p.state.1⟩ e ⟨p'.plans, p'.state.1⟩ := by
  suffices hasked : ∃ (i : Nat) (A : Answers) (r : Request) (next : r.Answer → Plan α),
      p.plans[i]? = some (.ask r next) ∧
        p'.plans = p.plans.set i (next (A.answer p.state.1 r)) ∧
        p'.state.1 = r.after p.state.1 by
    obtain ⟨i, A, r, next, hi, hplans, hstore⟩ := hasked
    rw [hplans, hstore]
    exact ⟨_, .asked i A hi⟩
  induction h with
  | head r next ps state =>
    obtain ⟨st, x⟩ := state
    exact ⟨0, w.answers x, r, next, rfl, by simp [w.answer_eq], w.store_answer r st x⟩
  | tail p _ ih =>
    obtain ⟨i, A, r, next, hi, hplans, hstore⟩ := ih
    exact ⟨i + 1, A, r, next, hi, congrArg (p :: ·) hplans, hstore⟩

/-- **Every order of steps ends, as a history**, whatever happened before. -/
theorem inevitably_history (w : World σ) (c : Shared α) (x : σ) :
    Inevitably w (fun as after => ∃ es, History c es ⟨as.map .done, after.1⟩)
      ⟨c.plans, (c.store, x)⟩ := by
  refine inevitably_of_invariant (I := fun p => ∃ es, History c es ⟨p.plans, p.state.1⟩) ?_ ?_
    ⟨[], .nil c⟩
  · rintro p p' ⟨es, hes⟩ hstep
    obtain ⟨e, he⟩ := hstep.happens
    exact ⟨es ++ [e], hes.append (.cons he (.nil _))⟩
  · exact fun as state h => h

end Galley.Asset
