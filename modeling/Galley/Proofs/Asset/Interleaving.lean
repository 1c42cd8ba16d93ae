import Galley.Asset.Store
import Mathlib

/-!
# Plans side by side

Plans that share a store ask their questions in any order, one question at a time (`Step`).
`Inevitably` says that every such order comes to an end, and with what.

A plan is described by what it ensures among others (`Plan.Ensures`): between two of its questions
the store may change, but only by permitted changes; the plan itself makes no others; and when it
is done, its result and the store are of a kind. The world outside is taken to answer alike
whatever happened (`World.Gives`).

**Theorem (`inevitably_of_ensures`).** Plans that ensure something each, while they permit the same
changes, inevitably end with all of it. A plan alone does too (`Plan.Ensures.run`), and so do plans
in turn (`Plan.Ensures.inTurn`).
-/

namespace Galley.Asset

variable {α β ι σ : Type} {w : World σ}

/-! ## Steps -/

/-- Plans that run side by side, and the state that they share. -/
structure Pool (α σ : Type) where
  plans : List (Plan α)
  state : Store × σ

/-- One of the plans asks its next question. -/
inductive Step (w : World σ) : Pool α σ → Pool α σ → Prop
  | head (r : Request) (next : r.Answer → Plan α) (ps : List (Plan α)) (state : Store × σ) :
      Step w ⟨.ask r next :: ps, state⟩
        ⟨next (w.answer r state).1 :: ps, (w.answer r state).2⟩
  | tail (p : Plan α) {ps ps' : List (Plan α)} {state state' : Store × σ}
      (h : Step w ⟨ps, state⟩ ⟨ps', state'⟩) : Step w ⟨p :: ps, state⟩ ⟨p :: ps', state'⟩

/-- Every order of steps comes to an end, with results and a state of a kind. -/
inductive Inevitably (w : World σ) (Q : List α → Store × σ → Prop) : Pool α σ → Prop
  | done (as : List α) (state : Store × σ) (h : Q as state) : Inevitably w Q ⟨as.map .done, state⟩
  | step {p : Pool α σ} (hmove : ∃ p', Step w p p')
      (hrest : ∀ p', Step w p p' → Inevitably w Q p') : Inevitably w Q p

theorem Inevitably.mono {Q Q' : List α → Store × σ → Prop} {p : Pool α σ}
    (hQ : ∀ as state, Q as state → Q' as state) (h : Inevitably w Q p) : Inevitably w Q' p := by
  induction h with
  | done as state h => exact .done as state (hQ as state h)
  | step hmove _ ih => exact .step hmove ih

/-! ## Every order ends -/

/-- One of the plans has gone on with some answer. -/
inductive Shorter : List (Plan α) → List (Plan α) → Prop
  | head (r : Request) (next : r.Answer → Plan α) (answer : r.Answer) (ps : List (Plan α)) :
      Shorter (next answer :: ps) (.ask r next :: ps)
  | tail (p : Plan α) {ps ps' : List (Plan α)} (h : Shorter ps' ps) :
      Shorter (p :: ps') (p :: ps)

theorem Step.shorter {p p' : Pool α σ} (h : Step w p p') : Shorter p'.plans p.plans := by
  induction h with
  | head r next ps state => exact .head r next _ ps
  | tail p _ ih => exact .tail p ih

theorem shorter_acc (ps : List (Plan α)) : Acc Shorter ps := by
  -- One more plan: by induction on it, and for each of its stages on the moves of the others.
  have hcons : ∀ (p : Plan α) (ps : List (Plan α)), Acc Shorter ps → Acc Shorter (p :: ps) := by
    intro p
    induction p with
    | done a =>
      intro ps hps
      induction hps with
      | intro ps _ ih =>
        refine .intro _ fun qs hqs => ?_
        cases hqs with
        | tail _ h => exact ih _ h
    | ask r next ihnext =>
      intro ps hps
      induction hps with
      | intro ps hps ih =>
        refine .intro _ fun qs hqs => ?_
        cases hqs with
        | head _ _ answer _ => exact ihnext answer ps (.intro _ hps)
        | tail _ h => exact ih _ h
  induction ps with
  | nil => exact .intro _ fun qs hqs => nomatch hqs
  | cons p ps ih => exact hcons p ps ih

theorem done_or_step (w : World σ) (ps : List (Plan α)) (state : Store × σ) :
    (∃ as : List α, ps = as.map .done) ∨ ∃ p', Step w ⟨ps, state⟩ p' := by
  induction ps with
  | nil => exact .inl ⟨[], rfl⟩
  | cons p ps ih =>
    cases p with
    | ask r next => exact .inr ⟨_, .head r next ps state⟩
    | done a =>
      rcases ih with ⟨as, rfl⟩ | ⟨⟨ps', state'⟩, h⟩
      · exact .inl ⟨a :: as, rfl⟩
      · exact .inr ⟨_, .tail (.done a) h⟩

/-- **What every step keeps holds in the end, and there is an end.** -/
theorem inevitably_of_invariant {I : Pool α σ → Prop} {Q : List α → Store × σ → Prop}
    (hstep : ∀ p p', I p → Step w p p' → I p')
    (hend : ∀ as state, I ⟨as.map .done, state⟩ → Q as state) {p : Pool α σ} (h : I p) :
    Inevitably w Q p := by
  obtain ⟨ps, state⟩ := p
  induction shorter_acc ps generalizing state with
  | intro ps _ ih =>
    rcases done_or_step w ps state with ⟨as, rfl⟩ | hmove
    · exact .done as state (hend as state h)
    · exact .step hmove fun p' hp' => ih p'.plans hp'.shorter p'.state (hstep _ _ h hp')

/-! ## Worlds that answer alike -/

/-- What a world answers whatever happened before. -/
structure Answers where
  fetch : String → Mode → Reply
  produce : Image.Producer → Except Report Image.Source

/-- The world gives these answers. -/
structure World.Gives (w : World σ) (A : Answers) : Prop where
  fetch : ∀ url mode x, (w.fetch url mode x).1 = A.fetch url mode
  produce : ∀ producer x, (w.produce producer x).1 = A.produce producer

/-- The world that gives answers and has no state. -/
def Answers.world (A : Answers) : World Unit :=
  ⟨fun url mode x => (A.fetch url mode, x), fun producer x => (A.produce producer, x)⟩

theorem Answers.world_gives (A : Answers) : A.world.Gives A := ⟨fun _ _ _ => rfl, fun _ _ => rfl⟩

/-- The answer to a question over a store. -/
def Answers.answer (A : Answers) (s : Store) : (r : Request) → r.Answer
  | .cachedFont face => s.fonts.get? face
  | .keepFont font => (s.fonts.get? font.face).getD font
  | .registered face => s.registry.lookup? face
  | .cachedImage url => s.images.get? url
  | .keepImage url image => (s.images.get? url).getD image
  | .fetch url mode => A.fetch url mode
  | .produce producer => A.produce producer

/-- The store after a question. -/
def Request.after (s : Store) : Request → Store
  | .keepFont font => { s with fonts := s.fonts.put font.face font }
  | .keepImage url image => { s with images := s.images.put url image }
  | _ => s

theorem Cache.getD_get?_put {κ : Type} [DecidableEq κ] (c : Cache κ α) (k : κ) (v : α) :
    ((c.put k v).get? k).getD v = (c.get? k).getD v := by
  rw [get?_put]
  cases c.get? k <;> simp

theorem World.Gives.answer {A : Answers} (h : w.Gives A) (r : Request) (s : Store) (x : σ) :
    (w.answer r (s, x)).1 = A.answer s r := by
  cases r with
  | keepFont font => exact Cache.getD_get?_put _ _ _
  | keepImage url image => exact Cache.getD_get?_put _ _ _
  | fetch url mode => exact h.fetch url mode x
  | produce producer => exact h.produce producer x
  | cachedFont | registered | cachedImage => rfl

theorem World.store_answer (w : World σ) (r : Request) (s : Store) (x : σ) :
    (w.answer r (s, x)).2.1 = r.after s := by
  cases r <;> rfl

/-! ## What a plan ensures among others -/

/-- Changes that may happen to a store between two questions. -/
structure Change where
  Holds : Store → Store → Prop
  refl : ∀ s, Holds s s
  trans : ∀ {s t u}, Holds s t → Holds t u → Holds s u

variable {A : Answers} {c : Change}

/-- The changes do not undo what is said of a result and a store. -/
def Change.Keeps (c : Change) (Q : α → Store → Prop) : Prop :=
  ∀ a s t, c.Holds s t → Q a s → Q a t

namespace Plan

/-- From a store on, and whatever permitted changes happen, a plan makes permitted changes only and
ends as it should. -/
def Ensures (A : Answers) (c : Change) (Q : α → Store → Prop) : Plan α → Store → Prop
  | .done a, s => Q a s
  | .ask r next, s => ∀ t, c.Holds s t →
      c.Holds t (r.after t) ∧ (next (A.answer t r)).Ensures A c Q (r.after t)

namespace Ensures

variable {Q Q' : α → Store → Prop} {p : Plan α} {s t : Store}

theorem mono (hQ : ∀ a s, Q a s → Q' a s) (h : p.Ensures A c Q s) : p.Ensures A c Q' s := by
  induction p generalizing s with
  | done a => exact hQ a s h
  | ask r next ih => exact fun t ht => ⟨(h t ht).1, ih _ (h t ht).2⟩

/-- Permitted changes before the plan goes on do no harm. -/
theorem later (hQ : c.Keeps Q) (h : p.Ensures A c Q s) (hst : c.Holds s t) :
    p.Ensures A c Q t := by
  cases p with
  | done a => exact hQ a s t hst h
  | ask r next => exact fun u hu => h u (c.trans hst hu)

theorem holds (h : p.Ensures A c Q s) : p.Ensures A c (fun a t => Q a t ∧ c.Holds s t) s := by
  induction p generalizing s with
  | done a => exact ⟨h, c.refl s⟩
  | ask r next ih =>
    intro t ht
    obtain ⟨hown, hnext⟩ := h t ht
    refine ⟨hown, (ih _ hnext).mono fun a u hu => ⟨hu.1, ?_⟩⟩
    exact c.trans ht (c.trans hown hu.2)

theorem bind {Q : β → Store → Prop} {f : α → Plan β}
    (h : p.Ensures A c (fun a t => (f a).Ensures A c Q t) s) : (p.bind f).Ensures A c Q s := by
  induction p generalizing s with
  | done a => exact h
  | ask r next ih => exact fun t ht => ⟨(h t ht).1, ih _ (h t ht).2⟩

theorem run (hw : w.Gives A) (h : p.Ensures A c Q s) (x : σ) :
    Q (p.run w (s, x)).1 (p.run w (s, x)).2.1 := by
  induction p generalizing s x with
  | done a => exact h
  | ask r next ih =>
    obtain ⟨-, hnext⟩ := h s (c.refl s)
    have hanswer := hw.answer r s x
    have hstore := w.store_answer r s x
    rw [Plan.run]
    generalize w.answer r (s, x) = result at hanswer hstore
    obtain ⟨answer, after, x'⟩ := result
    obtain rfl : answer = A.answer s r := hanswer
    obtain rfl : after = r.after s := hstore
    exact ih _ hnext x'

/-- **Plans in turn** end as each of them should. -/
theorem inTurn {Q : ι → α → Store → Prop} (hQ : ∀ i, c.Keeps (Q i)) {is : List ι}
    {ps : List (Plan α)} (h : List.Forall₂ (fun i p => p.Ensures A c (Q i) s) is ps) :
    (Plan.inTurn ps).Ensures A c (fun as t => List.Forall₂ (fun i a => Q i a t) is as) s := by
  induction is generalizing ps s with
  | nil =>
    cases h
    exact .nil
  | cons i is ih =>
    obtain ⟨p, ps, hp, hps, rfl⟩ := List.forall₂_cons_left_iff.1 h
    refine bind (hp.holds.mono fun a t ⟨ha, hst⟩ => ?_)
    have hrest := ih (hps.imp fun i p hp => hp.later (hQ i) hst)
    -- While the others run, what the first one ensured stays.
    refine bind (hrest.holds.mono fun as u ⟨has, htu⟩ => ?_)
    exact .cons (hQ i a t u htu ha) has

end Ensures

end Plan

/-! ## Plans that ensure something each -/

theorem ensures_step (hw : w.Gives A) {Q : ι → α → Store → Prop} (hQ : ∀ i, c.Keeps (Q i))
    {is : List ι} {p p' : Pool α σ}
    (h : List.Forall₂ (fun i q => q.Ensures A c (Q i) p.state.1) is p.plans) (hstep : Step w p p') :
    List.Forall₂ (fun i q => q.Ensures A c (Q i) p'.state.1) is p'.plans ∧
      c.Holds p.state.1 p'.state.1 := by
  induction hstep generalizing is with
  | head r next ps state =>
    obtain ⟨i, is, hp, hps, rfl⟩ := List.forall₂_cons_right_iff.1 h
    obtain ⟨s, x⟩ := state
    obtain ⟨hown, hnext⟩ := hp s (c.refl s)
    show List.Forall₂ _ _ (next (w.answer r (s, x)).1 :: ps) ∧ c.Holds s (w.answer r (s, x)).2.1
    rw [w.store_answer, hw.answer]
    exact ⟨.cons hnext (hps.imp fun i p hp => hp.later (hQ i) hown), hown⟩
  | tail p _ ih =>
    obtain ⟨i, is, hp, hps, rfl⟩ := List.forall₂_cons_right_iff.1 h
    obtain ⟨hrest, hholds⟩ := ih hps
    exact ⟨.cons (hp.later (hQ i) hholds) hrest, hholds⟩

/-- **In every order, plans end as each of them should.** -/
theorem inevitably_of_ensures (hw : w.Gives A) {Q : ι → α → Store → Prop}
    (hQ : ∀ i, c.Keeps (Q i)) {is : List ι} {ps : List (Plan α)} {s : Store}
    (h : List.Forall₂ (fun i p => p.Ensures A c (Q i) s) is ps) (x : σ) :
    Inevitably w (fun as state => List.Forall₂ (fun i a => Q i a state.1) is as ∧
      c.Holds s state.1) ⟨ps, (s, x)⟩ := by
  refine inevitably_of_invariant
    (I := fun p => List.Forall₂ (fun i q => q.Ensures A c (Q i) p.state.1) is p.plans ∧
      c.Holds s p.state.1) ?_ ?_ ⟨h, c.refl s⟩
  · rintro p p' ⟨hp, hs⟩ hstep
    obtain ⟨hp', hholds⟩ := ensures_step hw hQ hp hstep
    exact ⟨hp', c.trans hs hholds⟩
  · rintro as state ⟨has, hs⟩
    exact ⟨List.forall₂_map_right_iff.1 has, hs⟩

end Galley.Asset
