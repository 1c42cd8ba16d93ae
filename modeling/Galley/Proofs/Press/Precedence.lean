import Galley.Proofs.Press.Accounting

/-!
# Which failure comes first

A rendering fails for want of an engine, for a fault of its tree, for want of any font, or in its
engine; it does not fail for an image.

**Theorem (`render_precedence`).** A name without an engine comes first and a fault of the tree
second. In these cases nothing is asked and the store stays as it is. Otherwise, whatever the world
outside answers and whatever happens meanwhile, the engine is not run exactly if all requests for
fonts failed, and the fault is the one of the first request; and else the result is the engine's.

The rendering is put as a course (`Course`): a fault at once, or plans that may run side by side
and what their outcomes come to. In turn they are the plan of the rendering (`rendering_inTurn`).
-/

namespace Galley.Asset

/-! ## Outcomes that settle to a fault -/

section Settle

variable {α : Type} {os : List (Except Fault α)}

theorem successes_eq_nil_iff : successes os = [] ↔ ∀ o ∈ os, ∃ fault, o = .error fault := by
  induction os with
  | nil => simp [successes]
  | cons o os ih => cases o <;> simp [successes, ih]

/-- What is settled is a fault if there is no success, and it is the first one. -/
theorem settle_eq_error_iff {fault : Fault} :
    settle os = .error fault ↔
      (∀ o ∈ os, ∃ fault, o = .error fault) ∧ os.head? = some (.error fault) := by
  rw [← successes_eq_nil_iff]
  cases os with
  | nil => simp [settle, successes]
  | cons o os =>
    cases o with
    | ok a => simp [settle, successes]
    | error first =>
      cases hrest : successes (Except.error first :: os) <;> simp [settle, hrest]

theorem exists_settle_eq_error_iff (hne : os ≠ []) :
    (∃ fault, settle os = .error fault) ↔ ∀ o ∈ os, ∃ fault, o = .error fault := by
  constructor
  · intro ⟨fault, h⟩
    exact (settle_eq_error_iff.1 h).1
  · intro h
    obtain ⟨o, os, rfl⟩ := List.exists_cons_of_ne_nil hne
    obtain ⟨first, rfl⟩ := h o List.mem_cons_self
    exact ⟨first, settle_eq_error_iff.2 ⟨h, rfl⟩⟩

end Settle

end Galley.Asset

namespace Galley.Press

open Asset
open Document (ImageUsage)
open Markup (Node Rendering)

variable {α β δ σ : Type} {render : Rendering δ} {s : Settings} {root : Node δ}

/-! ## Courses -/

/-- A fault at once, or plans and what their outcomes come to. -/
inductive Course (α : Type) where
  | failed (fault : Fault)
  | fetching (plans : List (Plan Outcome)) (result : List Outcome → Except Fault α)

namespace Course

/-- The course with a last step. -/
def bind (f : α → Except Fault β) : Course α → Course β
  | failed fault => failed fault
  | fetching plans result => fetching plans fun outcomes => (result outcomes).bind f

/-- One plan of the course after another. -/
def inTurn : Course α → Plan (Except Fault α)
  | failed fault => .done (.error fault)
  | fetching plans result => (Plan.inTurn plans).bind fun outcomes => .done (result outcomes)

/-- The course ends, from one store to another, with events, the outcomes of its plans, and a
result. Other plans may run beside its own. -/
inductive Ends : Course α → Store → List Event → List Outcome → Except Fault α → Store → Prop
  | failed (fault : Fault) (st : Store) : Ends (failed fault) st [] [] (.error fault) st
  | fetched {plans others others' : List (Plan Outcome)} {st st' : Store} {es : List Event}
      {outcomes : List Outcome} (result : List Outcome → Except Fault α)
      (hlength : outcomes.length = plans.length)
      (h : History ⟨plans ++ others, st⟩ es ⟨outcomes.map .done ++ others', st'⟩) :
      Ends (fetching plans result) st es outcomes (result outcomes) st'

theorem inTurn_bind (c : Course α) (f : α → Except Fault β) :
    (c.bind f).inTurn = c.inTurn.bind fun result => .done (result.bind f) := by
  cases c with
  | failed fault => rfl
  | fetching plans result =>
    rw [bind, inTurn, inTurn, Plan.bind_assoc]
    rfl

/-- The course with a last step ends as the course, with the step made. -/
theorem Ends.of_bind {c : Course α} {f : α → Except Fault β} {st st' : Store} {es : List Event}
    {outcomes : List Outcome} {result : Except Fault β}
    (h : (c.bind f).Ends st es outcomes result st') :
    ∃ before, c.Ends st es outcomes before st' ∧ result = before.bind f := by
  cases c with
  | failed fault =>
    cases h
    exact ⟨_, .failed fault st, rfl⟩
  | fetching plans before =>
    cases h with
    | fetched _ hlength h => exact ⟨_, .fetched before hlength h, rfl⟩

/-- **In turn, the course comes to its end**, in every world. -/
theorem exists_ends (c : Course α) (w : World σ) (st : Store) (x : σ) :
    ∃ es outcomes, c.Ends st es outcomes (c.inTurn.run w (st, x)).1
      (c.inTurn.run w (st, x)).2.1 := by
  cases c with
  | failed fault => exact ⟨[], [], .failed fault st⟩
  | fetching plans result =>
    obtain ⟨es, hes⟩ := Plan.inTurn_history (w := w) plans [] [] st x
    refine ⟨es, ((Plan.inTurn plans).run w (st, x)).1, ?_⟩
    rw [inTurn, Plan.run_map]
    have hhistory : History ⟨plans ++ [], st⟩ es
        ⟨((Plan.inTurn plans).run w (st, x)).1.map .done ++ [],
          ((Plan.inTurn plans).run w (st, x)).2.1⟩ := by
      simpa using hes
    exact .fetched result (Plan.length_run_inTurn plans (st, x)) hhistory

end Course

/-- The course that prepares a tree. -/
def preparing (render : Rendering δ) (s : Settings) (root : Node δ) : Course Context :=
  match Typeset.typeset render s.typesetting root with
  | .error fault => .failed fault
  | .ok d => .fetching (resolutions s.fetching d) (assembled d)

/-- The course that renders a tree with the engine of a name. -/
def Renderer.rendering (r : Renderer) (render : Rendering δ) (root : Node δ) (name : String) :
    Course Bytes :=
  match r.engines.get? name with
  | none => .failed (.unknownEngine name r.engines.keys)
  | some engine => (preparing render r.settings root).bind fun c => (engine c).mapError Failure.fault

theorem preparing_inTurn (render : Rendering δ) (s : Settings) (root : Node δ) :
    (preparing render s root).inTurn = prepare render s root := by
  unfold preparing prepare
  cases Typeset.typeset render s.typesetting root with
  | error fault => rfl
  | ok d => exact (gather_eq s.fetching d).symm

theorem Renderer.rendering_inTurn (r : Renderer) (render : Rendering δ) (root : Node δ)
    (name : String) : (r.rendering render root name).inTurn = r.render render root name := by
  unfold rendering Renderer.render
  cases r.engines.get? name with
  | none => rfl
  | some engine =>
    show (Course.bind _ _).inTurn = _
    rw [Course.inTurn_bind, preparing_inTurn]
    rfl

/-! ## What outcomes come to -/

/-- The requests of a document, or the one for the default face. -/
def requested (s : Settings.Fetching) (d : Document) : List FontRequest :=
  if d.fonts = [] then [⟨s.family, Font.defaultWeight, .normal⟩] else usageRequests d.fonts

/-- Outcomes of fonts and of images in the order of the document, and what they are handed on as:
a fault if no font came, and it is that of the first request. -/
structure HandsOn (s : Settings.Fetching) (d : Document) (fonts : List (Except Fault LoadedFont))
    (images : List (Except Fault LoadedImage)) (outcomes : List Outcome)
    (handed : Except Fault Context) : Prop where
  outcomes_eq : outcomes = fonts.map .inl ++ images.map .inr
  length_fonts : fonts.length = (requested s d).length
  length_images : images.length = d.images.length
  fails_iff : (∃ fault, handed = .error fault) ↔ ∀ o ∈ fonts, ∃ fault, o = .error fault
  fault_first : ∀ fault, handed = .error fault → fonts.head? = some (.error fault)
  context : ∀ c, handed = .ok c →
    c = ⟨d, successes fonts, collectImages ((d.images.map (·.id)).zip images)⟩

/-- A tree is prepared, with a fault of the tree before anything is asked. -/
structure Prepares (render : Rendering δ) (s : Settings) (root : Node δ) (st : Store)
    (es : List Event) (outcomes : List Outcome) (handed : Except Fault Context) (st' : Store) :
    Prop where
  structural : ∀ fault, Typeset.typeset render s.typesetting root = .error fault →
    handed = .error fault ∧ es = [] ∧ st' = st ∧ prepare render s root = .done handed
  fetched : ∀ d, Typeset.typeset render s.typesetting root = .ok d →
    ∃ fonts images, HandsOn s.fetching d fonts images outcomes handed

/-- What an engine makes of what is handed on: it is not run on a fault, its report is passed on,
and another failure of it is reported as such. -/
structure Concludes (handed : Except Fault Context) (engine : Engine)
    (result : Except Fault Bytes) : Prop where
  notRun : ∀ fault, handed = .error fault → result = .error fault
  bytes : ∀ c bytes, handed = .ok c → engine c = .ok bytes → result = .ok bytes
  reported : ∀ c report, handed = .ok c → engine c = .error (.reported report) →
    result.mapError Fault.report = .error report
  foreign : ∀ c message, handed = .ok c → engine c = .error (.foreign message) →
    result.mapError (·.report.code) = .error .renderFailed

/-- A tree is rendered, with a missing engine before all else. -/
structure Renders (r : Renderer) (render : Rendering δ) (root : Node δ) (name : String)
    (st : Store) (es : List Event) (outcomes : List Outcome) (result : Except Fault Bytes)
    (st' : Store) : Prop where
  unknown : r.engines.get? name = none →
    result.mapError (·.report.code) = .error .unknownEngine ∧ es = [] ∧ st' = st ∧
      r.render render root name = .done result
  known : ∀ engine, r.engines.get? name = some engine → ∃ handed,
    Prepares render r.settings root st es outcomes handed st' ∧ Concludes handed engine result
  structural : ∀ engine fault, r.engines.get? name = some engine →
    Typeset.typeset render r.settings.typesetting root = .error fault →
      result = .error fault ∧ es = [] ∧ st' = st ∧ r.render render root name = .done result

section Steps

variable {d : Document} {st st' : Store} {es : List Event} {outcomes : List Outcome}

theorem fontRequests_eq (h : Typeset.typeset render s.typesetting root = .ok d) :
    fontRequests s.fetching d.fonts = requested s.fetching d := by
  unfold requested
  by_cases hfonts : d.fonts = []
  · rw [if_pos hfonts, hfonts, fontRequests_of_nil]
  · have hnonempty := (Typeset.typeset_lists h).listsFonts.nonempty
    rw [if_neg hfonts, fontRequests_of_ne_nil _ (usageRequests_ne_nil hfonts hnonempty)]

theorem requested_ne_nil (h : Typeset.typeset render s.typesetting root = .ok d) :
    requested s.fetching d ≠ [] := by
  rw [← fontRequests_eq h]
  exact fontRequests_ne_nil s.fetching d.fonts

/-- Items end with fonts and images as they ask for the one or the other. -/
theorem outcomes_sides {s : Settings.Fetching} {tasks : List Item}
    {others others' : List (Plan Outcome)} (hlength : outcomes.length = tasks.length)
    (h : History ⟨tasks.map (resolution s) ++ others, st⟩ es ⟨outcomes.map .done ++ others', st'⟩) :
    List.Forall₂ (Sum.LiftRel (fun _ _ => True) fun _ _ => True) tasks outcomes := by
  refine List.forall₂_iff_get.2 ⟨hlength.symm, fun i hi hi' => ?_⟩
  have hplan : (tasks.map (resolution s) ++ others)[i]? =
      some (resolution s (tasks.get ⟨i, hi⟩)) := by
    rw [List.getElem?_append_left (by simpa using hi)]
    simp [hi]
  have hdone : (outcomes.map Plan.done ++ others')[i]? =
      some (.done (outcomes.get ⟨i, hi'⟩)) := by
    rw [List.getElem?_append_left (by simpa using hi')]
    simp [hi']
  have hends := item_ends h hplan hdone
  revert hends
  generalize tasks.get ⟨i, hi⟩ = item
  generalize outcomes.get ⟨i, hi'⟩ = o
  intro hends
  rcases item with r | u <;> rcases o with o | o <;> try exact hends.elim
  · exact .inl trivial
  · exact .inr trivial

/-- The outcomes of resolutions are those of fonts and those of images, in this order. -/
theorem outcomes_append {s : Settings.Fetching} {others others' : List (Plan Outcome)}
    (hlength : outcomes.length = (resolutions s d).length)
    (h : History ⟨resolutions s d ++ others, st⟩ es ⟨outcomes.map .done ++ others', st'⟩) :
    ∃ (fonts : List (Except Fault LoadedFont)) (images : List (Except Fault LoadedImage)),
      outcomes = fonts.map .inl ++ images.map .inr ∧
        fonts.length = (fontRequests s d.fonts).length ∧ images.length = d.images.length := by
  have hsides := outcomes_sides (by simpa [resolutions] using hlength) h
  obtain ⟨fonts, images, rfl, hfonts, himages⟩ := liftRel_append hsides
  exact ⟨fonts, images, rfl, hfonts.length_eq.symm, himages.length_eq.symm⟩

theorem handsOn_assembled {fonts : List (Except Fault LoadedFont)}
    {images : List (Except Fault LoadedImage)}
    (htypeset : Typeset.typeset render s.typesetting root = .ok d)
    (hfonts : fonts.length = (fontRequests s.fetching d.fonts).length)
    (himages : images.length = d.images.length) :
    HandsOn s.fetching d fonts images (fonts.map .inl ++ images.map .inr)
      (assembled d (fonts.map .inl ++ images.map .inr)) := by
  rw [fontRequests_eq htypeset] at hfonts
  have hne : fonts ≠ [] := by
    rintro rfl
    exact requested_ne_nil htypeset (List.eq_nil_of_length_eq_zero hfonts.symm)
  rw [assembled_append]
  have hfault : ∀ fault, (settle fonts).map (fun as => (⟨d, as, collectImages
      ((d.images.map (·.id)).zip images)⟩ : Context)) = .error fault ↔
        settle fonts = .error fault := by
    intro fault
    cases settle fonts <;> simp [Except.map]
  refine ⟨rfl, hfonts, himages, ?_, ?_, ?_⟩
  · simp only [hfault]
    exact exists_settle_eq_error_iff hne
  · intro fault h
    exact (settle_eq_error_iff.1 ((hfault fault).1 h)).2
  · intro c h
    cases hsettle : settle fonts with
    | error fault =>
      rw [hsettle] at h
      cases h
    | ok as =>
      rw [hsettle] at h
      cases h
      rw [(settle_eq_ok hne hsettle).1]

/-- **A tree is prepared** in any history as it should. -/
theorem prepares_of_ends {handed : Except Fault Context}
    (h : (preparing render s root).Ends st es outcomes handed st') :
    Prepares render s root st es outcomes handed st' := by
  have hplan := preparing_inTurn render s root
  unfold preparing at h hplan
  cases htypeset : Typeset.typeset render s.typesetting root with
  | error fault =>
    rw [htypeset] at h hplan
    cases h
    refine ⟨fun fault' hfault => ?_, fun d hd => ?_⟩
    · cases hfault.symm.trans htypeset
      exact ⟨rfl, rfl, rfl, hplan.symm⟩
    · cases hd.symm.trans htypeset
  | ok d =>
    rw [htypeset] at h
    cases h with
    | fetched _ hlength h =>
      refine ⟨fun fault hfault => ?_, fun d' hd => ?_⟩
      · cases hfault.symm.trans htypeset
      · cases hd.symm.trans htypeset
        obtain ⟨fonts, images, rfl, hfonts, himages⟩ := outcomes_append hlength h
        exact ⟨fonts, images, handsOn_assembled htypeset hfonts himages⟩

theorem concludes_bind (handed : Except Fault Context) (engine : Engine) :
    Concludes handed engine (handed.bind fun c => (engine c).mapError Failure.fault) := by
  constructor
  · intro fault h
    rw [h]
    rfl
  · intro c bytes h hengine
    rw [h]
    show (engine c).mapError _ = _
    rw [hengine]
    rfl
  · intro c report h hengine
    rw [h]
    show ((engine c).mapError _).mapError _ = _
    rw [hengine]
    rfl
  · intro c message h hengine
    rw [h]
    show ((engine c).mapError _).mapError _ = _
    rw [hengine]
    rfl

/-- **A tree is rendered** in any history as it should. -/
theorem renders_of_ends {r : Renderer} {name : String} {result : Except Fault Bytes}
    (h : (r.rendering render root name).Ends st es outcomes result st') :
    Renders r render root name st es outcomes result st' := by
  have hplan := r.rendering_inTurn render root name
  unfold Renderer.rendering at h hplan
  cases hengine : r.engines.get? name with
  | none =>
    rw [hengine] at h hplan
    cases h
    refine ⟨fun _ => ⟨rfl, rfl, rfl, hplan.symm⟩, fun engine hsome => ?_,
      fun engine _ hsome => ?_⟩ <;> cases hsome.symm.trans hengine
  | some engine =>
    rw [hengine] at h hplan
    obtain ⟨handed, hends, rfl⟩ := h.of_bind
    have hprepares := prepares_of_ends hends
    refine ⟨fun hnone => ?_, fun engine' hsome => ?_, fun engine' fault hsome hfault => ?_⟩
    · cases hnone.symm.trans hengine
    · cases hsome.symm.trans hengine
      exact ⟨handed, hprepares, concludes_bind handed engine⟩
    · obtain ⟨rfl, hes, hst, hdone⟩ := hprepares.structural fault hfault
      refine ⟨rfl, hes, hst, ?_⟩
      rw [← hplan, Course.inTurn_bind, preparing_inTurn, hdone]
      rfl

end Steps

/-- **Failures have one precedence**, whatever the world outside answers and whatever else happens;
and each preparing and rendering that runs in turn is such a course. -/
theorem render_precedence (r : Renderer) (render : Rendering δ) (root : Node δ) (name : String) :
    (∀ {st es outcomes handed st'},
      (preparing render r.settings root).Ends st es outcomes handed st' →
        Prepares render r.settings root st es outcomes handed st') ∧
    (∀ {st es outcomes result st'},
      (r.rendering render root name).Ends st es outcomes result st' →
        Renders r render root name st es outcomes result st') ∧
    ∀ {σ : Type} (w : World σ) (st : Store) (x : σ),
      (∃ es outcomes, (preparing render r.settings root).Ends st es outcomes
        ((prepare render r.settings root).run w (st, x)).1
        ((prepare render r.settings root).run w (st, x)).2.1) ∧
      ∃ es outcomes, (r.rendering render root name).Ends st es outcomes
        ((r.render render root name).run w (st, x)).1
        ((r.render render root name).run w (st, x)).2.1 := by
  refine ⟨prepares_of_ends, renders_of_ends, fun w st x => ⟨?_, ?_⟩⟩
  · rw [← preparing_inTurn]
    exact Course.exists_ends _ w st x
  · rw [← r.rendering_inTurn]
    exact Course.exists_ends _ w st x

/-! ## A broken engine without a network -/

/-- A renderer with an engine that always fails. -/
def brokenPress : Renderer :=
  Renderer.register ⟨.default, .empty⟩ "broken" (.failing (.foreign "glyph table exploded"))

/-- A network that cannot be reached. -/
def offline : Answers where
  fetch _ _ := .error "offline"
  produce _ := .ok (.url catUrl)

/-- What the renderer makes of two pictures, over a store. -/
def brokenResult (st : Store) : Except Fault Bytes × Store × Unit :=
  (brokenPress.render Typeset.plain album "broken").run offline.world (st, ())

/-- With a registered font it is the engine that fails, although no picture came; without one it is
the font. -/
theorem brokenPress_precedence :
    (∃ es outcomes,
      (brokenPress.rendering Typeset.plain album "broken").Ends interStore es outcomes
        (brokenResult interStore).1 (brokenResult interStore).2.1 ∧
      Renders brokenPress Typeset.plain album "broken" interStore es outcomes
        (brokenResult interStore).1 (brokenResult interStore).2.1) ∧
    (brokenResult interStore).1.mapError (·.report.code) = .error .renderFailed ∧
    (brokenResult .empty).1.mapError (·.report.code) = .error .fontFetchError := by
  obtain ⟨-, hrenders, hcourses⟩ :=
    render_precedence brokenPress Typeset.plain album "broken"
  obtain ⟨-, es, outcomes, hends⟩ := hcourses offline.world interStore ()
  exact ⟨⟨es, outcomes, hends, hrenders hends⟩, rfl, rfl⟩

end Galley.Press
