import Galley.Proofs.Asset.RequestOrder
import Galley.Proofs.Press.Precedence

/-!
# Loading all fonts of usages

The fonts of usages are requested together, one for each place or one default, and resolved side by
side among other tasks, while fonts are registered and caches cleared.

**Theorem (`loadFonts_settles`).** The result has exactly the fonts that were found, in the order
of the requests, as soon as one was; and otherwise it is the fault of the first request. In every
world, in turn and in every order of steps, the loading comes to such an end.

The loading is a course (`loadingFonts`), as a rendering is. Its outcomes are settled as one list
(`settle_settles`), whichever of them came first.
-/

namespace Galley.Asset

section Settle

variable {α : Type} {os : List (Except Fault α)}

theorem successes_eq_filterMap (os : List (Except Fault α)) :
    successes os = os.filterMap Except.toOption := by
  induction os with
  | nil => rfl
  | cons o os ih =>
    cases o with
    | ok a => exact congrArg (a :: ·) ih
    | error fault => exact ih

/-- What outcomes come to: all successes in their order, if there is one, or the first fault. -/
structure Settles (os : List (Except Fault α)) (result : Except Fault (List α)) : Prop where
  some : ∀ a, .ok a ∈ os → result = .ok (os.filterMap Except.toOption)
  ne_nil : ∀ as, result = .ok as → as ≠ []
  none : (∀ o ∈ os, ∃ fault, o = .error fault) →
    ∃ fault, os.head? = .some (.error fault) ∧ result = .error fault

theorem settle_settles (hne : os ≠ []) : Settles os (settle os) := by
  constructor
  case some =>
    intro a ha
    cases hsettle : settle os with
    | error fault =>
      obtain ⟨fault', hfault⟩ := (settle_eq_error_iff.1 hsettle).1 _ ha
      cases hfault
    | ok as => rw [(settle_eq_ok hne hsettle).1, successes_eq_filterMap]
  case ne_nil => exact fun as h => (settle_eq_ok hne h).2
  case none =>
    intro hfail
    obtain ⟨fault, hsettle⟩ := (exists_settle_eq_error_iff hne).2 hfail
    exact ⟨fault, (settle_eq_error_iff.1 hsettle).2, hsettle⟩

end Settle

end Galley.Asset

namespace Galley.Press

open Asset
open Font (Usage)

variable {α σ : Type} {s : Settings.Fetching} {us : List Usage}

/-! ## Courses among other tasks -/

/-- **Whatever happened so far, the course ends in every order of steps**, beside other plans. -/
theorem Course.inevitably_ends {plans others : List (Plan Outcome)} {st : Store}
    {es : List Event} {q : Shared Outcome} (h : History ⟨plans ++ others, st⟩ es q)
    (result : List Outcome → Except Fault α) (w : World σ) (x : σ) :
    Inevitably w (fun outcomes after => ∃ es' mine, mine <+: outcomes ∧
      (fetching plans result).Ends st (es ++ es') mine (result mine) after.1)
      ⟨q.plans, (q.store, x)⟩ := by
  refine (inevitably_history w q x).mono fun outcomes after ⟨es', hes'⟩ => ?_
  have hhistory := h.append hes'
  have hlength : outcomes.length = plans.length + others.length := by
    simpa using hhistory.length_plans
  have hsplit : outcomes.map Plan.done = (outcomes.take plans.length).map .done ++
      (outcomes.drop plans.length).map .done := by
    rw [← List.map_append, List.take_append_drop]
  rw [hsplit] at hhistory
  exact ⟨es', outcomes.take plans.length, List.take_prefix _ _,
    .fetched result (by simp [hlength]) hhistory⟩

/-! ## The course that loads fonts -/

/-- The tasks that run side by side for usages. -/
def fontTasks (s : Settings.Fetching) (us : List Usage) : List Item :=
  (fontRequests s us).map .inl

/-- What the outcomes for fonts come to. -/
def settledFonts (outcomes : List Outcome) : Except Fault (List LoadedFont) :=
  settle (outcomes.filterMap Sum.getLeft?)

theorem settledFonts_map (fonts : List (Except Fault LoadedFont)) :
    settledFonts (fonts.map .inl) = settle fonts := by
  simp [settledFonts, List.filterMap_map, Function.comp_def]

/-- The course that loads the fonts of usages. -/
def loadingFonts (s : Settings.Fetching) (us : List Usage) : Course (List LoadedFont) :=
  .fetching ((fontTasks s us).map (resolution s)) settledFonts

theorem loadingFonts_inTurn (s : Settings.Fetching) (us : List Usage) :
    (loadingFonts s us).inTurn = loadFonts s us := by
  have hplans : (fontTasks s us).map (resolution s) =
      ((fontRequests s us).map fun r => (r.resolve s).outcome).map
        fun p => p.bind fun o => .done (.inl o) := by
    simp [fontTasks, resolution, Function.comp_def]
  rw [loadingFonts, Course.inTurn, hplans, Plan.inTurn_map, Plan.bind_assoc]
  simp only [Plan.bind, settledFonts_map]
  rfl

/-- The outcomes of requests, one for each and in their order, settle to a result. -/
def SettlesAll (rs : List FontRequest) (outcomes : List Outcome)
    (result : Except Fault (List LoadedFont)) : Prop :=
  ∃ fonts : List (Except Fault LoadedFont), outcomes = fonts.map .inl ∧
    fonts.length = rs.length ∧ Settles fonts result

theorem settlesAll_of_ends {st st' : Store} {es : List Event} {outcomes : List Outcome}
    {result : Except Fault (List LoadedFont)}
    (h : (loadingFonts s us).Ends st es outcomes result st') :
    SettlesAll (fontRequests s us) outcomes result := by
  cases h with
  | fetched _ hlength h =>
    have hsides := outcomes_sides (by simpa using hlength) h
    have htasks : fontTasks s us =
        (fontRequests s us).map .inl ++ ([] : List Document.ImageUsage).map .inr := by
      simp [fontTasks]
    rw [htasks] at hsides
    obtain ⟨fonts, images, rfl, hfonts, himages⟩ := liftRel_append hsides
    cases himages
    have hne : fonts ≠ [] := by
      rintro rfl
      exact fontRequests_ne_nil s us (List.eq_nil_of_length_eq_zero hfonts.length_eq)
    rw [List.map_nil, List.append_nil, settledFonts_map]
    exact ⟨fonts, rfl, hfonts.length_eq.symm, settle_settles hne⟩

/-- **Loading fonts settles every request**, among any other tasks and whatever happens; and it
comes to an end, in turn and in every order of steps. -/
theorem loadFonts_settles (s : Settings.Fetching) (us : List Usage) :
    Requested s us (fontRequests s us) ∧ (loadingFonts s us).inTurn = loadFonts s us ∧
    (∀ {st es outcomes result st'}, (loadingFonts s us).Ends st es outcomes result st' →
      SettlesAll (fontRequests s us) outcomes result) ∧
    ∀ {σ : Type} (w : World σ) (st : Store) (x : σ),
      (∃ es outcomes, (loadingFonts s us).Ends st es outcomes
        ((loadFonts s us).run w (st, x)).1 ((loadFonts s us).run w (st, x)).2.1) ∧
      ∀ {others : List (Plan Outcome)} {es : List Event} {q : Shared Outcome},
        History ⟨(fontTasks s us).map (resolution s) ++ others, st⟩ es q →
          Inevitably w (fun outcomes after => ∃ es' mine result, mine <+: outcomes ∧
            (loadingFonts s us).Ends st (es ++ es') mine result after.1)
            ⟨q.plans, (q.store, x)⟩ := by
  have hinTurn := loadingFonts_inTurn s us
  refine ⟨fontRequests_requested s us, hinTurn, settlesAll_of_ends, fun w st x =>
    ⟨?_, fun h => ?_⟩⟩
  · rw [← hinTurn]
    exact Course.exists_ends _ w st x
  · refine (Course.inevitably_ends h settledFonts w x).mono ?_
    exact fun outcomes after ⟨es', mine, hmine, hends⟩ => ⟨es', mine, _, hmine, hends⟩

/-! ## A specimen sheet -/

/-- A family in two slants, one without weights, one without slants, and one in two weights. -/
def specimen : List Usage := [
  .of "Void" (.ofList [400]) (.ofList [.italic, .normal]), .of "Nothing" .empty (.ofList [.normal]),
  .of "Nobody" (.ofList [400]) .empty, .of "Inter" (.ofList [700, 400]) (.ofList [.normal])]

/-- The fonts for them, over a store and without a network. -/
def specimenFonts (st : Store) : Except Fault (List LoadedFont) × Store × Unit :=
  (loadFonts .default specimen).run offline.world (st, ())

/-- Four requests, of which the last two are found where the family is registered; without it the
fault is that of the upright face of the first family. -/
theorem specimen_settles :
    fontRequests .default specimen = [⟨"Void", 400, .normal⟩, ⟨"Void", 400, .italic⟩,
      ⟨"Inter", 400, .normal⟩, ⟨"Inter", 700, .normal⟩] ∧
    (∃ es outcomes,
      (loadingFonts .default specimen).Ends interStore es outcomes (specimenFonts interStore).1
        (specimenFonts interStore).2.1 ∧
      SettlesAll (fontRequests .default specimen) outcomes (specimenFonts interStore).1) ∧
    (specimenFonts interStore).1 = .ok [⟨⟨"inter", 400, .normal⟩, [1], none⟩,
      ⟨⟨"inter", 700, .normal⟩, [1], none⟩] ∧
    (specimenFonts .empty).1 = .error (.font ⟨"void", 400, .normal⟩
      (some "https://fonts.googleapis.com/css2?family=Void:ital,wght@0,400")
      (.unreachable "offline")) := by
  obtain ⟨-, -, hsettles, hends⟩ := loadFonts_settles .default specimen
  obtain ⟨⟨es, outcomes, hin⟩, -⟩ := hends offline.world interStore ()
  exact ⟨by decide, ⟨es, outcomes, hin, hsettles hin⟩, rfl, rfl⟩

end Galley.Press
