import Galley.Proofs.Asset.FontResolution

/-!
# What the font cache changes

A font is cached under its face, whose family is a key, while the catalog is asked for the family
as it is written. Families with one key may therefore have different names in the catalog, and then
the cache is seen: a request gets the font of an earlier spelling (`cache_seen`).

**Theorem (`resolve_afterRequests`).** After any requests, a request has the outcome that the first
earlier request for its face to succeed alone has alone, and without one its own outcome alone. In
particular the cache is not seen if the family is registered, or if all earlier requests for the
face have the catalog name of this one.
-/

namespace Galley.Font

/-- A family that is registered has a font for each of its faces. -/
theorem Registry.lookup?_of_contains {registry : Registry} {family : String}
    (h : registry.contains family = true) (weight : Nat) (slant : Slant) :
    ∃ d, registry.lookup? (.of family weight slant) = some d := by
  have hne : registry.ofFamily (familyKey family) ≠ [] := by
    simpa [contains] using h
  obtain ⟨d, ds, hds⟩ := List.exists_cons_of_ne_nil hne
  rw [lookup?, Face.of]
  show ∃ d, ((registry.ofFamily (familyKey family)).find? _).or
    (registry.ofFamily (familyKey family)).head? = some d
  cases (registry.ofFamily (familyKey family)).find? _ with
  | some d => exact ⟨d, rfl⟩
  | none => exact ⟨d, by rw [hds]; rfl⟩

end Galley.Font

namespace Galley.Asset

open Font (Face)

variable {σ : Type} {w : World σ} {A : Answers} {s : Settings.Fetching}

theorem Plan.Fetches.against_eq {α : Type} {P : α → Prop} {p : Plan α} (h : p.Fetches P)
    (st t : Store) : p.against A st = p.against A t := by
  induction p with
  | done a => rfl
  | ask r next ih =>
    show (next (A.answer st r)).against A st = (next (A.answer t r)).against A t
    rw [Answers.answer_of_isOutside h.1 st t]
    exact ih _ (h.2 _)

namespace FontRequest

variable {st : Store} {r q : FontRequest}

/-! ## A request alone -/

/-- The outcome of a request over a store without fonts. -/
def alone (A : Answers) (s : Settings.Fetching) (registry : Font.Registry) (r : FontRequest) :
    Except Fault LoadedFont :=
  r.value A s ⟨.empty, .empty, registry⟩

theorem alone_eq (registry : Font.Registry) (st : Store) :
    r.alone A s registry = (r.load s (registry.lookup? r.face)).outcome.against A st := by
  rw [alone, value_of_not_cached (Cache.get?_empty _)]
  exact (r.load_loads s _).against_eq _ _

/-- The value over any store: the cached font, or the outcome alone. -/
theorem value_eq_alone : r.value A s st =
    match st.fonts.get? r.face with
    | some font => .ok font
    | none => r.alone A s st.registry := by
  cases h : st.fonts.get? r.face with
  | some font => exact value_of_cached h
  | none => exact (value_of_not_cached h).trans (alone_eq st.registry st).symm

/-- Over a registry that has the family, or with one catalog name, spellings do not differ. -/
theorem alone_congr {registry : Font.Registry} (hface : q.face = r.face)
    (h : registry.contains r.family = true ∨ Font.catalogName q.family = Font.catalogName r.family) :
    q.alone A s registry = r.alone A s registry := by
  rw [alone_eq registry .empty, alone_eq registry .empty, hface]
  cases hlookup : registry.lookup? r.face with
  | some d => rw [load, load, hface]
  | none =>
    have hname : Font.catalogName q.family = Font.catalogName r.family := by
      refine h.resolve_left fun hcontains => ?_
      obtain ⟨d, hd⟩ := Font.Registry.lookup?_of_contains hcontains r.weight r.slant
      exact absurd (hlookup.symm.trans hd) (by simp)
    rw [load, load, hface, loadFromCatalog, loadFromCatalog, hname]

/-! ## One request after another -/

/-- A request run over a store: its outcome is its value, its face has the font afterwards, and
nothing else changes. -/
theorem run_resolve (hw : w.Gives A) (r : FontRequest) (st : Store) (x : σ) :
    ((r.resolve s).outcome.run w (st, x)).1 = r.value A s st ∧
      (((r.resolve s).outcome.run w (st, x)).2.1.registry = st.registry ∧
        ∀ face, ((r.resolve s).outcome.run w (st, x)).2.1.fonts.get? face =
          (st.fonts.get? face).or
            (if r.face = face then (r.alone A s st.registry).toOption else none)) := by
  have hensures : (r.resolve s).outcome.Ensures A
      (growth (fun face font => r.face = face ∧ r.value A s st = .ok font) fun _ _ => False) _ st :=
    resolve_ensures fun font => ⟨And.right, fun h => ⟨rfl, h⟩⟩
  obtain ⟨⟨hvalue, hkept⟩, hgrown⟩ := hensures.holds.run hw x
  generalize (r.resolve s).outcome.run w (st, x) = result at hvalue hkept hgrown
  refine ⟨hvalue, hgrown.registry, fun face => ?_⟩
  cases hst : st.fonts.get? face with
  | some font => exact hgrown.fonts.kept hst
  | none =>
    have hnew : ∀ font, result.2.1.fonts.get? face = some font →
        r.face = face ∧ r.value A s st = .ok font := fun font hfont =>
      hgrown.fonts.justified hst hfont
    by_cases hface : r.face = face
    · have halone : r.value A s st = r.alone A s st.registry := by
        rw [value_eq_alone, hface, hst]
      rw [if_pos hface, ← halone]
      cases hok : r.value A s st with
      | ok font => exact hface ▸ hkept font (hvalue.trans hok)
      | error fault =>
        cases hget : result.2.1.fonts.get? face with
        | none => rfl
        | some font => exact absurd (hok.symm.trans (hnew font hget).2) (by simp)
    · rw [if_neg hface]
      cases hget : result.2.1.fonts.get? face with
      | none => rfl
      | some font => exact absurd (hnew font hget).1 hface

/-- The outcome of a request in a state. -/
def result (w : World σ) (s : Settings.Fetching) (r : FontRequest) (state : Store × σ) :
    Except Fault LoadedFont :=
  ((r.resolve s).outcome.run w state).1

/-- The state after requests, one after another. -/
def afterRequests (w : World σ) (s : Settings.Fetching) (earlier : List FontRequest)
    (state : Store × σ) : Store × σ :=
  earlier.foldl (fun state q => ((q.resolve s).outcome.run w state).2) state

/-- The first font that requests for a face get alone. -/
def firstAlone (A : Answers) (s : Settings.Fetching) (registry : Font.Registry) (face : Face)
    (earlier : List FontRequest) : Option LoadedFont :=
  (earlier.filter (·.face = face)).findSome? fun q => (q.alone A s registry).toOption

/-- After requests, a face has what it had, or else the first font that one of them gets alone. -/
theorem get?_afterRequests (hw : w.Gives A) (earlier : List FontRequest) (st : Store) (x : σ) :
    (afterRequests w s earlier (st, x)).1.registry = st.registry ∧
      ∀ face, (afterRequests w s earlier (st, x)).1.fonts.get? face =
        (st.fonts.get? face).or (firstAlone A s st.registry face earlier) := by
  induction earlier generalizing st x with
  | nil => exact ⟨rfl, fun face => (Option.or_none).symm⟩
  | cons q earlier ih =>
    have hq := (run_resolve (s := s) hw q st x).2
    show (afterRequests w s earlier ((q.resolve s).outcome.run w (st, x)).2).1.registry = _ ∧
      ∀ face, (afterRequests w s earlier ((q.resolve s).outcome.run w (st, x)).2).1.fonts.get? face = _
    generalize ((q.resolve s).outcome.run w (st, x)).2 = state at hq ⊢
    obtain ⟨st', x'⟩ := state
    obtain ⟨hregistry, hfonts⟩ := hq
    obtain ⟨hregistry', hfonts'⟩ := ih st' x'
    refine ⟨hregistry'.trans hregistry, fun face => ?_⟩
    have hfirst : firstAlone A s st.registry face (q :: earlier) =
        (if q.face = face then (q.alone A s st.registry).toOption else none).or
          (firstAlone A s st.registry face earlier) := by
      rw [firstAlone, List.filter_cons]
      by_cases hface : q.face = face
      · simp only [hface, decide_true, if_true, List.findSome?_cons]
        cases (q.alone A s st.registry).toOption <;> rfl
      · simp only [hface, decide_false, if_false]
        rfl
    rw [hfonts' face, hfonts face, hregistry, hfirst, Option.or_assoc]

theorem result_eq_alone (hw : w.Gives A) {st : Store} (hst : st.fonts = .empty) (r : FontRequest)
    (x : σ) : r.result w s (st, x) = r.alone A s st.registry := by
  rw [result, (run_resolve hw r st x).1, value_eq_alone, hst]
  rfl

theorem result_afterRequests (hw : w.Gives A) {st : Store} (hst : st.fonts = .empty)
    (earlier : List FontRequest) (r : FontRequest) (x : σ) :
    r.result w s (afterRequests w s earlier (st, x)) =
      match firstAlone A s st.registry r.face earlier with
      | some font => .ok font
      | none => r.alone A s st.registry := by
  have hstate := get?_afterRequests (s := s) hw earlier st x
  generalize afterRequests w s earlier (st, x) = state at hstate ⊢
  obtain ⟨st', x'⟩ := state
  obtain ⟨hregistry, hfonts⟩ := hstate
  rw [result, (run_resolve hw r st' x').1, value_eq_alone, hfonts, hst, hregistry]
  rfl

/-- **What a request gets after others**, without fonts at the start. -/
theorem resolve_afterRequests (hw : w.Gives A) {st : Store} (hst : st.fonts = .empty)
    (earlier : List FontRequest) (r : FontRequest) (x y : σ) :
    (r.result w s (afterRequests w s earlier (st, x)) =
      match (earlier.filter (·.face = r.face)).findSome? fun q => (q.result w s (st, y)).toOption with
      | some font => .ok font
      | none => r.result w s (st, y)) ∧
    ((st.registry.contains r.family = true ∨
        ∀ q ∈ earlier, q.face = r.face → Font.catalogName q.family = Font.catalogName r.family) →
      r.result w s (afterRequests w s earlier (st, x)) = r.result w s (st, y)) := by
  have halone : ∀ q : FontRequest, q.result w s (st, y) = q.alone A s st.registry :=
    fun q => result_eq_alone hw hst q y
  simp only [halone]
  refine ⟨result_afterRequests hw hst earlier r x, fun hsame => ?_⟩
  rw [result_afterRequests hw hst earlier r x]
  cases hfirst : firstAlone A s st.registry r.face earlier with
  | none => rfl
  | some font =>
    obtain ⟨q, hq, hfont⟩ := List.exists_of_findSome?_eq_some hfirst
    obtain ⟨hmem, hface⟩ := List.mem_filter.1 hq
    have hface' : q.face = r.face := by simpa using hface
    -- The request that was served first would have given this one the same font.
    rw [alone_congr hface' (hsame.imp_right fun hnames => hnames q hmem hface')] at hfont
    cases hok : r.alone A s st.registry with
    | error fault =>
      rw [hok] at hfont
      cases hfont
    | ok font' =>
      rw [hok] at hfont
      cases hfont
      rfl

/-! ## Two spellings -/

theorem fetchFont_against {face : Face} {url : String} (st : Store) (response : Response)
    (h : A.fetch url .default = .ok response) (hsuccess : response.isSuccess = true) :
    (fetchFont face url).outcome.against A st = .ok response.body := by
  have hreply : (Task.ask (.fetch url .default)).outcome.against A st = .ok (.ok response) :=
    congrArg Except.ok h
  rw [fetchFont, Task.against_bind hreply]
  simp only [hsuccess, if_true]
  rfl

/-- The catalog has a family in capitals, and everything else is refused. -/
def garamond : Answers where
  fetch url _ :=
    if url = "https://fonts.googleapis.com/css2?family=EB+Garamond:ital,wght@0,400" then
      .ok ⟨200, Bytes.ofText "url(a.ttf)"⟩
    else if url = "a.ttf" then .ok ⟨200, [1]⟩
    else .error "connection refused"
  produce _ := .error (.of .renderFailed "no producer")

/-- The cache is seen: one spelling has a font only after the other. -/
theorem cache_seen :
    ¬ ∀ (A : Answers) (s : Settings.Fetching) (registry : Font.Registry)
      (earlier : List FontRequest) (r : FontRequest),
        r.result A.world s (afterRequests A.world s earlier (⟨.empty, .empty, registry⟩, ())) =
          r.result A.world s (⟨.empty, .empty, registry⟩, ()) := by
  intro h
  have hseen := h garamond .default .empty [⟨"EB Garamond", 400, .normal⟩]
    ⟨"eb garamond", 400, .normal⟩
  have hfile : Font.firstFontUrl? (String.ofList (Bytes.toTextLossy (Bytes.ofText "url(a.ttf)"))) =
      some "a.ttf" := by
    cbv
  have hcapitals : FontRequest.alone garamond .default .empty ⟨"EB Garamond", 400, .normal⟩ =
      .ok ⟨⟨"eb-garamond", 400, .normal⟩, [1], some "a.ttf"⟩ := by
    have hsheet : (fetchFont ⟨"eb-garamond", 400, .normal⟩
        "https://fonts.googleapis.com/css2?family=EB+Garamond:ital,wght@0,400").outcome.against
          garamond .empty = .ok (Bytes.ofText "url(a.ttf)") :=
      fetchFont_against .empty ⟨200, Bytes.ofText "url(a.ttf)"⟩ rfl rfl
    rw [alone_eq .empty .empty]
    refine (Task.against_bind hsheet _).trans ?_
    rw [hfile]
    rfl
  have hsmall : (FontRequest.alone garamond .default .empty ⟨"eb garamond", 400, .normal⟩).toOption =
      none := rfl
  have hface : FontRequest.face ⟨"EB Garamond", 400, .normal⟩ =
      FontRequest.face ⟨"eb garamond", 400, .normal⟩ := by decide
  have hfirst : firstAlone garamond .default .empty (FontRequest.face ⟨"eb garamond", 400, .normal⟩)
      [⟨"EB Garamond", 400, .normal⟩] =
        some ⟨⟨"eb-garamond", 400, .normal⟩, [1], some "a.ttf"⟩ := by
    simp [firstAlone, hface, hcapitals, Except.toOption]
  rw [result_afterRequests garamond.world_gives rfl, result_eq_alone garamond.world_gives rfl,
    hfirst] at hseen
  rw [← hseen] at hsmall
  cases hsmall

/-- A spelling with the same name in the catalog gets what it gets alone. -/
theorem garamond_afterRequests :
    FontRequest.result garamond.world .default ⟨"'EB  Garamond', serif", 400, .normal⟩
      (afterRequests garamond.world .default [⟨"EB Garamond", 400, .normal⟩] (.empty, ())) =
    FontRequest.result garamond.world .default ⟨"'EB  Garamond', serif", 400, .normal⟩
      (.empty, ()) :=
  (resolve_afterRequests garamond.world_gives rfl [⟨"EB Garamond", 400, .normal⟩]
    ⟨"'EB  Garamond', serif", 400, .normal⟩ () ()).2 (.inr (by decide +kernel))

end FontRequest

end Galley.Asset
