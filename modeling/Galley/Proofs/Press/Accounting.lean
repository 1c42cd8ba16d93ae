import Galley.Proofs.Asset.InTurn
import Galley.Proofs.Press.Convergence
import Galley.Proofs.Typeset.ImageManifest

/-!
# What an assembled document accounts for

A document is assembled while other fonts and images are resolved, fonts registered and caches
cleared, in a store that was filled in the same way (`Reachable`, `Assembles`).

**Theorem (`assembles_accounts`).** The context of the document has fonts, each with a face of its
own that the document lists, or else the one default face. Each image on a sheet is in the context
under its id or missing. And wherever an element of the tree has a face in effect that was
resolved, the context gives this font for the family in any spelling.

A font of a context came from the slot of a face, and in a store that was filled by resolutions
every font stands in the slot of its own face (`Happens.keyed`). So the faces of the fonts are
faces of requests, and no two requests of a document are for one face.
-/

namespace Galley.Asset

/-! ## Fonts in the slots of their faces -/

section Keyed

variable {α : Type} {c d q : Shared α} {e : Event} {es : List Event} {i k : Nat}

/-- Every font is in the slot of its own face. -/
def Store.Keyed (st : Store) : Prop :=
  ∀ face font, st.fonts.get? face = some font → font.face = face

theorem Happens.keyed (h : Happens c e d) (hc : c.store.Keyed) : d.store.Keyed := by
  intro face font hfont
  cases h with
  | @asked i A ps st r next h =>
    cases r with
    | keepFont kept =>
      rcases Cache.eq_some_of_get?_put hfont with hold | ⟨rfl, rfl⟩
      · exact hc face font hold
      · rfl
    | cachedFont | registered | cachedImage | keepImage | fetch | produce =>
      exact hc face font hfont
  | registered => exact hc face font hfont
  | cleared shelf =>
    cases shelf with
    | fonts => cases hfont
    | images => exact hc face font hfont

theorem History.keyed (h : History c es q) (hc : c.store.Keyed) : q.store.Keyed := by
  induction h with
  | nil c => exact hc
  | cons h _ ih => exact ih (h.keyed hc)

/-- From the slot of a face, a font of this face is served. -/
theorem History.served_face (h : History c es q) (hc : c.store.Keyed) {face : Font.Face}
    {font : LoadedFont} (hserved : ServedAt es i k (.font face) (.font font)) : font.face = face := by
  obtain ⟨d, hd, hheld⟩ :=
    h.held_of_served (I := fun c => c.store.Keyed) (fun h => h.keyed) hc hserved
  obtain ⟨font', hget, heq⟩ := Option.map_eq_some_iff.1 hheld
  cases heq
  exact hd face font hget

end Keyed

/-! ## Successes -/

theorem mem_successes {α : Type} {a : α} {os : List (Except Fault α)} :
    a ∈ successes os ↔ .ok a ∈ os := by
  induction os with
  | nil => simp [successes]
  | cons o os ih => cases o <;> simp [successes, ih]

/-- What is settled are the successes, and there is one. -/
theorem settle_eq_ok {α : Type} {os : List (Except Fault α)} {as : List α} (hne : os ≠ [])
    (h : settle os = .ok as) : as = successes os ∧ as ≠ [] := by
  cases os with
  | nil => exact absurd rfl hne
  | cons o os =>
    cases o with
    | ok a =>
      have has : a :: successes os = as := Except.ok.inj h
      rw [← has]
      exact ⟨rfl, List.cons_ne_nil _ _⟩
    | error fault =>
      have hskip : successes (.error fault :: os) = successes os := rfl
      unfold settle at h
      rw [hskip] at h ⊢
      cases hrest : successes os with
      | nil =>
        rw [hrest] at h
        cases h
      | cons b bs =>
        rw [hrest] at h
        cases h
        exact ⟨rfl, List.cons_ne_nil _ _⟩

end Galley.Asset

namespace Galley.Typeset

/-! ## Families as written -/

/-- The family that a style names, as it is written. -/
def writtenFamily? (s : Style) : Option String :=
  ((s.get? "fontFamily").bind Style.Value.text?).filter fun raw => Font.displayName raw ≠ ""

theorem family?_eq (s : Style) : family? s = (writtenFamily? s).map Font.displayName := by
  rw [family?, writtenFamily?]
  cases (s.get? "fontFamily").bind Style.Value.text? with
  | none => rfl
  | some raw => by_cases hname : Font.displayName raw = "" <;> simp [Option.filter, hname]

/-- The family in effect, as the nearest style that names one has it. -/
def Visit.written? {δ : Type} (v : Visit δ) : Option String := v.styles.findSome? writtenFamily?

theorem Visit.family_eq {δ : Type} (v : Visit δ) :
    v.typography.family = v.written?.map Font.displayName := by
  have hfamily : family? = fun s => (writtenFamily? s).map Font.displayName := funext family?_eq
  rw [written?, List.map_findSome?]
  show v.styles.findSome? family? = _
  rw [hfamily]
  rfl

end Galley.Typeset

namespace Galley.Press

open Asset
open Document (ImageUsage)
open Font (Face)
open Markup (Node Rendering)

variable {δ σ : Type} {render : Rendering δ}

/-! ## Assemblies -/

/-- What resolutions, registrations and clears lead to from empty caches, with tasks that are not
done yet. -/
def Reachable (s : Settings.Fetching) (c : Shared Outcome) : Prop :=
  ∃ (tasks : List Item) (registry : Font.Registry) (es : List Event),
    History ⟨tasks.map (resolution s), ⟨.empty, .empty, registry⟩⟩ es c

/-- The outcomes of the resolutions of a document, in some history of them among other tasks. -/
def Assembly (s : Settings.Fetching) (c : Shared Outcome) (d : Document) (outcomes : List Outcome) :
    Prop :=
  outcomes.length = (items s d).length ∧
    ∃ (es : List Event) (others : List (Plan Outcome)) (after : Store),
      History ⟨resolutions s d ++ c.plans, c.store⟩ es ⟨outcomes.map .done ++ others, after⟩

/-- A tree is assembled into a context, among other tasks. -/
def Assembles (render : Rendering δ) (s : Settings) (root : Node δ) (c : Shared Outcome)
    (outcomes : List Outcome) (ctx : Context) : Prop :=
  ∃ d, Typeset.typeset render s.typesetting root = .ok d ∧
    Assembly s.fetching c d outcomes ∧ assembled d outcomes = .ok ctx

/-- The outcome fits the item: a font has the face of its request, an image has its id. -/
def Fits : Item → Outcome → Prop
  | .inl r, .inl o => ∀ font, o = .ok font → font.face = r.face
  | .inr u, .inr o => ∀ image, o = .ok image → image.id = u.id
  | _, _ => False

section Assembly

variable {s : Settings.Fetching} {d : Document} {outcomes : List Outcome} {c q : Shared Outcome}
  {es : List Event} {i : Nat} {item : Item} {o : Outcome}

theorem Reachable.keyed (h : Reachable s c) : c.store.Keyed := by
  obtain ⟨tasks, registry, es, hhistory⟩ := h
  exact hhistory.keyed fun face font hfont => nomatch hfont

theorem fits_of_history (h : History c es q) (hkeyed : c.store.Keyed)
    (hplan : c.plans[i]? = some (resolution s item)) (hdone : q.plans[i]? = some (.done o)) :
    Fits item o := by
  have hends := item_ends h hplan hdone
  rcases item with r | u <;> rcases o with o | o <;> try exact hends.elim
  · rintro font rfl
    obtain ⟨k, -, hserved⟩ := exists_finalUse_of_served (FontEnds.of_ok hends)
    exact h.served_face hkeyed hserved
  · rintro image rfl
    exact ImageEnds.id_eq hends

/-- **The outcomes of an assembly fit the items** of its document, one by one. -/
theorem Assembly.fits (hreachable : Reachable s c) (h : Assembly s c d outcomes) :
    List.Forall₂ Fits (items s d) outcomes := by
  obtain ⟨hlength, es, others, after, hhistory⟩ := h
  refine List.forall₂_iff_get.2 ⟨hlength.symm, fun i hi hi' => ?_⟩
  have hplan : (resolutions s d ++ c.plans)[i]? = some (resolution s ((items s d).get ⟨i, hi⟩)) := by
    rw [List.getElem?_append_left (by simpa [resolutions] using hi)]
    simp [resolutions, hi]
  have hdone : (outcomes.map Plan.done ++ others)[i]? = some (.done (outcomes.get ⟨i, hi'⟩)) := by
    rw [List.getElem?_append_left (by simpa using hi')]
    simp [hi']
  exact fits_of_history hhistory hreachable.keyed hplan hdone

end Assembly

/-- What corresponds to fonts and images, side by side, is of fonts and of images. -/
theorem liftRel_append {ρ ι φ μ : Type} {R : ρ → φ → Prop} {S : ι → μ → Prop} {rs : List ρ}
    {us : List ι} {os : List (φ ⊕ μ)}
    (h : List.Forall₂ (Sum.LiftRel R S) (rs.map .inl ++ us.map .inr) os) :
    ∃ fonts images, os = fonts.map .inl ++ images.map .inr ∧
      List.Forall₂ R rs fonts ∧ List.Forall₂ S us images := by
  induction rs generalizing os with
  | nil =>
    induction us generalizing os with
    | nil =>
      cases h
      exact ⟨[], [], rfl, .nil, .nil⟩
    | cons u us ih =>
      obtain ⟨o, os, ho, hos, rfl⟩ := List.forall₂_cons_left_iff.1 h
      obtain ⟨fonts, images, rfl, hfonts, himages⟩ := ih hos
      cases hfonts
      cases ho with
      | inr ho => exact ⟨[], _ :: images, rfl, .nil, .cons ho himages⟩
  | cons r rs ih =>
    obtain ⟨o, os, ho, hos, rfl⟩ := List.forall₂_cons_left_iff.1 h
    obtain ⟨fonts, images, rfl, hfonts, himages⟩ := ih hos
    cases ho with
    | inl ho => exact ⟨_ :: fonts, images, rfl, .cons ho hfonts, himages⟩

/-- Outcomes that fit fonts and images are outcomes of fonts and of images. -/
theorem fits_append {rs : List FontRequest} {us : List ImageUsage} {outcomes : List Outcome}
    (h : List.Forall₂ Fits (rs.map .inl ++ us.map .inr) outcomes) :
    ∃ fonts images, outcomes = fonts.map .inl ++ images.map .inr ∧
      List.Forall₂ (fun r o => ∀ font, o = .ok font → font.face = r.face) rs fonts ∧
      List.Forall₂ (fun u o => ∀ image, o = .ok image → image.id = u.id) us images := by
  refine liftRel_append (h.imp fun item o hfits => ?_)
  rcases item with r | u <;> rcases o with o | o <;> try exact hfits.elim
  · exact .inl hfits
  · exact .inr hfits

/-- What outcomes of fonts and of images make of a document. -/
theorem assembled_append (d : Document) (fonts : List (Except Fault LoadedFont))
    (images : List (Except Fault LoadedImage)) :
    assembled d (fonts.map .inl ++ images.map .inr) = (settle fonts).map fun as =>
      ⟨d, as, collectImages ((d.images.map (·.id)).zip images)⟩ := by
  simp [assembled, List.filterMap_append, List.filterMap_map, Function.comp_def]

/-! ## The fonts of a context -/

section Fonts

variable {rs : List FontRequest} {os : List (Except Fault LoadedFont)}
  (h : List.Forall₂ (fun r o => ∀ font, o = .ok font → font.face = r.face) rs os)

include h

/-- The faces of the fonts are faces of requests, in order. -/
theorem faces_sublist : ((successes os).map (·.face)).Sublist (rs.map FontRequest.face) := by
  induction h with
  | nil => exact .slnil
  | @cons r o rs os hro _ ih =>
    cases o with
    | error fault => exact ih.cons _
    | ok font =>
      show ((font :: successes os).map (·.face)).Sublist (r.face :: rs.map FontRequest.face)
      rw [List.map_cons, hro font rfl]
      exact ih.cons_cons _

/-- Every font was requested. -/
theorem exists_request {font : LoadedFont} (hfont : font ∈ successes os) :
    ∃ r ∈ rs, r.face = font.face :=
  List.mem_map.1 ((faces_sublist h).subset (List.mem_map_of_mem hfont))

/-- One request has one font at most. -/
theorem successes_of_one {r : FontRequest} (hone : rs = [r]) (hne : successes os ≠ []) :
    ∃ font, successes os = [font] ∧ font.face = r.face := by
  obtain ⟨font, rest, hfont⟩ := List.exists_cons_of_ne_nil hne
  have hlength := (faces_sublist h).length_le
  rw [hfont, hone] at hlength
  have hrest : rest = [] := by simpa using hlength
  obtain ⟨r', hr', hface⟩ := exists_request h (hfont ▸ List.mem_cons_self)
  rw [hone] at hr'
  obtain rfl := List.mem_singleton.1 hr'
  exact ⟨font, by rw [hfont, hrest], hface.symm⟩

end Fonts

/-- Of fonts with distinct faces, the one with a face is found in any spelling of its family. -/
theorem Context.font?_eq {ctx : Context} (hnodup : (ctx.fonts.map (·.face)).Nodup)
    {font : LoadedFont} (hmem : font ∈ ctx.fonts) {family : String} {weight : Nat}
    {slant : Font.Slant} (hface : font.face = .of family weight slant) :
    ctx.font? family weight slant = some font := by
  have hfind : ctx.fonts.find? (fun f => f.face = Face.of family weight slant) = some font := by
    cases hfound : ctx.fonts.find? (fun f => f.face = Face.of family weight slant) with
    | none => exact absurd (by simpa using hface) (List.find?_eq_none.1 hfound font hmem)
    | some found =>
      have hsame : found.face = font.face := by
        rw [hface]
        simpa using List.find?_some hfound
      rw [List.inj_on_of_nodup_map hnodup (List.mem_of_find?_eq_some hfound) hmem hsame]
  simp only [Context.font?, hfind, Option.some_or]

/-! ## The images of a context -/

theorem mem_zip_ids {us : List ImageUsage} {os : List (Except Fault LoadedImage)}
    (h : List.Forall₂ (fun u o => ∀ image, o = .ok image → image.id = u.id) us os) {id : String}
    {image : LoadedImage} (hmem : (id, .ok image) ∈ (us.map (·.id)).zip os) :
    id ∈ us.map (·.id) ∧ image.id = id := by
  induction h with
  | nil => cases hmem
  | @cons u o us os huo _ ih =>
    rcases List.mem_cons.1 hmem with heq | hmem
    · cases heq
      exact ⟨List.mem_cons_self, huo image rfl⟩
    · exact ⟨List.mem_cons_of_mem _ (ih hmem).1, (ih hmem).2⟩

theorem get?_collectImages {us : List ImageUsage} {os : List (Except Fault LoadedImage)}
    (h : List.Forall₂ (fun u o => ∀ image, o = .ok image → image.id = u.id) us os) {id : String}
    {image : LoadedImage}
    (hget : (collectImages ((us.map (·.id)).zip os)).get? id = some image) :
    id ∈ us.map (·.id) ∧ image.id = id := by
  rw [collectImages, Dict.get?_ofList] at hget
  have hmem := List.mem_reverse.1 (Fields.mem_of_get? hget)
  obtain ⟨⟨id', o⟩, hzip, ho⟩ := List.mem_filterMap.1 hmem
  cases o with
  | error fault => cases ho
  | ok found =>
    cases ho
    exact mem_zip_ids h hzip

/-! ## The requests of a document -/

theorem mem_usageRequests {us : List Font.Usage} {r : FontRequest} :
    r ∈ usageRequests us ↔ ∃ u ∈ us, ∃ face ∈ u.faces, ⟨u.name, face.weight, face.slant⟩ = r := by
  simp [usageRequests]

/-- A document without fonts requests the default face, any other its usages. -/
theorem fontRequests_of_nil (s : Settings.Fetching) :
    fontRequests s [] = [⟨s.family, Font.defaultWeight, .normal⟩] := rfl

theorem fontRequests_of_ne_nil {us : List Font.Usage} (s : Settings.Fetching)
    (h : usageRequests us ≠ []) : fontRequests s us = usageRequests us := by
  unfold fontRequests
  cases husage : usageRequests us with
  | nil => exact absurd husage h
  | cons r rs => rfl

/-- There is always something to request. -/
theorem fontRequests_ne_nil (s : Settings.Fetching) (us : List Font.Usage) :
    fontRequests s us ≠ [] := by
  unfold fontRequests
  cases usageRequests us with
  | nil => exact List.cons_ne_nil _ _
  | cons r rs => exact List.cons_ne_nil _ _

theorem usageRequests_ne_nil {us : List Font.Usage} (hne : us ≠ [])
    (hfaces : ∀ u ∈ us, u.weights.toList ≠ [] ∧ u.slants.toList ≠ []) : usageRequests us ≠ [] := by
  obtain ⟨u, us, rfl⟩ := List.exists_cons_of_ne_nil hne
  obtain ⟨hweights, hslants⟩ := hfaces u List.mem_cons_self
  obtain ⟨weight, weights, hweight⟩ := List.exists_cons_of_ne_nil hweights
  obtain ⟨slant, slants, hslant⟩ := List.exists_cons_of_ne_nil hslants
  simp [usageRequests, Font.Usage.faces, hweight, hslant]

section Requests

variable {s : Settings} {root : Node δ} {d : Document}
  (htypeset : Typeset.typeset render s.typesetting root = .ok d)

include htypeset

theorem named_of_mem_fonts {u : Font.Usage} (hu : u ∈ d.fonts) : u.Named := by
  simpa [Font.Usage.Named] using List.find?_some ((Typeset.typeset_lists htypeset).names u hu)

/-- The faces that are requested for a document with fonts are those that it lists. -/
theorem fontRequests_listed (hne : d.fonts ≠ []) {r : FontRequest}
    (hr : r ∈ fontRequests s.fetching d.fonts) : ∃ u ∈ d.fonts, r.face ∈ u.faces := by
  have hlisted := (Typeset.typeset_lists htypeset).listsFonts
  rw [fontRequests_of_ne_nil _ (usageRequests_ne_nil hne hlisted.nonempty)] at hr
  obtain ⟨u, hu, face, hmem, rfl⟩ := mem_usageRequests.1 hr
  have hface := (named_of_mem_fonts htypeset hu).face_eq hmem
  exact ⟨u, hu, hface ▸ hmem⟩

/-- The face in effect at a visit is requested. -/
theorem exists_fontRequest {v : Typeset.Visit δ}
    (hv : v ∈ Typeset.visits render s.typesetting root) {raw : String}
    (hraw : v.written? = some raw) : ∃ r ∈ fontRequests s.fetching d.fonts,
      r.face = .of raw v.typography.weight v.typography.slant := by
  have hlisted := (Typeset.typeset_lists htypeset).listsFonts
  have hfamily : v.typography.family = some (Font.displayName raw) := by
    rw [v.family_eq, hraw]
    rfl
  obtain ⟨u, hfilter, -, -, hmem⟩ := hlisted.complete v hv _ hfamily
  have hu : u ∈ d.fonts := List.mem_of_mem_filter (hfilter ▸ List.mem_cons_self)
  have hr := mem_usageRequests.2 ⟨u, hu, _, hmem, rfl⟩
  have hrequests := fontRequests_of_ne_nil s.fetching (List.ne_nil_of_mem hr)
  refine ⟨_, hrequests ▸ hr, ?_⟩
  have hface := (named_of_mem_fonts htypeset hu).face_eq hmem
  exact hface.symm.trans (Face.of_displayName raw _ _)

end Requests

/-! ## Accounts -/

/-- A context accounts for the fonts and the images of its document. -/
structure Accounts (render : Rendering δ) (s : Settings) (root : Node δ) (outcomes : List Outcome)
    (ctx : Context) : Prop where
  fonts_ne_nil : ctx.fonts ≠ []
  distinct : (ctx.fonts.map (·.face)).Nodup
  listed : ctx.document.fonts ≠ [] →
    ∀ font ∈ ctx.fonts, ∃ u ∈ ctx.document.fonts, font.face ∈ u.faces
  default : ctx.document.fonts = [] → ∃ font, ctx.fonts = [font] ∧
    font.face = .of s.fetching.family Font.defaultWeight .normal
  /-- An image on a sheet is there or missing, and not both. -/
  onSheets : ∀ sheet ∈ ctx.document.sheets, ∀ id ∈ sheet.imageIds,
    Xor (id ∈ ctx.images.keys) (id ∈ ctx.missingImages)
  images : ∀ id, id ∈ ctx.images.keys ↔
    id ∈ ctx.document.images.map (·.id) ∧ id ∉ ctx.missingImages
  ids : ∀ id image, ctx.image? id = some image → image.id = id
  /-- The face in effect at a visit was requested; if it was resolved, any spelling of the family as
  written leads to it. -/
  lookup : ∀ v ∈ Typeset.visits render s.typesetting root, ∀ raw spelling, v.written? = some raw →
    Font.familyKey spelling = Font.familyKey raw →
    ∃ r ∈ fontRequests s.fetching ctx.document.fonts,
      r.face = .of raw v.typography.weight v.typography.slant ∧
        ∀ font, (.inl r, .inl (.ok font)) ∈ (items s.fetching ctx.document).zip outcomes →
          font.face = r.face ∧
            ctx.font? spelling v.typography.weight v.typography.slant = some font

section Accounts

variable {s : Settings} {root : Node δ} {d : Document} {outcomes : List Outcome} {ctx : Context}

/-- A success of an assembly: the fonts and the images that were resolved. -/
theorem assembled_eq_ok {s : Settings.Fetching} (hfits : List.Forall₂ Fits (items s d) outcomes)
    (hctx : assembled d outcomes = .ok ctx) :
    ∃ fonts images, outcomes = fonts.map .inl ++ images.map .inr ∧
      List.Forall₂ (fun r o => ∀ font, o = .ok font → font.face = r.face)
        (fontRequests s d.fonts) fonts ∧
      List.Forall₂ (fun u o => ∀ image, o = .ok image → image.id = u.id) d.images images ∧
      successes fonts ≠ [] ∧
      ctx = ⟨d, successes fonts, collectImages ((d.images.map (·.id)).zip images)⟩ := by
  obtain ⟨fonts, images, rfl, hfonts, himages⟩ := fits_append hfits
  have hne : fonts ≠ [] := by
    rintro rfl
    exact fontRequests_ne_nil s d.fonts (List.eq_nil_of_length_eq_zero hfonts.length_eq)
  rw [assembled_append] at hctx
  cases hsettle : settle fonts with
  | error fault =>
    rw [hsettle] at hctx
    cases hctx
  | ok as =>
    rw [hsettle] at hctx
    cases hctx
    obtain ⟨rfl, hsuccesses⟩ := settle_eq_ok hne hsettle
    exact ⟨fonts, images, rfl, hfonts, himages, hsuccesses, rfl⟩

/-- An image that a document lists is in the context or missing. -/
theorem xor_missing {id : String} (h : id ∈ ctx.document.images.map (·.id)) :
    Xor (id ∈ ctx.images.keys) (id ∈ ctx.missingImages) := by
  rw [Dict.mem_keys, Context.missingImages, List.mem_filter]
  by_cases hcontains : ctx.images.contains id = true
  · exact .inl ⟨hcontains, by simp [hcontains]⟩
  · exact .inr ⟨⟨h, by simpa using hcontains⟩, hcontains⟩

theorem accounts_of_assembles {c : Shared Outcome} (hreachable : Reachable s.fetching c)
    (h : Assembles render s root c outcomes ctx) : Accounts render s root outcomes ctx := by
  obtain ⟨d, htypeset, hassembly, hctx⟩ := h
  have hfits := hassembly.fits hreachable
  obtain ⟨fonts, images, rfl, hfonts, himages, hne, rfl⟩ := assembled_eq_ok hfits hctx
  have hnodup : ((successes fonts).map (·.face)).Nodup :=
    (typeset_fontRequests_nodup htypeset).sublist (faces_sublist hfonts)
  have hget : ∀ {id : String} {image : LoadedImage},
      (collectImages ((d.images.map (·.id)).zip images)).get? id = some image →
        id ∈ d.images.map (·.id) ∧ image.id = id := get?_collectImages himages
  constructor
  case fonts_ne_nil => exact hne
  case distinct => exact hnodup
  case listed =>
    intro hfontsNe font hfont
    obtain ⟨r, hr, hface⟩ := exists_request hfonts hfont
    rw [← hface]
    exact fontRequests_listed htypeset hfontsNe hr
  case default =>
    intro hnil
    have hone : fontRequests s.fetching d.fonts =
        [⟨s.fetching.family, Font.defaultWeight, .normal⟩] :=
      (congrArg (fontRequests s.fetching) hnil).trans (fontRequests_of_nil s.fetching)
    obtain ⟨font, hfont, hface⟩ := successes_of_one hfonts hone hne
    exact ⟨font, hfont, hface⟩
  case onSheets =>
    intro sheet hsheet id hid
    exact xor_missing ((Typeset.typeset_imageIds htypeset id).2 ⟨sheet, hsheet, hid⟩)
  case images =>
    intro id
    constructor
    · intro hkey
      obtain ⟨image, himage⟩ := Option.isSome_iff_exists.1 (Dict.mem_keys.1 hkey)
      have hid := (hget himage).1
      exact ⟨hid, (xor_missing hid).elim And.right fun h => absurd hkey h.2⟩
    · rintro ⟨hid, hmissing⟩
      exact (xor_missing hid).elim And.left fun h => absurd h.1 hmissing
  case ids => exact fun id image himage => (hget himage).2
  case lookup =>
    intro v hv raw spelling hraw hspelling
    obtain ⟨r, hr, hface⟩ := exists_fontRequest htypeset hv hraw
    refine ⟨r, hr, hface, fun font hfont => ?_⟩
    have hfits : font.face = r.face := (List.forall₂_iff_zip.1 hfits).2 hfont font rfl
    have hok : .ok font ∈ fonts := by simpa using (List.of_mem_zip hfont).2
    refine ⟨hfits, Context.font?_eq hnodup (mem_successes.2 hok) ?_⟩
    rw [hfits, hface, Face.of, Face.of, hspelling]

end Accounts

/-! ## Fetching one after another -/

section InTurn

variable {w : World σ} {s : Settings} {root : Node δ} {ctx : Context}

/-- To gather a document is to resolve its items in turn. -/
theorem gather_eq (s : Settings.Fetching) (d : Document) :
    gather s d =
      (Plan.inTurn (resolutions s d)).bind fun outcomes => .done (assembled d outcomes) := by
  have hplans : resolutions s d =
      ((fontRequests s d.fonts).map fun r => (r.resolve s).outcome).map
        (fun p => p.bind fun o => .done (.inl o)) ++
      (d.images.map fun u => (resolveImage s u.id u.source).outcome).map
        (fun p => p.bind fun o => .done (.inr o)) := by
    simp [resolutions, items, resolution, Function.comp_def]
  rw [hplans, Plan.inTurn_append, Plan.inTurn_map, Plan.inTurn_map]
  simp only [Plan.bind_assoc, Plan.bind, assembled_append]
  show ((Plan.inTurn _).bind _).bind _ = _
  rw [Plan.bind_assoc]
  refine congrArg _ (funext fun fonts => ?_)
  show ((Plan.inTurn _).bind _).bind _ = _
  rw [Plan.bind_assoc]
  rfl

/-- What is prepared is assembled, while the other tasks wait. -/
theorem assembles_of_prepare {c : Shared Outcome} (x : σ)
    (h : ((prepare render s root).run w (c.store, x)).1 = .ok ctx) :
    ∃ outcomes, Assembles render s root c outcomes ctx := by
  unfold prepare at h
  cases htypeset : Typeset.typeset render s.typesetting root with
  | error fault =>
    rw [htypeset] at h
    cases h
  | ok d =>
    rw [htypeset] at h
    have hctx : assembled d
        ((Plan.inTurn (resolutions s.fetching d)).run w (c.store, x)).1 = .ok ctx := by
      rw [← h]
      show _ = ((gather s.fetching d).run w (c.store, x)).1
      rw [gather_eq, Plan.run_map]
    obtain ⟨es, hes⟩ := Plan.inTurn_history (w := w) (resolutions s.fetching d) [] c.plans c.store x
    have hlength : ((Plan.inTurn (resolutions s.fetching d)).run w (c.store, x)).1.length =
        (items s.fetching d).length := by
      rw [Plan.length_run_inTurn, resolutions, List.length_map]
    exact ⟨_, d, htypeset, ⟨hlength, es, c.plans, _, by simpa using hes⟩, hctx⟩

end InTurn

/-- **Every assembled context accounts for its document**, and whatever is prepared is assembled. -/
theorem assembles_accounts {s : Settings} {c : Shared Outcome}
    (hreachable : Reachable s.fetching c) (render : Rendering δ) (root : Node δ) :
    (∀ outcomes ctx, Assembles render s root c outcomes ctx →
      Accounts render s root outcomes ctx) ∧
    ∀ (w : World σ) (x : σ) (ctx : Context),
      ((prepare render s root).run w (c.store, x)).1 = .ok ctx →
        ∃ outcomes, Assembles render s root c outcomes ctx :=
  ⟨fun _ _ h => accounts_of_assembles hreachable h, fun _ x _ h => assembles_of_prepare x h⟩

/-! ## A scrapbook -/

/-- A bold page with two pictures and a word in italics, in a family written as a stack. -/
def scrapbook : Node Empty :=
  Typeset.styled "page" [("fontFamily", .text "'EB  Garamond', serif"), ("fontWeight", .text "bold")]
    [.node (picture "left"), .node (.element "div" .empty [.node (picture "right")]),
      .node (Typeset.styled "text" [("fontStyle", .text "italic")] [.text "word"])]

/-- One producer hands out an address of the network, the other a local one. -/
def oneMissing : Answers where
  fetch _ _ := .ok ⟨200, Bytes.ofText "GIF89a"⟩
  produce producer := .ok (.url (if producer.name = "left" then catUrl else "cat.gif"))

/-- A store with a registered font of the family. -/
def garamondStore : Store := Store.empty.register "EB Garamond" ⟨700, .normal, .data [1]⟩

/-- One picture is missing; both faces are found by the stack as it is written. -/
theorem scrapbook_accounts :
    Reachable Settings.default.fetching ⟨[], garamondStore⟩ ∧ ∃ outcomes ctx,
      Assembles Typeset.plain .default scrapbook ⟨[], garamondStore⟩ outcomes ctx ∧
      Accounts Typeset.plain .default scrapbook outcomes ctx ∧
      ctx.fonts.map (·.face) = [⟨"eb-garamond", 700, .normal⟩, ⟨"eb-garamond", 700, .italic⟩] ∧
      ctx.images.keys = ["deferred:left"] ∧ ctx.missingImages = ["deferred:right"] ∧
      ctx.font? "'EB  Garamond', serif" 700 .italic =
        some ⟨⟨"eb-garamond", 700, .italic⟩, [1], none⟩ := by
  have hreachable : Reachable Settings.default.fetching ⟨[], garamondStore⟩ :=
    ⟨[], .empty, [.registered "EB Garamond" ⟨700, .normal, .data [1]⟩],
      .cons (.registered _ _) (.nil _)⟩
  have hrun : ∃ ctx,
      ((prepare Typeset.plain .default scrapbook).run oneMissing.world (garamondStore, ())).1 =
        .ok ctx ∧
      ctx.fonts.map (·.face) = [⟨"eb-garamond", 700, .normal⟩, ⟨"eb-garamond", 700, .italic⟩] ∧
      ctx.images.keys = ["deferred:left"] ∧ ctx.missingImages = ["deferred:right"] ∧
      ctx.font? "'EB  Garamond', serif" 700 .italic =
        some ⟨⟨"eb-garamond", 700, .italic⟩, [1], none⟩ :=
    ⟨_, rfl, by decide, by decide, by decide, by decide⟩
  obtain ⟨ctx, hok, hfacts⟩ := hrun
  obtain ⟨haccounts, hprepared⟩ := assembles_accounts hreachable Typeset.plain scrapbook
  obtain ⟨outcomes, hassembles⟩ := hprepared oneMissing.world () ctx hok
  exact ⟨hreachable, outcomes, ctx, hassembles, haccounts outcomes ctx hassembles, hfacts⟩

end Galley.Press
