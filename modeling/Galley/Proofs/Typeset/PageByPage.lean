import Galley.Proofs.Typeset.Expansion
import Galley.Proofs.Typeset.Pieces
import Galley.Proofs.Typeset.Success
import Galley.Proofs.Typeset.UsageMerge

/-!
# A document is typeset page by page

The pages of a document share the properties of the document and one record of what is mentioned,
and nothing else.

**Theorem (`typeset_pageByPage`).** If all children of a document expand, the document is typeset
just when it has a page and, for each page, the document with that page alone is typeset. Its
sheets are then the sheets of these documents in order, its images are theirs without repetitions,
and its fonts are theirs put together.

What stands on no page is left out first (`setSheets_pageNodes`). The pages that are left are set
each on its own (`setSheets_nodes_eq_ok`), and each such part, with what the document element
itself mentions, is the document of one page (`typeset_withOnly_eq_ok`). The document mentions a
second time for each page what its element mentions, and a merge does not see that
(`append_fontUsages_alike`).
-/

namespace Galley.Typeset

open Document (Block Sheet)
open Markup (Element Node Piece Rendering)

variable {δ : Type}

theorem exists_forall₂_iff {α β : Type} {R : α → β → Prop} {as : List α} :
    (∃ bs, List.Forall₂ R as bs) ↔ ∀ a ∈ as, ∃ b, R a b := by
  induction as with
  | nil => simp
  | cons a as ih =>
    rw [List.forall_mem_cons, ← ih]
    constructor
    · rintro ⟨bs, hbs⟩
      obtain ⟨b, rest, hb, hrest, -⟩ := List.forall₂_cons_left_iff.1 hbs
      exact ⟨⟨b, hb⟩, rest, hrest⟩
    · rintro ⟨⟨b, hb⟩, rest, hrest⟩
      exact ⟨b :: rest, .cons hb hrest⟩

/-! ## Pages among pieces -/

section Pieces

variable {expand : Node δ → Except Fault (Element δ)}
  {set : Element δ → Except Fault (Block × List Mention)} {default : Page.Dimensions}

/-- The nodes among pieces that expand to pages. -/
def pageNodes (expand : Node δ → Except Fault (Element δ)) (ps : List (Piece δ)) : List (Node δ) :=
  ps.filterMap fun
    | .text _ => none
    | .node n =>
      match expand n with
      | .ok c => if kind c = .page then some n else none
      | .error _ => none

theorem mem_pageNodes {ps : List (Piece δ)} {n : Node δ} (h : n ∈ pageNodes expand ps) :
    ∃ c, expand n = .ok c ∧ kind c = .page := by
  obtain ⟨p, -, hp⟩ := List.mem_filterMap.1 h
  cases p with
  | text t => cases hp
  | node m =>
    cases hm : expand m with
    | error f => simp [hm] at hp
    | ok c =>
      by_cases hpage : kind c = .page
      · obtain rfl : m = n := by simpa [hm, hpage] using hp
        exact ⟨c, hm, hpage⟩
      · simp [hm, hpage] at hp

theorem pageNodes_of_page {n : Node δ} {c : Element δ} (h : expand n = .ok c)
    (hpage : kind c = .page) (ps : List (Piece δ)) :
    pageNodes expand (.node n :: ps) = n :: pageNodes expand ps := by
  simp [pageNodes, h, hpage]

theorem pageNodes_of_not_page {n : Node δ} {c : Element δ} (h : expand n = .ok c)
    (hpage : kind c ≠ .page) (ps : List (Piece δ)) :
    pageNodes expand (.node n :: ps) = pageNodes expand ps := by
  simp [pageNodes, h, hpage]

/-- **Only the pages are set**, where everything expands. -/
theorem setSheets_pageNodes {ps : List (Piece δ)}
    (hexpand : ∀ n, .node n ∈ ps → ∃ c, expand n = .ok c) :
    setSheets expand set default ps =
      setSheets expand set default ((pageNodes expand ps).map .node) := by
  induction ps with
  | nil => rfl
  | cons p ps ih =>
    have hrest := ih fun n hn => hexpand n (List.mem_cons_of_mem _ hn)
    cases p with
    | text t => exact hrest
    | node n =>
      obtain ⟨c, hc⟩ := hexpand n List.mem_cons_self
      by_cases hpage : kind c = .page
      · simp only [pageNodes_of_page hc hpage, List.map_cons, setSheets, hrest]
      · rw [setSheets_of_not_page hc hpage, pageNodes_of_not_page hc hpage, hrest]

/-- **Nodes are set each on its own.** -/
theorem setSheets_nodes_eq_ok {ns : List (Node δ)} {part : List Sheet × List Mention} :
    setSheets expand set default (ns.map .node) = .ok part ↔
      ∃ parts, List.Forall₂ (fun n part => setSheets expand set default [.node n] = .ok part) ns
          parts ∧ part = (parts.flatMap Prod.fst, parts.flatMap Prod.snd) := by
  induction ns generalizing part with
  | nil =>
    simp only [List.map_nil, setSheets, List.forall₂_nil_left_iff, exists_eq_left,
      Except.ok.injEq, List.flatMap_nil]
    exact eq_comm
  | cons n ns ih =>
    have happend : setSheets expand set default ((n :: ns).map .node) = _ :=
      setSheets_append [.node n] (ns.map .node)
    rw [happend]
    simp only [bind_eq_ok, ih, List.forall₂_cons_left_iff, Except.ok.injEq]
    constructor
    · rintro ⟨first, hfirst, _, ⟨rest, hrest, rfl⟩, rfl⟩
      exact ⟨first :: rest, ⟨first, rest, hfirst, hrest, rfl⟩, rfl⟩
    · rintro ⟨_, ⟨first, rest, hfirst, hrest, rfl⟩, rfl⟩
      exact ⟨first, hfirst, _, ⟨rest, hrest, rfl⟩, rfl⟩

end Pieces

/-! ## Documents of one page -/

variable {render : Rendering δ} {s : Settings.Typesetting} {e : Element δ}

/-- The pages of a document element. -/
def pagesOf (render : Rendering δ) (s : Settings.Typesetting) (e : Element δ) : List (Node δ) :=
  pageNodes (expand render s.componentLimit) (Markup.pieces e.children)

/-- The element with one child in place of its children. -/
def withOnly (e : Element δ) (n : Node δ) : Node δ := .element e.tag e.props [.node n]

/-- Pieces set as the children of a document element: their sheets and what they mention. -/
def setChildren (render : Rendering δ) (s : Settings.Typesetting) (e : Element δ)
    (ps : List (Piece δ)) : Except Fault (List Sheet × List Mention) :=
  setSheets (expand render s.componentLimit)
    (setElement render s s.depthLimit (Typography.initial.apply (elementStyle e))) s.pageSize ps

/-- What a document element mentions itself. -/
def ownMentions (e : Element δ) : List Mention :=
  (Typography.initial.apply (elementStyle e)).mentions (elementStyle e)

/-- The document of a document element, from its sheets and what is mentioned on them. -/
def documentOf (e : Element δ) (part : List Sheet × List Mention) : Document :=
  assemble part.1 (ownMentions e ++ part.2) (some (metadata e))

theorem setDocument_eq_ok_iff {d : Document} :
    setDocument render s e = .ok d ↔
      ∃ part, setChildren render s e (Markup.pieces e.children) = .ok part ∧ part.1 ≠ [] ∧
        d = documentOf e part := by
  constructor
  · intro h
    obtain ⟨sheets, ms, hpart⟩ := setDocument_eq_ok h
    exact ⟨(sheets, ms), hpart⟩
  · rintro ⟨⟨sheets, ms⟩, hpart, hne, rfl⟩
    rw [setChildren] at hpart
    have hempty : sheets.isEmpty = false := by simpa using hne
    simp only [setDocument, hpart, bind, Except.bind, hempty]
    rfl

/-- **A document in parts**, one for each page. -/
theorem typeset_eq_ok_iff_parts (hdoc : kind e = .document)
    (hexpand : ∀ n, .node n ∈ Markup.pieces e.children →
      ∃ c, expand render s.componentLimit n = .ok c) {d : Document} :
    typeset render s e.node = .ok d ↔ ∃ parts,
      List.Forall₂ (fun p part => setChildren render s e [.node p] = .ok part)
        (pagesOf render s e) parts ∧
      parts ≠ [] ∧ d = documentOf e (parts.flatMap Prod.fst, parts.flatMap Prod.snd) := by
  rw [typeset_of_document (expand_node _ e) hdoc, setDocument_eq_ok_iff, setChildren,
    setSheets_pageNodes hexpand]
  simp only [setSheets_nodes_eq_ok]
  constructor
  · rintro ⟨_, ⟨parts, hparts, rfl⟩, hne, hd⟩
    refine ⟨parts, hparts, ?_, hd⟩
    rintro rfl
    exact hne rfl
  · rintro ⟨parts, hparts, hne, hd⟩
    refine ⟨_, ⟨parts, hparts, rfl⟩, fun hnone => ?_, hd⟩
    obtain ⟨part, rest, rfl⟩ := List.exists_cons_of_ne_nil hne
    obtain ⟨p, ps, hpart, -, hpages⟩ := List.forall₂_cons_right_iff.1 hparts
    obtain ⟨c, hc, hpage⟩ := mem_pageNodes (hpages ▸ List.mem_cons_self : p ∈ pagesOf render s e)
    -- A page leads to a sheet, so the first part has one.
    have hfirst : part.1 = [] := (List.append_eq_nil_iff.1 hnone).1
    exact (setSheets_eq_nil_iff hpart).1 hfirst p c List.mem_cons_self hc hpage

/-- **A document of one page** is the document of its part. -/
theorem typeset_withOnly_eq_ok (hdoc : kind e = .document) {p : Node δ}
    (hp : p ∈ pagesOf render s e) {d : Document} :
    typeset render s (withOnly e p) = .ok d ↔
      ∃ part, setChildren render s e [.node p] = .ok part ∧ d = documentOf e part := by
  obtain ⟨c, hc, hpage⟩ := mem_pageNodes hp
  have hpages : pagesOf render s ⟨e.tag, e.props, [.node p]⟩ = [p] :=
    pageNodes_of_page hc hpage []
  have hexpand : ∀ n, .node n ∈ Markup.pieces [.node p] →
      ∃ c, expand render s.componentLimit n = .ok c := by
    intro n hn
    obtain rfl : n = p := by simpa [Markup.pieces, Markup.Child.pieces] using hn
    exact ⟨c, hc⟩
  have hiff := @typeset_eq_ok_iff_parts δ render s ⟨e.tag, e.props, [.node p]⟩ hdoc hexpand d
  have hone : ∀ part : List Sheet × List Mention,
      ([part].flatMap Prod.fst, [part].flatMap Prod.snd) = part := by
    intro part
    simp
  rw [hpages] at hiff
  refine hiff.trans ⟨?_, ?_⟩
  · rintro ⟨parts, hparts, -, hd⟩
    obtain ⟨part, rest, hpart, hrest, rfl⟩ := List.forall₂_cons_left_iff.1 hparts
    obtain rfl := List.forall₂_nil_left_iff.1 hrest
    rw [hone] at hd
    exact ⟨part, hpart, hd⟩
  · rintro ⟨part, hpart, hd⟩
    refine ⟨[part], .cons hpart .nil, List.cons_ne_nil _ _, ?_⟩
    rw [hone]
    exact hd

theorem documents_of_parts (hdoc : kind e = .document) {parts : List (List Sheet × List Mention)}
    (hparts : List.Forall₂ (fun p part => setChildren render s e [.node p] = .ok part)
      (pagesOf render s e) parts) :
    List.Forall₂ (fun p d => typeset render s (withOnly e p) = .ok d) (pagesOf render s e)
      (parts.map (documentOf e)) := by
  rw [List.forall₂_map_right_iff]
  have hboth := (List.forall₂_and_left _ _).2 ⟨fun p hp => hp, hparts⟩
  refine hboth.imp fun p part h => ?_
  exact (typeset_withOnly_eq_ok hdoc h.1).2 ⟨part, h.2, rfl⟩

/-! ## Usages of all pages -/

section Usages

variable {α : Type} {own : List Mention} {f : α → List Mention}

/-- An element mentions faces before its children, and no image. -/
theorem ownMentions_images (e : Element δ) :
    (ownMentions e).filterMap Mention.imageUsage? = [] := by
  unfold ownMentions Typography.mentions
  split
  · split <;> rfl
  · rfl

/-- The images of all parts are those of each part, without repetitions. -/
theorem imageUsages_flatMap (e : Element δ) (parts : List α) :
    imageUsages (ownMentions e ++ parts.flatMap f) =
      distinctBy (·.id) (parts.flatMap fun a => imageUsages (ownMentions e ++ f a)) := by
  simp only [imageUsages_eq, List.filterMap_append, ownMentions_images, List.nil_append]
  rw [distinctBy_flatMap_distinctBy, List.filterMap_flatMap]

/-- The fonts of a part mention again what the element mentions, which makes no difference after
it. -/
theorem append_fontUsages_alike {us : List Font.Usage}
    (hown : ∀ u ∈ own.filterMap Mention.fontUsage?, u ∈ us) (parts : List α) :
    Alike (us ++ parts.flatMap fun a => fontUsages (own ++ f a))
      (us ++ (parts.flatMap f).filterMap Mention.fontUsage?) := by
  induction parts generalizing us with
  | nil => exact .refl _
  | cons a parts ih =>
    have hfirst : Alike (us ++ fontUsages (own ++ f a))
        (us ++ (f a).filterMap Mention.fontUsage?) := by
      have halike := (Alike.refl us).append (fontUsages_alike (own ++ f a))
      rw [List.filterMap_append, ← List.append_assoc] at halike
      exact halike.trans ((Alike.append_of_subset hown).append (.refl _))
    have hrest := ih fun u hu =>
      List.mem_append_left ((f a).filterMap Mention.fontUsage?) (hown u hu)
    rw [List.flatMap_cons, List.flatMap_cons, List.filterMap_append, ← List.append_assoc,
      ← List.append_assoc]
    exact (hfirst.append (.refl _)).trans hrest

/-- The fonts of all parts are those of each part, put together. -/
theorem fontUsages_flatMap {parts : List α} (hne : parts ≠ []) :
    fontUsages (own ++ parts.flatMap f) =
      mergeFonts (parts.flatMap fun a => fontUsages (own ++ f a)) := by
  obtain ⟨a, rest, rfl⟩ := List.exists_cons_of_ne_nil hne
  have hrest : Alike ((own ++ f a).filterMap Mention.fontUsage? ++
      rest.flatMap fun a => fontUsages (own ++ f a))
      ((own ++ (a :: rest).flatMap f).filterMap Mention.fontUsage?) := by
    have hown : ∀ u ∈ own.filterMap Mention.fontUsage?,
        u ∈ (own ++ f a).filterMap Mention.fontUsage? := fun u hu => by
      rw [List.filterMap_append]
      exact List.mem_append_left _ hu
    rw [List.flatMap_cons, ← List.append_assoc, @List.filterMap_append _ _ (own ++ f a)]
    exact append_fontUsages_alike hown rest
  have hall := ((fontUsages_alike (own ++ f a)).append (.refl _)).trans
    (hrest.trans (fontUsages_alike _).symm)
  rw [← mergeFonts_of_nodup (nodup_fontUsages (own ++ (a :: rest).flatMap f)), List.flatMap_cons]
  exact hall.symm.mergeFonts_eq

end Usages

/-! ## Page by page -/

/-- **A document is typeset page by page.** -/
theorem typeset_pageByPage (hdoc : kind e = .document)
    (hexpand : ∀ n, .node n ∈ Markup.pieces e.children →
      ∃ c, expand render s.componentLimit n = .ok c) :
    ((∃ d, typeset render s e.node = .ok d) ↔ pagesOf render s e ≠ [] ∧
      ∀ p ∈ pagesOf render s e, ∃ d, typeset render s (withOnly e p) = .ok d) ∧
    ∀ d, typeset render s e.node = .ok d → ∃ ds,
      List.Forall₂ (fun p d => typeset render s (withOnly e p) = .ok d) (pagesOf render s e) ds ∧
      d.sheets = ds.flatMap (·.sheets) ∧
      d.images = distinctBy (·.id) (ds.flatMap (·.images)) ∧
      d.fonts = mergeFonts (ds.flatMap (·.fonts)) := by
  constructor
  · constructor
    · rintro ⟨d, hd⟩
      obtain ⟨parts, hparts, hne, -⟩ := (typeset_eq_ok_iff_parts hdoc hexpand).1 hd
      refine ⟨fun hnone => hne ?_, fun p hp => ?_⟩
      · rw [hnone] at hparts
        exact List.forall₂_nil_left_iff.1 hparts
      · obtain ⟨part, hpart⟩ := exists_forall₂_iff.1 ⟨parts, hparts⟩ p hp
        exact ⟨_, (typeset_withOnly_eq_ok hdoc hp).2 ⟨part, hpart, rfl⟩⟩
    · rintro ⟨hpages, hall⟩
      obtain ⟨parts, hparts⟩ := exists_forall₂_iff.2 fun p hp => by
        obtain ⟨d, hd⟩ := hall p hp
        obtain ⟨part, hpart, -⟩ := (typeset_withOnly_eq_ok hdoc hp).1 hd
        exact ⟨part, hpart⟩
      refine ⟨_, (typeset_eq_ok_iff_parts hdoc hexpand).2 ⟨parts, hparts, ?_, rfl⟩⟩
      rintro rfl
      exact hpages (List.forall₂_nil_right_iff.1 hparts)
  · intro d hd
    obtain ⟨parts, hparts, hne, rfl⟩ := (typeset_eq_ok_iff_parts hdoc hexpand).1 hd
    refine ⟨parts.map (documentOf e), documents_of_parts hdoc hparts, ?_, ?_, ?_⟩
    · rw [List.flatMap_map]
      rfl
    · rw [List.flatMap_map]
      exact imageUsages_flatMap e parts
    · rw [List.flatMap_map]
      exact fontUsages_flatMap hne

/-! ## A brochure -/

/-- An image that is asked for by name. -/
def photo (name : String) : Node Unit :=
  .element "img" { Markup.Props.empty with src := some (.deferred ⟨name, 0⟩) } []

/-- A component that renders a page in italics with two photos. -/
def plates : Rendering Unit := fun _ _ =>
  .element "page"
    { Markup.Props.empty with
      style := .ofList
        [("fontStyle", .text "italic"), ("fontFamily", .text "'EB  Garamond', serif")] }
    [.node (photo "bridge"), .node (photo "harbour")]

/-- A document in bold letters: a page in a list, stray text, an image on no page, and a page that
a component renders. -/
def brochure : Element Unit where
  tag := "document"
  props := { Markup.Props.empty with
    style := .ofList [("fontWeight", .text "bold"), ("fontFamily", .text "EB Garamond")] }
  children := [.list [.node (.element "page" .empty [.node (photo "harbour"), .text "Harbour"]),
    .text "stray"], .node (.element "img" .empty []), .node (.component "Plates" .empty ())]

/-- Both pages ask for the family and for the harbour. -/
theorem brochure_pageByPage :
    kind brochure = .document ∧
    (∀ n, .node n ∈ Markup.pieces brochure.children → ∃ c, expand plates 64 n = .ok c) ∧
    (∀ p ∈ pagesOf plates .default brochure,
      ∃ d, typeset plates .default (withOnly brochure p) = .ok d) ∧
    ∃ d ds, typeset plates .default brochure.node = .ok d ∧
      List.Forall₂ (fun p d => typeset plates .default (withOnly brochure p) = .ok d)
        (pagesOf plates .default brochure) ds ∧
      d.sheets = ds.flatMap (·.sheets) ∧ d.sheets.length = 2 ∧
      d.images = distinctBy (·.id) (ds.flatMap (·.images)) ∧
      d.images.map (·.id) = ["deferred:harbour", "deferred:bridge"] ∧
      d.fonts = mergeFonts (ds.flatMap (·.fonts)) ∧
      d.fonts = [⟨"eb-garamond", "EB Garamond", .ofList [700], .ofList [.normal, .italic]⟩] := by
  have hdoc : kind brochure = .document := by decide
  have hexpand : ∀ n, .node n ∈ Markup.pieces brochure.children →
      ∃ c, expand plates Settings.Typesetting.default.componentLimit n = .ok c := by
    intro n hn
    have hcases : n = .element "page" .empty [.node (photo "harbour"), .text "Harbour"] ∨
        n = .element "img" .empty [] ∨ n = .component "Plates" .empty () := by
      simpa [brochure, Markup.pieces, Markup.Child.pieces] using hn
    rcases hcases with rfl | rfl | rfl <;> exact ⟨_, rfl⟩
  obtain ⟨hsucceeds, hpages⟩ := typeset_pageByPage hdoc hexpand
  have hd : ∃ d, typeset plates .default brochure.node = .ok d := ⟨_, rfl⟩
  refine ⟨hdoc, hexpand, (hsucceeds.1 hd).2, ?_⟩
  obtain ⟨ds, hds, hsheets, himages, hfonts⟩ := hpages _ rfl
  exact ⟨_, ds, rfl, hds, hsheets, rfl, himages, by decide, hfonts, by decide +kernel⟩

end Galley.Typeset
