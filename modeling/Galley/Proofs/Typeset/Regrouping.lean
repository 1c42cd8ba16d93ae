import Galley.Markup.Flatten
import Galley.Proofs.Typeset.Expansion
import Galley.Typeset.Tree

/-!
# Grouping of children

Children may stand among others in lists, or with null, a truth value or an empty list between them.
Trees that differ by such groupings, at any depth and in what their components render, are regrouped
(`Regrouped`).

**Theorem (`typeset_regrouped`).** Flattening by a loop gives the pieces of children, in whatever
lists these are nested. Therefore regrouped trees are typeset alike: as one document, or with one
fault.

The pieces of regrouped children are the same, up to the grouping within them
(`Regrouped.pieces`). So are the elements that regrouped nodes expand to
(`RegroupedNode.expand`), and these give the same block, by induction on the levels.
-/

namespace Galley.Typeset

open Document (Block)
open Markup (Child Element Node Piece Rendering)

variable {δ : Type}

/-! ## Regrouped trees -/

/-- Children that are grouped in other ways, or have others that stand for nothing between them. -/
inductive Regrouped : List (Child δ) → List (Child δ) → Prop
  | refl (cs : List (Child δ)) : Regrouped cs cs
  | symm {cs cs' : List (Child δ)} (h : Regrouped cs cs') : Regrouped cs' cs
  | trans {cs cs' cs'' : List (Child δ)} (h : Regrouped cs cs') (h' : Regrouped cs' cs'') :
      Regrouped cs cs''
  | list (items : List (Child δ)) : Regrouped items [.list items]
  | null : Regrouped [] [.null]
  | bool (b : Bool) : Regrouped [] [.bool b]
  | append {cs cs' ds ds' : List (Child δ)} (h : Regrouped cs cs') (h' : Regrouped ds ds') :
      Regrouped (cs ++ ds) (cs' ++ ds')
  | element (tag : String) (props : Markup.Props) {cs cs' : List (Child δ)}
      (h : Regrouped cs cs') :
      Regrouped [.node (.element tag props cs)] [.node (.element tag props cs')]

/-- Nodes that differ by the grouping of their children only. -/
inductive RegroupedNode : Node δ → Node δ → Prop
  | component (name : String) (props : Markup.Props) (definition : δ) :
      RegroupedNode (.component name props definition) (.component name props definition)
  | element (tag : String) (props : Markup.Props) {cs cs' : List (Child δ)}
      (h : Regrouped cs cs') : RegroupedNode (.element tag props cs) (.element tag props cs')

/-- The same texts, and nodes that differ by the grouping of their children only. -/
inductive RegroupedPieces : List (Piece δ) → List (Piece δ) → Prop
  | nil : RegroupedPieces [] []
  | text (s : String) {ps ps' : List (Piece δ)} (h : RegroupedPieces ps ps') :
      RegroupedPieces (.text s :: ps) (.text s :: ps')
  | node {n n' : Node δ} (hnode : RegroupedNode n n') {ps ps' : List (Piece δ)}
      (h : RegroupedPieces ps ps') : RegroupedPieces (.node n :: ps) (.node n' :: ps')

namespace RegroupedNode

variable {n n' n'' : Node δ}

theorem refl : ∀ n : Node δ, RegroupedNode n n
  | .component name props definition => .component name props definition
  | .element tag props cs => .element tag props (.refl cs)

theorem symm (h : RegroupedNode n n') : RegroupedNode n' n := by
  cases h with
  | component name props definition => exact .component name props definition
  | element tag props h => exact .element tag props h.symm

theorem trans (h : RegroupedNode n n') (h' : RegroupedNode n' n'') : RegroupedNode n n'' := by
  cases h with
  | component name props definition => exact h'
  | element tag props h =>
    cases h' with
    | element tag props h' => exact .element tag props (h.trans h')

theorem name_eq (h : RegroupedNode n n') : n.name = n'.name := by
  cases h <;> rfl

end RegroupedNode

namespace RegroupedPieces

variable {ps ps' ps'' qs qs' : List (Piece δ)}

theorem refl : ∀ ps : List (Piece δ), RegroupedPieces ps ps
  | [] => .nil
  | .text s :: ps => .text s (refl ps)
  | .node n :: ps => .node (.refl n) (refl ps)

theorem symm (h : RegroupedPieces ps ps') : RegroupedPieces ps' ps := by
  induction h with
  | nil => exact .nil
  | text s _ ih => exact .text s ih
  | node hnode _ ih => exact .node hnode.symm ih

theorem trans (h : RegroupedPieces ps ps') (h' : RegroupedPieces ps' ps'') :
    RegroupedPieces ps ps'' := by
  induction h generalizing ps'' with
  | nil => exact h'
  | text s _ ih =>
    cases h' with
    | text s h' => exact .text s (ih h')
  | node hnode _ ih =>
    cases h' with
    | node hnode' h' => exact .node (hnode.trans hnode') (ih h')

theorem append (h : RegroupedPieces ps ps') (h' : RegroupedPieces qs qs') :
    RegroupedPieces (ps ++ qs) (ps' ++ qs') := by
  induction h with
  | nil => exact h'
  | text s _ ih => exact .text s ih
  | node hnode _ ih => exact .node hnode ih

theorem characters?_eq (h : RegroupedPieces ps ps') : characters? ps = characters? ps' := by
  induction h with
  | nil => rfl
  | text s _ ih => rw [characters?, characters?, ih]
  | node => rfl

end RegroupedPieces

/-- **Grouping leaves the pieces**, up to the grouping within them. -/
theorem Regrouped.pieces {cs cs' : List (Child δ)} (h : Regrouped cs cs') :
    RegroupedPieces (Markup.pieces cs) (Markup.pieces cs') := by
  induction h with
  | refl cs => exact .refl _
  | symm _ ih => exact ih.symm
  | trans _ _ ih ih' => exact ih.trans ih'
  | list items =>
    rw [Markup.pieces_list]
    exact .refl _
  | null | bool => exact .nil
  | append _ _ ih ih' =>
    rw [Markup.pieces_append, Markup.pieces_append]
    exact ih.append ih'
  | element tag props h => exact .node (.element tag props h) .nil

theorem Regrouped.node {n n' : Node δ} (h : Regrouped [.node n] [.node n']) :
    RegroupedNode n n' := by
  cases h.pieces with
  | node hnode => exact hnode

/-! ## Regrouped trees are typeset alike -/

/-- Renderings that differ by the grouping of children in what they render. -/
def RegroupedRendering (render render' : Rendering δ) : Prop :=
  ∀ definition props, Regrouped [.node (render definition props)] [.node (render' definition props)]

section

variable {render render' : Rendering δ} {s : Settings.Typesetting}

theorem RegroupedNode.rendered (hrender : RegroupedRendering render render') (k : Nat)
    {n n' : Node δ} (h : RegroupedNode n n') :
    RegroupedNode (rendered render k n) (rendered render' k n') := by
  induction k generalizing n n' with
  | zero => exact h
  | succ k ih =>
    cases h with
    | component name props definition => exact ih (hrender definition props).node
    | element tag props h => exact ih (.element tag props h)

/-- **Regrouped nodes expand** to elements that differ by grouping only, or with one fault. -/
theorem RegroupedNode.expand (hrender : RegroupedRendering render render') (limit : Nat)
    {n n' : Node δ} (h : RegroupedNode n n') :
    (∃ f, expand render limit n = .error f ∧ expand render' limit n' = .error f) ∨
      ∃ tag props cs cs', Regrouped cs cs' ∧
        expand render limit n = .ok ⟨tag, props, cs⟩ ∧
        expand render' limit n' = .ok ⟨tag, props, cs'⟩ := by
  have hrendered := h.rendered hrender (max limit 1)
  rw [expand_eq, expand_eq, h.name_eq]
  generalize Typeset.rendered render (max limit 1) n = m at hrendered
  generalize Typeset.rendered render' (max limit 1) n' = m' at hrendered
  cases hrendered with
  | component name props definition => exact .inl ⟨_, rfl, rfl⟩
  | element tag props h => exact .inr ⟨tag, props, _, _, h, rfl, rfl⟩

variable {set set' : Element δ → Except Fault (Block × List Mention)} {ps ps' : List (Piece δ)}

theorem setPieces_regrouped (hrender : RegroupedRendering render render') (limit : Nat)
    (hset : ∀ {tag props cs cs'}, Regrouped cs cs' → set ⟨tag, props, cs⟩ = set' ⟨tag, props, cs'⟩)
    (h : RegroupedPieces ps ps') :
    setPieces (expand render limit) set ps = setPieces (expand render' limit) set' ps' := by
  induction h with
  | nil => rfl
  | text s _ ih => rw [setPieces, setPieces, ih]
  | node hnode _ ih =>
    rw [setPieces, setPieces, ih]
    obtain ⟨f, hn, hn'⟩ | ⟨tag, props, cs, cs', hcs, hn, hn'⟩ := hnode.expand hrender limit
    · rw [hn, hn']
      rfl
    · rw [hn, hn']
      simp only [bind, Except.bind, hset hcs]

theorem setSheets_regrouped (hrender : RegroupedRendering render render') (limit : Nat)
    (hset : ∀ {tag props cs cs'}, Regrouped cs cs' → set ⟨tag, props, cs⟩ = set' ⟨tag, props, cs'⟩)
    (default : Page.Dimensions) (h : RegroupedPieces ps ps') :
    setSheets (expand render limit) set default ps =
      setSheets (expand render' limit) set' default ps' := by
  induction h with
  | nil => rfl
  | text s _ ih => exact ih
  | node hnode _ ih =>
    rw [setSheets, setSheets, ih]
    obtain ⟨f, hn, hn'⟩ | ⟨tag, props, cs, cs', hcs, hn, hn'⟩ := hnode.expand hrender limit
    · rw [hn, hn']
      rfl
    · rw [hn, hn']
      have hkind : kind (⟨tag, props, cs⟩ : Element δ) = kind (⟨tag, props, cs'⟩ : Element δ) := rfl
      simp only [bind, Except.bind, hset hcs, hkind]

/-- **Regrouped children give the same block**, by induction on the levels. -/
theorem setElement_regrouped (hrender : RegroupedRendering render render') (levels : Nat)
    (t : Typography) {tag : String} {props : Markup.Props} {cs cs' : List (Child δ)}
    (h : Regrouped cs cs') :
    setElement render s levels t ⟨tag, props, cs⟩ =
      setElement render' s levels t ⟨tag, props, cs'⟩ := by
  induction levels generalizing t tag props cs cs' with
  | zero => rfl
  | succ levels ih =>
    have hstyle : elementStyle ⟨tag, props, cs⟩ = elementStyle ⟨tag, props, cs'⟩ := rfl
    have hcontent :
        content s.pageSize ⟨tag, props, cs⟩ = content s.pageSize ⟨tag, props, cs'⟩ := rfl
    have hpieces := fun t => setPieces_regrouped hrender s.componentLimit (ih t) h.pieces
    simp only [setElement, hstyle, hcontent, h.pieces.characters?_eq, hpieces]

theorem setDocument_regrouped (hrender : RegroupedRendering render render') {tag : String}
    {props : Markup.Props} {cs cs' : List (Child δ)} (h : Regrouped cs cs') :
    setDocument render s ⟨tag, props, cs⟩ = setDocument render' s ⟨tag, props, cs'⟩ := by
  have hstyle : elementStyle ⟨tag, props, cs⟩ = elementStyle ⟨tag, props, cs'⟩ := rfl
  have hmetadata : metadata ⟨tag, props, cs⟩ = metadata ⟨tag, props, cs'⟩ := rfl
  have hsheets := fun t => setSheets_regrouped hrender s.componentLimit
    (setElement_regrouped (s := s) hrender s.depthLimit t) s.pageSize h.pieces
  simp only [setDocument, hstyle, hmetadata, hsheets]

end

/-- **The grouping of children does not matter.** Flattening them by a loop is taking the pieces
in order, and trees that differ by grouping, in themselves and in what their components render, are
typeset alike. -/
theorem typeset_regrouped :
    (∀ cs : List (Child δ), Markup.flatten cs = Markup.pieces cs) ∧
      ∀ (render render' : Rendering δ) (s : Settings.Typesetting) (root root' : Node δ),
        RegroupedRendering render render' → Regrouped [.node root] [.node root'] →
        typeset render s root = typeset render' s root' := by
  refine ⟨Markup.flatten_eq, fun render render' s root root' hrender hroot => ?_⟩
  obtain ⟨f, hn, hn'⟩ | ⟨tag, props, cs, cs', hcs, hn, hn'⟩ :=
    hroot.node.expand hrender s.componentLimit
  · rw [typeset, typeset, hn, hn']
    rfl
  · have hkind : kind (⟨tag, props, cs⟩ : Element δ) = kind (⟨tag, props, cs'⟩ : Element δ) := rfl
    rw [typeset, typeset, hn, hn']
    simp only [bind, Except.bind, hkind, setDocument_regrouped hrender hcs,
      setElement_regrouped hrender _ _ hcs]

/-! ## A programme -/

/-- An act is a view of its scenes, each in its own list. -/
def staging : Rendering Unit :=
  fun _ _ => .element "view" .empty [.list [.text "Scene ", .number 1], .list [.text "Scene 2"]]

/-- An act is a view of its scenes, with an end that is left out. -/
def plainStaging : Rendering Unit :=
  fun _ _ => .element "view" .empty [.text "Scene ", .number 1, .text "Scene 2", .bool false]

/-- Two pages in a list of lists, with a gap between them. -/
def programme : Node Unit :=
  .element "document" .empty [.null,
    .list [.list [.node (.element "page" .empty
      [.node (.element "text" .empty [.list [.text "Act ", .list []], .number 1]),
        .node (.component "Act" .empty ())])],
      .null, .node (.element "page" .empty [])]]

/-- The same pages without a list. -/
def plainProgramme : Node Unit :=
  .element "document" .empty
    [.node (.element "page" .empty
      [.node (.element "text" .empty [.text "Act ", .number 1]),
        .node (.component "Act" .empty ())]),
      .node (.element "page" .empty [])]

/-- Lists, null and truth values around pages, around words and in what is rendered. -/
theorem programme_regrouped :
    RegroupedRendering staging plainStaging ∧
    Regrouped [.node programme] [.node plainProgramme] ∧
    typeset staging .default programme = typeset plainStaging .default plainProgramme ∧
    ∃ d, typeset staging .default programme = .ok d ∧ d.sheets.length = 2 := by
  have hscenes : RegroupedRendering staging plainStaging := fun _ _ =>
    .element "view" .empty
      (.append (.symm (.list [_, _])) (.append (.symm (.list [_])) (.bool false)))
  have hwords : Regrouped (δ := Unit) [.list [.text "Act ", .list []], .number 1]
      [.text "Act ", .number 1] :=
    .append (.trans (.symm (.list _)) (.append (.refl [_]) (.symm (.list [])))) (.refl [_])
  have hpages : Regrouped (δ := Unit) _ _ :=
    .append (.trans (.symm (.list _)) (.element "page" .empty
      (.append (.element "text" .empty hwords) (.refl [.node (.component "Act" .empty ())]))))
      (.append (.symm .null) (.refl [.node (.element "page" .empty [])]))
  have hroot : Regrouped [.node programme] [.node plainProgramme] :=
    .element "document" .empty (.append (.symm .null) (.trans (.symm (.list _)) hpages))
  exact ⟨hscenes, hroot, typeset_regrouped.2 staging plainStaging .default _ _ hscenes hroot, _,
    rfl, rfl⟩

end Galley.Typeset
