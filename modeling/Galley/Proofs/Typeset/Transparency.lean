import Galley.Proofs.Typeset.Expansion
import Galley.Proofs.Typeset.Pieces

/-!
# Components are transparent

A component may stand in a tree as itself or as the element that it comes to within the limit, at
the root, among the children of any element, and within lists of children. Two trees are unfoldings
of each other if such exchanges lead from one to the other (`Unfolded`), also one within another.

**Theorem (`typeset_unfolded`).** Unfoldings of one tree are typeset alike: as one document, or with
one fault.

What typesetting does with children depends on their pieces in three ways (`SamePieces`): the
characters of a text, the blocks in an element, and the sheets in a document. Each of them goes along
the pieces, so that a piece may be exchanged for one that expands to an element with the same tag and
properties and, again, the same pieces (`SameNode`).
-/

namespace Galley.Typeset

open Document (Block Sheet)
open Markup (Child Element Node Piece Rendering)

variable {δ : Type} {render : Rendering δ} {s : Settings.Typesetting}

/-! ## Unfoldings of a tree -/

/-- Children that have the second node at one place where the others have the first, in any depth of
lists. -/
inductive Exchanged (n n' : Node δ) : List (Child δ) → List (Child δ) → Prop
  | here (after : List (Child δ)) : Exchanged n n' (.node n :: after) (.node n' :: after)
  | list {items items' : List (Child δ)} (h : Exchanged n n' items items')
      (after : List (Child δ)) : Exchanged n n' (.list items :: after) (.list items' :: after)
  | later (c : Child δ) {cs cs' : List (Child δ)} (h : Exchanged n n' cs cs') :
      Exchanged n n' (c :: cs) (c :: cs')

/-- Trees that differ by components and the elements that these come to, with at most as many
renderings as the limit says. -/
inductive Unfolded (render : Rendering δ) (limit : Nat) : Node δ → Node δ → Prop
  | refl (n : Node δ) : Unfolded render limit n n
  | symm {n n' : Node δ} (h : Unfolded render limit n n') : Unfolded render limit n' n
  | trans {n n' n'' : Node δ} (h : Unfolded render limit n n')
      (h' : Unfolded render limit n' n'') : Unfolded render limit n n''
  | component {n : Node δ} {e : Element δ} {k : Nat} (hk : k ≤ limit)
      (h : rendered render k n = e.node) : Unfolded render limit n e.node
  | child (tag : String) (props : Markup.Props) {n n' : Node δ} {cs cs' : List (Child δ)}
      (h : Unfolded render limit n n') (hexchanged : Exchanged n n' cs cs') :
      Unfolded render limit (.element tag props cs) (.element tag props cs')

/-! ## Pieces that are typeset alike -/

/-- Pieces with the same characters, the same blocks and the same sheets. -/
structure SamePieces (render : Rendering δ) (s : Settings.Typesetting) (ps ps' : List (Piece δ)) :
    Prop where
  characters : characters? ps = characters? ps'
  blocks : ∀ levels t,
    setPieces (expand render s.componentLimit) (setElement render s levels t) ps =
      setPieces (expand render s.componentLimit) (setElement render s levels t) ps'
  sheets : ∀ levels t,
    setSheets (expand render s.componentLimit) (setElement render s levels t) s.pageSize ps =
      setSheets (expand render s.componentLimit) (setElement render s levels t) s.pageSize ps'

/-- Elements that differ in their children only, and these have the same pieces. -/
structure SameElement (render : Rendering δ) (s : Settings.Typesetting) (e e' : Element δ) :
    Prop where
  tag : e.tag = e'.tag
  props : e.props = e'.props
  pieces : SamePieces render s (Markup.pieces e.children) (Markup.pieces e'.children)

/-- Nodes that expand to the same element or not at all. -/
inductive SameNode (render : Rendering δ) (s : Settings.Typesetting) (n n' : Node δ) : Prop
  | fault {f : Fault} (h : expand render s.componentLimit n = .error f)
      (h' : expand render s.componentLimit n' = .error f)
  | element {e e' : Element δ} (h : expand render s.componentLimit n = .ok e)
      (h' : expand render s.componentLimit n' = .ok e') (same : SameElement render s e e')

namespace SamePieces

variable {ps ps' ps'' qs qs' : List (Piece δ)}

theorem refl (ps : List (Piece δ)) : SamePieces render s ps ps :=
  ⟨rfl, fun _ _ => rfl, fun _ _ => rfl⟩

theorem symm (h : SamePieces render s ps ps') : SamePieces render s ps' ps :=
  ⟨h.characters.symm, fun levels t => (h.blocks levels t).symm,
    fun levels t => (h.sheets levels t).symm⟩

theorem trans (h : SamePieces render s ps ps') (h' : SamePieces render s ps' ps'') :
    SamePieces render s ps ps'' :=
  ⟨h.characters.trans h'.characters, fun levels t => (h.blocks levels t).trans (h'.blocks levels t),
    fun levels t => (h.sheets levels t).trans (h'.sheets levels t)⟩

theorem append (h : SamePieces render s ps ps') (h' : SamePieces render s qs qs') :
    SamePieces render s (ps ++ qs) (ps' ++ qs') := by
  refine ⟨?_, ?_, ?_⟩
  · rw [characters?_append, characters?_append, h.characters, h'.characters]
  · intro levels t
    rw [setPieces_append, setPieces_append, h.blocks, h'.blocks]
  · intro levels t
    rw [setSheets_append, setSheets_append, h.sheets, h'.sheets]

end SamePieces

namespace SameElement

variable {e e' e'' : Element δ}

theorem symm (h : SameElement render s e e') : SameElement render s e' e :=
  ⟨h.tag.symm, h.props.symm, h.pieces.symm⟩

theorem trans (h : SameElement render s e e') (h' : SameElement render s e' e'') :
    SameElement render s e e'' :=
  ⟨h.tag.trans h'.tag, h.props.trans h'.props, h.pieces.trans h'.pieces⟩

theorem kind_eq (h : SameElement render s e e') : kind e = kind e' := by
  rw [kind, kind, h.tag]

/-- **The same element gives the same block.** -/
theorem setElement_eq (h : SameElement render s e e') (levels : Nat) (t : Typography) :
    setElement render s levels t e = setElement render s levels t e' := by
  obtain ⟨tag, props, cs⟩ := e
  obtain ⟨tag', props', cs'⟩ := e'
  obtain ⟨rfl, rfl, hpieces⟩ := h
  cases levels with
  | zero => rfl
  | succ levels =>
    have hcontent : content s.pageSize ⟨tag, props, cs⟩ = content s.pageSize ⟨tag, props, cs'⟩ := rfl
    have hstyle : elementStyle ⟨tag, props, cs⟩ = elementStyle ⟨tag, props, cs'⟩ := rfl
    simp only [setElement, hcontent, hstyle, hpieces.characters, hpieces.blocks]

/-- The same document element gives the same document. -/
theorem setDocument_eq (h : SameElement render s e e') :
    setDocument render s e = setDocument render s e' := by
  obtain ⟨tag, props, cs⟩ := e
  obtain ⟨tag', props', cs'⟩ := e'
  obtain ⟨rfl, rfl, hpieces⟩ := h
  have hstyle : elementStyle ⟨tag, props, cs⟩ = elementStyle ⟨tag, props, cs'⟩ := rfl
  have hmetadata : metadata ⟨tag, props, cs⟩ = metadata ⟨tag, props, cs'⟩ := rfl
  simp only [setDocument, hstyle, hmetadata, hpieces.sheets]

end SameElement

/-! ## Unfoldings are typeset alike -/

namespace SameNode

variable {n n' n'' : Node δ}

theorem of_expand {e : Element δ} (h : expand render s.componentLimit n = .ok e)
    (h' : expand render s.componentLimit n' = .ok e) : SameNode render s n n' :=
  .element h h' ⟨rfl, rfl, .refl _⟩

theorem refl (n : Node δ) : SameNode render s n n := by
  cases h : expand render s.componentLimit n with
  | error f => exact .fault h h
  | ok e => exact of_expand h h

theorem symm (h : SameNode render s n n') : SameNode render s n' n := by
  cases h with
  | fault h h' => exact .fault h' h
  | element h h' same => exact .element h' h same.symm

theorem trans (h : SameNode render s n n') (h' : SameNode render s n' n'') :
    SameNode render s n n'' := by
  cases h with
  | fault h₁ h₂ =>
    cases h' with
    | fault h₃ h₄ =>
      rw [h₂] at h₃
      cases h₃
      exact .fault h₁ h₄
    | element h₃ h₄ same =>
      rw [h₂] at h₃
      cases h₃
  | element h₁ h₂ same =>
    cases h' with
    | fault h₃ h₄ =>
      rw [h₂] at h₃
      cases h₃
    | element h₃ h₄ same' =>
      rw [h₂] at h₃
      cases h₃
      exact .element h₁ h₄ (same.trans same')

/-- A node as a piece of its own. -/
theorem samePieces (h : SameNode render s n n') : SamePieces render s [.node n] [.node n'] := by
  refine ⟨rfl, ?_, ?_⟩
  · intro levels t
    cases h with
    | fault h h' => simp only [setPieces, h, h', bind, Except.bind]
    | element h h' same =>
      simp only [setPieces, h, h', bind, Except.bind, same.setElement_eq]
  · intro levels t
    cases h with
    | fault h h' => simp only [setSheets, h, h', bind, Except.bind]
    | element h h' same =>
      simp only [setSheets, h, h', bind, Except.bind, same.setElement_eq, same.kind_eq]

/-- Children with the one node in place of the other, by induction on the place. -/
theorem pieces_exchanged (h : SameNode render s n n') {cs cs' : List (Child δ)}
    (hexchanged : Exchanged n n' cs cs') :
    SamePieces render s (Markup.pieces cs) (Markup.pieces cs') := by
  induction hexchanged with
  | here after => exact h.samePieces.append (.refl _)
  | list _ after ih =>
    simp only [Markup.pieces, Child.pieces]
    exact ih.append (.refl _)
  | later c _ ih => exact SamePieces.append (.refl c.pieces) ih

theorem typeset_eq (h : SameNode render s n n') : typeset render s n = typeset render s n' := by
  cases h with
  | fault h h' => simp only [typeset, h, h', bind, Except.bind]
  | element h h' same =>
    simp only [typeset, h, h', bind, Except.bind, same.kind_eq, same.setDocument_eq,
      same.setElement_eq]

end SameNode

/-- **Unfoldings expand to the same elements**, by induction on the exchanges. -/
theorem Unfolded.sameNode {n n' : Node δ} (h : Unfolded render s.componentLimit n n') :
    SameNode render s n n' := by
  induction h with
  | refl n => exact .refl n
  | symm _ ih => exact ih.symm
  | trans _ _ ih ih' => exact ih.trans ih'
  | component hk h => exact .of_expand (expand_of_rendered hk h) (expand_node _ _)
  | child tag props _ hexchanged ih =>
    -- The element is exchanged for one with other children, and its own expansion is itself.
    exact .element (expand_node _ ⟨tag, props, _⟩) (expand_node _ ⟨tag, props, _⟩)
      ⟨rfl, rfl, ih.pieces_exchanged hexchanged⟩

/-- **A tree is typeset as any of its unfoldings is.** -/
theorem typeset_unfolded {root root' : Node δ} (h : Unfolded render s.componentLimit root root') :
    typeset render s root = typeset render s root' :=
  h.sameNode.typeset_eq

/-! ## A booklet -/

/-- A booklet renders a document, a leaf renders a sheet, and a sheet renders a page of words. -/
def binding : Rendering String
  | "booklet", _ => .element "document" .empty [.list [.node (.component "Leaf" .empty "leaf")],
      .text "unbound", .node (.component "Sheet" .empty "sheet")]
  | "leaf", _ => .component "Sheet" .empty "sheet"
  | "sheet", _ => .element "page" .empty [.list [.list [.node (.component "Words" .empty "words")]]]
  | words, _ => .element "text" .empty [.text words]

/-- A page of words, without a component. -/
def boundPage : Node String :=
  .element "page" .empty [.list [.list [.node (.element "text" .empty [.text "words"])]]]

/-- The booklet with the leaf opened, and the words on it. -/
def openBooklet : Node String :=
  .element "document" .empty [.list [.node boundPage], .text "unbound",
    .node (.component "Sheet" .empty "sheet")]

/-- The root, a page in a list and a text in a list of its page, one within the other. -/
theorem booklet_unfolded :
    Unfolded binding Settings.Typesetting.default.componentLimit
      (.component "Booklet" .empty "booklet") openBooklet ∧
    typeset binding .default (.component "Booklet" .empty "booklet") =
      typeset binding .default openBooklet ∧
    ∃ d, typeset binding .default openBooklet = .ok d ∧ d.sheets.length = 2 := by
  have hroot : Unfolded binding 64 (.component "Booklet" .empty "booklet")
      (.element "document" .empty [.list [.node (.component "Leaf" .empty "leaf")],
        .text "unbound", .node (.component "Sheet" .empty "sheet")]) :=
    @Unfolded.component _ binding _ _ ⟨"document", .empty, _⟩ 1 (by decide) rfl
  have hleaf : Unfolded binding 64 (.component "Leaf" .empty "leaf")
      (.element "page" .empty
        [.list [.list [.node (.component "Words" .empty "words")]]]) :=
    @Unfolded.component _ binding _ _ ⟨"page", .empty, _⟩ 2 (by decide) rfl
  have hwords : Unfolded binding 64 (.component "Words" .empty "words")
      (.element "text" .empty [.text "words"]) :=
    @Unfolded.component _ binding _ _ ⟨"text", .empty, _⟩ 1 (by decide) rfl
  have hpage : Unfolded binding 64 (.component "Leaf" .empty "leaf") boundPage :=
    hleaf.trans (.child "page" .empty hwords (.list (.list (.here []) []) []))
  have h := hroot.trans (.child "document" .empty hpage (.list (.here []) _))
  exact ⟨h, typeset_unfolded h, _, rfl, rfl⟩

end Galley.Typeset
