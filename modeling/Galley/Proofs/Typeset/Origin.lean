import Galley.Proofs.Typeset.Success

/-!
# Where blocks come from

Typesetting a tree comes to elements (`Reached`): to the root, or to the pages of a document, and
from there to what the children of each element expand to, however deep that is. An element has a
depth, which is the number of elements around it, and what it is set to is its block (`BlockOf`).

**Theorem (`typeset_origin`).** Every block of a document, at any depth, is that of an element that
was reached, or a text that stands alone among the children of one.

The block of an element has a block for each of its pieces, in order (`PieceBlock`), unless it is a
text with characters in place of children (`BlockOf.parts`). So the blocks within a block come from
what is within its element, by induction on the levels that are left.
-/

namespace Galley

namespace Document

mutual

/-- The block and all within it, each before its children. -/
def Block.preorder : Block → List Block
  | ⟨content, style, children⟩ => ⟨content, style, children⟩ :: preorder children

/-- Blocks and all within them. -/
def preorder : List Block → List Block
  | [] => []
  | b :: bs => b.preorder ++ preorder bs

end

theorem mem_preorder {c : Block} {bs : List Block} :
    c ∈ preorder bs ↔ ∃ b ∈ bs, c ∈ b.preorder := by
  induction bs with
  | nil => simp [preorder]
  | cons b bs ih => simp [preorder, ih]

/-- A block has itself in it, and what its children have in them. -/
theorem Block.mem_preorder {b c : Block} :
    c ∈ b.preorder ↔ c = b ∨ ∃ child ∈ b.children, c ∈ child.preorder := by
  obtain ⟨content, style, children⟩ := b
  rw [Block.preorder, List.mem_cons, Document.mem_preorder]

end Document

/-- The blocks on all sheets, at any depth. -/
def Document.allBlocks (d : Document) : List Document.Block :=
  d.sheets.flatMap fun sheet => Document.preorder sheet.blocks

namespace Typeset

open Document (Block Content Sheet)
open Markup (Element Node Piece Rendering)

variable {δ : Type}

theorem exists_mem_left {α β : Type} {R : α → β → Prop} {as : List α} {bs : List β}
    (h : List.Forall₂ R as bs) {b : β} (hb : b ∈ bs) : ∃ a ∈ as, R a b := by
  induction h with
  | nil => exact absurd hb List.not_mem_nil
  | cons hfirst _ ih =>
    rcases List.mem_cons.1 hb with rfl | hb
    · exact ⟨_, List.mem_cons_self, hfirst⟩
    · obtain ⟨a, ha, hR⟩ := ih hb
      exact ⟨a, List.mem_cons_of_mem _ ha, hR⟩

/-! ## Elements and their blocks -/

/-- The elements that typesetting a tree comes to, with their depths. A root that is no document has
depth 0, and the pages of a document have depth 1. -/
inductive Reached (render : Rendering δ) (s : Settings.Typesetting) (root : Node δ) :
    Nat → Element δ → Prop
  | root {e : Element δ} (he : expand render s.componentLimit root = .ok e)
      (hdoc : kind e ≠ .document) : Reached render s root 0 e
  | page {e p : Element δ} {n : Node δ} (he : expand render s.componentLimit root = .ok e)
      (hdoc : kind e = .document) (hn : .node n ∈ Markup.pieces e.children)
      (hp : expand render s.componentLimit n = .ok p) (hpage : kind p = .page) :
      Reached render s root 1 p
  | child {depth : Nat} {e c : Element δ} {n : Node δ} (he : Reached render s root depth e)
      (hn : .node n ∈ Markup.pieces e.children)
      (hc : expand render s.componentLimit n = .ok c) : Reached render s root (depth + 1) c

/-- The block is what an element at a depth is set to, whatever the typography around it. -/
def BlockOf (render : Rendering δ) (s : Settings.Typesetting) (depth : Nat) (e : Element δ)
    (b : Block) : Prop :=
  ∃ levels t ms, levels + depth = s.depthLimit + 1 ∧ setElement render s levels t e = .ok (b, ms)

/-- The block of a piece: that of the element it expands to, or the text alone. -/
inductive PieceBlock (render : Rendering δ) (s : Settings.Typesetting) (depth : Nat) :
    Piece δ → Block → Prop
  | text (t : String) : PieceBlock render s depth (.text t) (.plain t)
  | node {n : Node δ} {e : Element δ} {b : Block}
      (hn : expand render s.componentLimit n = .ok e) (hb : BlockOf render s depth e b) :
      PieceBlock render s depth (.node n) b

variable {render : Rendering δ} {s : Settings.Typesetting} {root : Node δ}

theorem setPieces_blocks {levels depth : Nat} {t : Typography}
    (hlevels : levels + depth = s.depthLimit + 1) {ps : List (Piece δ)} {bs : List Block}
    {ms : List Mention}
    (h : setPieces (expand render s.componentLimit) (setElement render s levels t) ps =
      .ok (bs, ms)) :
    List.Forall₂ (PieceBlock render s depth) ps bs := by
  induction ps generalizing bs ms with
  | nil =>
    cases h
    exact .nil
  | cons p ps ih =>
    cases p with
    | text x =>
      obtain ⟨rest, hrest, rfl⟩ := setPieces_text_eq_ok h
      exact .cons (.text x) (ih hrest)
    | node n =>
      obtain ⟨e, b, first, rest, ms', he, hb, hrest, rfl, -⟩ := setPieces_node_eq_ok h
      exact .cons (.node he ⟨levels, t, first, hlevels, hb⟩) (ih hrest)

namespace BlockOf

variable {depth : Nat} {e : Element δ} {b : Block}

theorem depth_le (h : BlockOf render s depth e b) : depth ≤ s.depthLimit := by
  obtain ⟨levels, t, ms, hlevels, hb⟩ := h
  obtain ⟨n, -, -, rfl, -⟩ := setElement_eq_ok hb
  omega

/-- **The parts of a block**: the style and the content of its element, and either characters in
place of children, which only a text has that has no node in it, or a block for each piece. -/
theorem parts (h : BlockOf render s depth e b) :
    b.style = elementStyle e ∧ ∃ c ms, content s.pageSize e = .ok (c, ms) ∧
      ((kind e = .text ∧ b.children = [] ∧
          ∃ characters, characters? (Markup.pieces e.children) = some characters ∧
            b.content = .text (some characters)) ∨
        (b.content = c ∧
          (kind e = .text → characters? (Markup.pieces e.children) = none) ∧
          List.Forall₂ (PieceBlock render s (depth + 1)) (Markup.pieces e.children) b.children)) := by
  obtain ⟨levels, t, ms, hlevels, hb⟩ := h
  obtain ⟨n, c, image, rfl, hc, hcase⟩ := setElement_eq_ok hb
  rcases hcase with ⟨characters, htext, hch, rfl, -⟩ | ⟨bs, rest, hno, hbs, rfl, -⟩
  · exact ⟨rfl, c, image, hc, .inl ⟨htext, rfl, characters, hch, rfl⟩⟩
  · exact ⟨rfl, c, image, hc, .inr ⟨rfl, hno, setPieces_blocks (by omega) hbs⟩⟩

/-- A block is of the kind of its element. -/
theorem kind_eq (h : BlockOf render s depth e b) : b.content.kind = kind e := by
  obtain ⟨-, c, ms, hc, ⟨htext, -, characters, -, hb⟩ | ⟨hb, -⟩⟩ := h.parts
  · rw [hb, htext]
    rfl
  · rw [hb]
    exact (content_eq_ok hc).1

/-- A child of a block is a text alone or the block of an element within its element. -/
theorem child (h : BlockOf render s depth e b) {c : Block} (hc : c ∈ b.children) :
    ∃ p ∈ Markup.pieces e.children, PieceBlock render s (depth + 1) p c := by
  obtain ⟨-, -, -, -, ⟨-, hnone, -⟩ | ⟨-, -, hpieces⟩⟩ := h.parts
  · rw [hnone] at hc
    exact absurd hc List.not_mem_nil
  · exact exists_mem_left hpieces hc

end BlockOf

/-! ## The origin of a block -/

/-- A block is that of an element of the tree, or a text that stands alone among the children of
one. -/
inductive Origin (render : Rendering δ) (s : Settings.Typesetting) (root : Node δ) : Block → Prop
  | element {depth : Nat} {e : Element δ} {b : Block} (he : Reached render s root depth e)
      (hb : BlockOf render s depth e b) : Origin render s root b
  | text {depth : Nat} {e : Element δ} {b : Block} {t : String}
      (he : Reached render s root depth e) (hb : BlockOf render s depth e b)
      (ht : .text t ∈ Markup.pieces e.children) (hmem : .plain t ∈ b.children) :
      Origin render s root (.plain t)

/-- **All within the block of an element** comes from what is within the element. -/
theorem Origin.within {depth : Nat} {e : Element δ} {b : Block}
    (he : Reached render s root depth e) (hb : BlockOf render s depth e b) :
    ∀ c ∈ b.preorder, Origin render s root c := by
  -- A child is one level deeper, and has a block only if that level is still allowed.
  induction hlevels : s.depthLimit - depth using Nat.strong_induction_on generalizing depth e b with
  | _ levels ih =>
    intro c hc
    rcases Document.Block.mem_preorder.1 hc with rfl | ⟨child, hchild, hc⟩
    · exact .element he hb
    · obtain ⟨p, hp, hpiece⟩ := hb.child hchild
      cases hpiece with
      | text t =>
        obtain rfl := List.mem_singleton.1 hc
        exact .text he hb hp hchild
      | node hn hbelow =>
        have hdepth := hbelow.depth_le
        exact ih _ (by omega) (he.child hp hn) hbelow rfl c hc

/-- What is on the sheet of a page comes from what is within the page. -/
theorem Origin.onPage {default : Page.Dimensions} {depth : Nat} {e : Element δ} {b : Block}
    (he : Reached render s root depth e) (hb : BlockOf render s depth e b)
    (hpage : kind e = .page) {c : Block}
    (hc : c ∈ Document.preorder (Sheet.ofBlock default b).blocks) : Origin render s root c := by
  refine within he hb c (Document.Block.mem_preorder.2 (.inr ?_))
  have hkind := hb.kind_eq
  rw [hpage] at hkind
  obtain ⟨content, style, children⟩ := b
  cases content with
  | page size margin => exact Document.mem_preorder.1 hc
  | document | container | text | image | link => cases hkind

theorem setSheets_mem {expand : Node δ → Except Fault (Element δ)}
    {set : Element δ → Except Fault (Block × List Mention)} {default : Page.Dimensions}
    {ps : List (Piece δ)} {sheets : List Sheet} {ms : List Mention}
    (h : setSheets expand set default ps = .ok (sheets, ms)) {sheet : Sheet}
    (hsheet : sheet ∈ sheets) :
    ∃ n p b first, .node n ∈ ps ∧ expand n = .ok p ∧ kind p = .page ∧ set p = .ok (b, first) ∧
      sheet = .ofBlock default b := by
  induction ps generalizing sheets ms with
  | nil =>
    cases h
    exact absurd hsheet List.not_mem_nil
  | cons piece ps ih =>
    -- A sheet of the rest has its page among the rest.
    have hlater : ∀ {rest ms'}, setSheets expand set default ps = .ok (rest, ms') → sheet ∈ rest →
        ∃ n p b first, .node n ∈ piece :: ps ∧ expand n = .ok p ∧ kind p = .page ∧
          set p = .ok (b, first) ∧ sheet = .ofBlock default b := by
      intro rest ms' hrest hmem
      obtain ⟨n, p, b, first, hn, hpage⟩ := ih hrest hmem
      exact ⟨n, p, b, first, List.mem_cons_of_mem _ hn, hpage⟩
    cases piece with
    | text t => exact hlater h hsheet
    | node n =>
      obtain ⟨p, hp, ⟨hpage, b, first, rest, ms', hb, hrest, rfl, -⟩ | ⟨-, hrest⟩⟩ :=
        setSheets_node_eq_ok h
      · rcases List.mem_cons.1 hsheet with rfl | hsheet
        · exact ⟨n, p, b, first, List.mem_cons_self, hp, hpage, hb, rfl⟩
        · exact hlater hrest hsheet
      · exact hlater hrest hsheet

/-- **The blocks of a document come from the elements of its tree.** -/
theorem typeset_origin {d : Document} (h : typeset render s root = .ok d) {b : Block}
    (hb : b ∈ d.allBlocks) : Origin render s root b := by
  obtain ⟨sheet, hsheet, hb⟩ := List.mem_flatMap.1 hb
  obtain ⟨e, he, ⟨hdoc, hd⟩ | ⟨hdoc, top, ms, htop, rfl⟩⟩ := typeset_eq_ok h
  · obtain ⟨sheets, ms, hsheets, -, rfl⟩ := setDocument_eq_ok hd
    obtain ⟨n, p, top, first, hn, hp, hpage, htop, rfl⟩ := setSheets_mem hsheets hsheet
    exact .onPage (.page he hdoc hn hp hpage) ⟨_, _, first, rfl, htop⟩ hpage hb
  · have hblock : BlockOf render s 0 e top := ⟨_, _, ms, rfl, htop⟩
    obtain rfl := List.mem_singleton.1 hsheet
    split at hb
    · rename_i hpage
      exact .onPage (.root he hdoc) hblock hpage hb
    · obtain ⟨only, honly, hmem⟩ := Document.mem_preorder.1 hb
      obtain rfl := List.mem_singleton.1 honly
      exact .within (.root he hdoc) hblock b hmem

end Typeset

end Galley
