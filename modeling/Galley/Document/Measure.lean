import Galley.Document.Basic

/-!
# Text and measures of a document

The text of a block is its own characters followed by the texts of its children.
-/

namespace Galley.Document

mutual

/-- The text of a block and all within it. -/
def Block.textContent : Block → String
  | ⟨content, _, children⟩ => content.characters ++ textContent children

/-- The texts of blocks, one after another. -/
def textContent : List Block → String
  | [] => ""
  | b :: bs => b.textContent ++ textContent bs

end

theorem textContent_append (as bs : List Block) :
    textContent (as ++ bs) = textContent as ++ textContent bs := by
  induction as with
  | nil => simp [textContent]
  | cons a as ih => simp [textContent, ih, String.append_assoc]

mutual

/-- The number of blocks in a block, with itself. -/
def Block.count : Block → Nat
  | ⟨_, _, children⟩ => 1 + count children

/-- The number of blocks in blocks, with themselves. -/
def count : List Block → Nat
  | [] => 0
  | b :: bs => b.count + count bs

end

mutual

/-- The number of levels of a block. -/
def Block.depth : Block → Nat
  | ⟨_, _, children⟩ => 1 + depth children

/-- The number of levels of the deepest of some blocks. -/
def depth : List Block → Nat
  | [] => 0
  | b :: bs => max b.depth (depth bs)

end

/-- The text of a sheet. -/
def Sheet.textContent (s : Sheet) : String := Document.textContent s.blocks

end Galley.Document

namespace Galley

/-- The blocks on all sheets. -/
def Document.blocks (d : Document) : List Document.Block := d.sheets.flatMap (·.blocks)

end Galley
