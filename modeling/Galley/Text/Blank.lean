/-!
# White space

White space is Unicode's White_Space. Text is cut into the words between its blanks, and blanks
at its ends are trimmed.
-/

namespace Galley.Text

/-- Has the character the property White_Space? -/
def isBlank (c : Char) : Bool :=
  let n := c.toNat
  (0x09 ≤ n && n ≤ 0x0d) || n == 0x20 || n == 0x85 || n == 0xa0 || n == 0x1680 ||
    (0x2000 ≤ n && n ≤ 0x200a) || n == 0x2028 || n == 0x2029 || n == 0x202f || n == 0x205f ||
    n == 0x3000

/-- The text without its leading blanks. -/
def trimStart (s : List Char) : List Char :=
  s.dropWhile isBlank

/-- The text without its trailing blanks. -/
def trimEnd (s : List Char) : List Char :=
  (s.reverse.dropWhile isBlank).reverse

/-- The text without the blanks at its two ends. -/
def trim (s : List Char) : List Char :=
  trimEnd (trimStart s)

/-- The pieces between the separators: `n` separators make `n + 1` pieces, some of them empty. -/
def pieces (sep : Char → Bool) : List Char → List (List Char)
  | [] => [[]]
  | c :: s =>
    if sep c then [] :: pieces sep s
    else match pieces sep s with
      | [] => [[c]]
      | p :: ps => (c :: p) :: ps

theorem pieces_ne_nil (sep : Char → Bool) (s : List Char) : pieces sep s ≠ [] := by
  induction s with
  | nil => simp [pieces]
  | cons c s ih =>
    unfold pieces
    split
    · simp
    · split <;> simp

/-- The maximal runs of characters between blanks, in order. -/
def words (s : List Char) : List (List Char) :=
  (pieces isBlank s).filter fun w => !w.isEmpty

/-- The words put together with one separator between neighbours. -/
def joinWith (sep : List Char) (ws : List (List Char)) : List Char :=
  sep.intercalate ws

end Galley.Text
