import Galley.Font.Face

/-!
# Font usage

The weights and slants in which a document uses one family, and the faces that this asks for.
-/

namespace Galley.Font

/-- A set of weights, in ascending order. -/
structure Weights where
  toList : List Nat
  ascending : toList.Pairwise (· < ·)
  deriving DecidableEq

namespace Weights

/-- No weight. -/
def empty : Weights := ⟨[], .nil⟩

/-- A number put in its place in an ascending list. -/
def place (w : Nat) : List Nat → List Nat
  | [] => [w]
  | x :: xs => if w < x then w :: x :: xs else if w = x then x :: xs else x :: place w xs

theorem mem_place {w x : Nat} {xs : List Nat} : x ∈ place w xs ↔ x = w ∨ x ∈ xs := by
  induction xs with
  | nil => simp [place]
  | cons y ys ih => grind [place]

theorem place_ascending (w : Nat) {xs : List Nat} (h : xs.Pairwise (· < ·)) :
    (place w xs).Pairwise (· < ·) := by
  induction xs with
  | nil => simp [place]
  | cons y ys ih =>
    have ⟨first, rest⟩ := List.pairwise_cons.1 h
    unfold place
    split
    · rename_i lt
      refine List.pairwise_cons.2 ⟨fun z hz => ?_, h⟩
      rcases List.mem_cons.1 hz with rfl | hz
      · exact lt
      · exact Nat.lt_trans lt (first z hz)
    · split
      · exact h
      · refine List.pairwise_cons.2 ⟨fun z hz => ?_, ih rest⟩
        rcases mem_place.1 hz with rfl | hz
        · omega
        · exact first z hz

/-- The set with one more weight. -/
def insert (ws : Weights) (w : Nat) : Weights := ⟨place w ws.toList, place_ascending w ws.ascending⟩

/-- The weights of a list. -/
def ofList (ws : List Nat) : Weights := ws.foldl insert empty

instance : Membership Nat Weights := ⟨fun ws w => w ∈ ws.toList⟩

theorem mem_insert {ws : Weights} {w x : Nat} : x ∈ ws.insert w ↔ x = w ∨ x ∈ ws := mem_place

end Weights

/-- A set of slants. -/
structure Slants where
  hasNormal : Bool
  hasItalic : Bool
  deriving DecidableEq

namespace Slants

/-- No slant. -/
def empty : Slants := ⟨false, false⟩

/-- The set with one more slant. -/
def insert (s : Slants) : Slant → Slants
  | .normal => { s with hasNormal := true }
  | .italic => { s with hasItalic := true }

/-- The slants of a list. -/
def ofList (ss : List Slant) : Slants := ss.foldl insert empty

/-- The slants, upright first. -/
def toList (s : Slants) : List Slant :=
  (if s.hasNormal then [.normal] else []) ++ if s.hasItalic then [.italic] else []

end Slants

/-- The weights and slants in use for one family, with its name as first written. -/
structure Usage where
  family : String
  name : String
  weights : Weights
  slants : Slants
  deriving DecidableEq

/-- The usage of a family in any spelling. -/
def Usage.of (family : String) (weights : Weights) (slants : Slants) : Usage :=
  ⟨familyKey family, displayName family, weights, slants⟩

/-- The usage with one more weight and one more slant. -/
def Usage.insert (u : Usage) (weight : Nat) (slant : Slant) : Usage :=
  { u with weights := u.weights.insert weight, slants := u.slants.insert slant }

/-- The faces of a usage: every weight in every slant. -/
def Usage.faces (u : Usage) : List Face :=
  u.weights.toList.flatMap fun weight =>
    u.slants.toList.map fun slant => Face.of u.family weight slant

end Galley.Font
