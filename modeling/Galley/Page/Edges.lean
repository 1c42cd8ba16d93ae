import Galley.Fault
import Galley.Text.Blank

/-!
# Page margins

A margin is a number for all edges, a shorthand text with one to four numbers, or numbers for some
of the edges. All forms come down to four numbers of points.
-/

namespace Galley.Page

/-- Four numbers of points. -/
structure Edges where
  top : Float
  right : Float
  bottom : Float
  left : Float
  deriving DecidableEq

namespace Edges

/-- The same number on every edge. -/
def uniform (x : Float) : Edges := ⟨x, x, x, x⟩

/-- Nothing on any edge. -/
def zero : Edges := uniform 0.0

/-- A finite number of points, with or without its unit. -/
def points? (token : List Char) : Option Float :=
  (Decimal.read? ((Text.beforeSuffix? "pt" token).getD token)).filter Decimal.isFinite

/-- The edges that one to four numbers stand for: all edges; vertical and horizontal ones; top,
horizontal ones and bottom; or clockwise from the top. -/
def ofShorthand? : List Float → Option Edges
  | [a] => some (uniform a)
  | [v, h] => some ⟨v, h, v, h⟩
  | [t, h, b] => some ⟨t, h, b, h⟩
  | [t, r, b, l] => some ⟨t, r, b, l⟩
  | _ => none

/-- The numbers of a shorthand text, or its first word that is none. -/
def numbers (input : String) : List (List Char) → Except Fault (List Float)
  | [] => .ok []
  | token :: tokens =>
    match points? token with
    | none => .error (.badMargin input (String.ofList token))
    | some x => (numbers input tokens).map (x :: ·)

/-- The edges that a shorthand text denotes. -/
def parse (input : String) : Except Fault Edges := do
  let xs ← numbers input (Text.words input.toList)
  match ofShorthand? xs with
  | some e => .ok e
  | none => .error (.marginCount input)

end Edges

/-- A margin as it is given. -/
inductive Margin where
  | uniform (x : Float)
  | shorthand (text : String)
  | edges (top right bottom left : Option Float)
  deriving DecidableEq

/-- The four edges of a margin. An edge that is not given is zero. -/
def Margin.resolve : Margin → Except Fault Edges
  | .uniform x => .ok (.uniform x)
  | .shorthand text => Edges.parse text
  | .edges top right bottom left =>
    .ok ⟨top.getD 0.0, right.getD 0.0, bottom.getD 0.0, left.getD 0.0⟩

end Galley.Page
