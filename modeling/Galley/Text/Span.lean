/-!
# Tables of characters

A property of characters is a table of code points: closed spans, or runs that take every
character or every second one.
-/

namespace Galley.Text

/-- The code points from the first to the second, both included. -/
abbrev Span := Nat × Nat

/-- The code points `a`, `a + step`, …, `b` of `(a, b, step)`. -/
abbrev Run := Nat × Nat × Nat

/-- Is the code point in one of the spans? -/
def inSpans (spans : List Span) (n : Nat) : Bool :=
  spans.any fun s => s.1 ≤ n && n ≤ s.2

/-- Is the code point in one of the runs? -/
def inRuns (runs : List Run) (n : Nat) : Bool :=
  runs.any fun r => r.1 ≤ n && n ≤ r.2.1 && (n - r.1) % r.2.2 == 0

end Galley.Text
