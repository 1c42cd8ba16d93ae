import Galley.Text.CaseClass
import Galley.Text.CaseMap

/-!
# Lower and upper case

The full case mappings of Unicode without a language. Lower case has one rule that reads the
context: a capital sigma at the end of a word becomes `ς`.
-/

namespace Galley.Text

/-- Lower case of one character, whatever stands around it. -/
def lowerChar (c : Char) : List Char :=
  if c.toNat < 0x80 then [c.toLower]
  else if c.toNat == 0x130 then ['i', Char.ofNat 0x307]
  else [((CaseRun.find? lowerRuns c.toNat).map Char.ofNat).getD c]

/-- Upper case of one character. -/
def upperChar (c : Char) : List Char :=
  if c.toNat < 0x80 then [c.toUpper]
  else match upperExpansions.find? (·.1 == c.toNat) with
    | some (_, cs) => cs.map Char.ofNat
    | none => [((CaseRun.find? upperRuns c.toNat).map Char.ofNat).getD c]

/-- Is the first character that is not case-ignorable a cased one? -/
def facesCased (s : List Char) : Bool :=
  match s.dropWhile isCaseIgnorable with
  | [] => false
  | c :: _ => isCased c

/-- Lower case of a text, given what stands before it, nearest character first. -/
def lowerAfter (before : List Char) : List Char → List Char
  | [] => []
  | c :: s =>
    let image :=
      if c.toNat == 0x3a3 then
        if facesCased before && !facesCased s then [Char.ofNat 0x3c2] else [Char.ofNat 0x3c3]
      else lowerChar c
    image ++ lowerAfter (c :: before) s

/-- The text in lower case. -/
def lowercase (s : List Char) : List Char := lowerAfter [] s

/-- The word with its first character in upper case. -/
def capitalize : List Char → List Char
  | [] => []
  | c :: s => upperChar c ++ s

end Galley.Text
