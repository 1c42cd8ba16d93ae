import Galley.Decimal.Layout
import Galley.Json.Basic

/-!
# Compact JSON text

No blanks, members in their order, doubles always recognisable as doubles. A double that is not
finite has no JSON form and is written as null.
-/

namespace Galley.Json

/-- A hexadecimal digit. -/
def hexDigit (n : Nat) : Char := Nat.digitChar n

/-- A character inside a JSON string. -/
def escapeChar (c : Char) : List Char :=
  if c = '"' then ['\\', '"']
  else if c = '\\' then ['\\', '\\']
  else if c = '\n' then ['\\', 'n']
  else if c = '\r' then ['\\', 'r']
  else if c = '\t' then ['\\', 't']
  else if c.toNat = 8 then ['\\', 'b']
  else if c.toNat = 12 then ['\\', 'f']
  else if c.toNat < 0x20 then
    ['\\', 'u', '0', '0', hexDigit (c.toNat / 16), hexDigit (c.toNat % 16)]
  else [c]

/-- A JSON string. -/
def stringText (s : String) : List Char :=
  '"' :: s.toList.flatMap escapeChar ++ ['"']

/-- A JSON number for a double. -/
def floatText (x : Float) : List Char :=
  if Decimal.isFinite x then Decimal.Layout.data.render x else "null".toList

mutual

/-- The compact text of a value. -/
def compact : Json → List Char
  | .null => "null".toList
  | .bool b => if b then "true".toList else "false".toList
  | .int n => Decimal.integer n
  | .float x => floatText x
  | .text s => stringText s
  | .list items => '[' :: compactItems items ++ [']']
  | .object ms => '\x7b' :: compactMembers ms ++ ['\x7d']

/-- Items with a comma between neighbours. -/
def compactItems : List Json → List Char
  | [] => []
  | [v] => compact v
  | v :: vs => compact v ++ ',' :: compactItems vs

/-- Members with a comma between neighbours. -/
def compactMembers : List (String × Json) → List Char
  | [] => []
  | [(k, v)] => stringText k ++ ':' :: compact v
  | (k, v) :: ms => stringText k ++ ':' :: compact v ++ ',' :: compactMembers ms

end

/-- The compact text of a value. -/
def toText (v : Json) : String := String.ofList v.compact

end Galley.Json
