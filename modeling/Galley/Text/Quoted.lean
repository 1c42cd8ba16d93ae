import Galley.Text.Extender
import Galley.Text.Ignorable
import Galley.Text.Unprintable

/-!
# Quoted text

A text between double quotes, as messages show it: a quote and a backslash are escaped, the
common control characters have an escape of their own, and characters that show nothing by
themselves are written by their code point.
-/

namespace Galley.Text

/-- The digits of a number in lower-case hexadecimal. -/
def hexDigits (n : Nat) : List Char := Nat.toDigits 16 n

/-- Does the character show by itself? -/
def isPlain (c : Char) : Bool :=
  if c.toNat < 0x7f then 0x20 ≤ c.toNat
  else !inSpans extenders c.toNat && !inSpans ignorables c.toNat && !inSpans unprintable c.toNat

/-- A character inside quotes. -/
def escapeChar (c : Char) : List Char :=
  if c = '"' then ['\\', '"']
  else if c = '\\' then ['\\', '\\']
  else if c = '\n' then ['\\', 'n']
  else if c = '\r' then ['\\', 'r']
  else if c = '\t' then ['\\', 't']
  else if c.toNat = 0 then ['\\', '0']
  else if isPlain c then [c]
  else ['\\', 'u', '\x7b'] ++ hexDigits c.toNat ++ ['\x7d']

/-- The text between double quotes. -/
def quoted (s : String) : String :=
  String.ofList ('"' :: s.toList.flatMap escapeChar ++ ['"'])

end Galley.Text
