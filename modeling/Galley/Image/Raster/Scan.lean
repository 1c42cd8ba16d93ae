import Galley.Bytes.Utf8

/-!
# Scanning a file

A scan reads the beginning of a file and leaves the rest. It has no result where the file breaks off
or is not of the form that is asked for.
-/

namespace Galley.Image.Raster

/-- A width and a height in pixels. -/
abbrev Pixels := Nat × Nat

/-- What is read from the beginning of a file, and the bytes after that. -/
abbrev Scan (α : Type) := StateT Bytes Option α

namespace Scan

/-- The next `n` bytes. -/
def bytes (n : Nat) : Scan Bytes := fun bs =>
  let front := bs.take n
  if front.length = n then some (front, bs.drop n) else none

/-- The next bytes are passed over. -/
def skip (n : Nat) : Scan Unit := do
  let _ ← bytes n

/-- The number in the next bytes, the most significant one first. -/
def big (n : Nat) : Scan Nat := return Bytes.bigEndian (← bytes n)

/-- The number in the next bytes, the least significant one first. -/
def little (n : Nat) : Scan Nat := return Bytes.littleEndian (← bytes n)

/-- The next byte as a number. -/
def byte : Scan Nat := big 1

/-- The next bytes are a word in ASCII. -/
def word (w : String) : Scan Unit := do
  guard ((← bytes w.length) = Bytes.ofText w)

theorem run_bytes_append (front rest : Bytes) :
    (bytes front.length).run (front ++ rest) = some (front, rest) := by
  simp [bytes, StateT.run]

theorem run_bytes_eq_none {n : Nat} {bs : Bytes} (h : bs.length < n) :
    (bytes n).run bs = none := by
  have ne : min n bs.length ≠ n := by omega
  simp [bytes, StateT.run, ne]

theorem length_of_run_bytes {n : Nat} {bs front rest : Bytes}
    (h : (bytes n).run bs = some (front, rest)) : bs.length = n + rest.length := by
  simp only [bytes, StateT.run, List.length_take, Option.ite_none_right_eq_some, Option.some.injEq,
    Prod.mk.injEq] at h
  obtain ⟨le, -, rfl⟩ := h
  rw [List.length_drop]
  omega

end Scan

end Galley.Image.Raster
