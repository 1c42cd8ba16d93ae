import Galley.Bytes.Utf8
import Mathlib

/-!
# Lossy text of a longer file

More bytes at the end change the text of a file only at its end: the characters stay, but for a
replacement character that stood for a character which broke off there (`toTextLossy_append`).

The first character reads a lead byte and the bytes behind it that fit. It reads the same of a
longer file, unless all bytes fit and are too few (`firstChar_append`); then it is the last
character.
-/

namespace Galley.Bytes

/-- More bytes make no difference to the bytes that belong to a character, unless all bytes do and
are too few. -/
theorem tail_append {n : Nat} (hn : 0 < n) (low high : UInt8) (bs more : Bytes) :
    tail n low high (bs ++ more) = tail n low high bs ∨
      tail n low high bs = bs ∧ bs.length < n := by
  cases bs with
  | nil => exact .inr ⟨rfl, hn⟩
  | cons b bs =>
    by_cases hb : (low ≤ b && b ≤ high) = true
    · simp only [List.cons_append, tail, hb, if_true, List.cons.injEq, true_and, List.length_cons]
      by_cases hlength : n - 1 ≤ bs.length
      · rw [List.take_append_of_le_length hlength]
        exact .inl rfl
      · have htake : bs.take (n - 1) = bs := List.take_of_length_le (by omega)
        rw [List.take_append, htake, List.takeWhile_append]
        split_ifs with hall
        · have hwhile : bs.takeWhile isContinuation = bs :=
            (List.takeWhile_prefix _).eq_of_length hall
          exact .inr ⟨hwhile, by omega⟩
        · exact .inl rfl
    · simp [tail, hb]

theorem one_lt_of_lead? {b low high : UInt8} {width : Nat} (h : lead? b = some (width, low, high)) :
    1 < width := by
  unfold lead? at h
  split_ifs at h <;> cases h <;> decide

/-- More bytes make no difference to the first character, unless it breaks off with the last
byte. -/
theorem firstChar_append (b : UInt8) (bs more : Bytes) :
    firstChar b (bs ++ more) = firstChar b bs ∨ firstChar b bs = (replacement, bs.length) := by
  unfold firstChar
  split_ifs with hascii
  · exact .inl rfl
  · cases hlead : lead? b with
    | none => exact .inl rfl
    | some lead =>
      obtain ⟨width, low, high⟩ := lead
      have hpos : 0 < width - 1 := by
        have hwidth := one_lt_of_lead? hlead
        omega
      rcases tail_append hpos low high bs more with hsame | ⟨hall, hfew⟩
      · exact .inl (by simp only [hsame])
      · refine .inr ?_
        simp only [hall]
        rw [if_neg (by omega)]

theorem length_tail_le (n : Nat) (low high : UInt8) (bs : Bytes) :
    (tail n low high bs).length ≤ bs.length := by
  cases bs with
  | nil => exact Nat.le_refl _
  | cons b bs =>
    have hrest : ((bs.take (n - 1)).takeWhile isContinuation).length ≤ bs.length :=
      (List.takeWhile_prefix _).length_le.trans (List.take_prefix _ _).length_le
    rw [tail]
    split_ifs
    · simpa using hrest
    · exact Nat.zero_le _

theorem firstChar_le (b : UInt8) (bs : Bytes) : (firstChar b bs).2 ≤ bs.length := by
  unfold firstChar
  split_ifs
  · exact Nat.zero_le _
  · cases lead? b with
    | none => exact Nat.zero_le _
    | some lead =>
      dsimp only
      split_ifs <;> exact length_tail_le _ _ _ _

theorem toTextLossy_cons (b : UInt8) (bs : Bytes) :
    toTextLossy (b :: bs) = (firstChar b bs).1 :: toTextLossy (bs.drop (firstChar b bs).2) := by
  rw [toTextLossy]

/-- **More bytes change a text only at its end**, where a replacement character may give way. -/
theorem toTextLossy_append (bs more : Bytes) :
    (∃ rest, toTextLossy (bs ++ more) = toTextLossy bs ++ rest) ∨
      ∃ front rest, toTextLossy bs = front ++ [replacement] ∧
        toTextLossy (bs ++ more) = front ++ rest := by
  -- The recursion goes on behind the first character, so the induction is on the length.
  induction hlength : bs.length using Nat.strong_induction_on generalizing bs with
  | _ length ih =>
    cases bs with
    | nil => exact .inl ⟨toTextLossy more, by simp [toTextLossy]⟩
    | cons b bs =>
      rw [List.cons_append, toTextLossy_cons, toTextLossy_cons]
      rcases firstChar_append b bs more with hsame | hbroken
      · rw [hsame, List.drop_append_of_le_length (firstChar_le b bs)]
        have hshorter : (bs.drop (firstChar b bs).2).length < length := by
          rw [← hlength, List.length_drop, List.length_cons]
          omega
        rcases ih _ hshorter _ rfl with ⟨rest, hrest⟩ | ⟨front, rest, hfront, hrest⟩
        · exact .inl ⟨rest, by rw [hrest, List.cons_append]⟩
        · refine .inr ⟨(firstChar b bs).1 :: front, rest, ?_, ?_⟩
          · rw [hfront, List.cons_append]
          · rw [hrest, List.cons_append]
      · refine .inr ⟨[], _, ?_, rfl⟩
        rw [hbroken, List.drop_length, toTextLossy, List.nil_append]

end Galley.Bytes
