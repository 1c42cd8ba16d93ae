import Galley.Decimal.Layout

/-!
# Natural numbers within text

A number is told by its digits, by a text that begins with them if a character that is no digit comes
next, and by a text that ends with them if such a character comes before.
-/

namespace Galley.Decimal

theorem natural_injective {m n : Nat} (h : natural m = natural n) : m = n := by
  have hdigits : Nat.toDigits 10 m = Nat.toDigits 10 n := String.ofList_injective h
  rw [← @Nat.ofDigitChars_ten_toDigits m, hdigits, Nat.ofDigitChars_ten_toDigits]

theorem isDigit_of_mem_natural {n : Nat} {c : Char} (h : c ∈ (natural n).toList) :
    c.isDigit = true := by
  rw [natural, String.toList_ofList] at h
  exact Nat.isDigit_of_mem_toDigits (by decide) (by decide) h

/-- Digits end where a character that is no digit comes next. -/
theorem digits_ended_inj {ds es s t : List Char} {c : Char} (hds : ∀ d ∈ ds, d.isDigit = true)
    (hes : ∀ d ∈ es, d.isDigit = true) (hc : c.isDigit = false) (h : ds ++ c :: s = es ++ c :: t) :
    ds = es ∧ s = t := by
  have hbefore : ∀ {fs : List Char} (rest : List Char), (∀ d ∈ fs, d.isDigit = true) →
      (fs ++ c :: rest).takeWhile Char.isDigit = fs := by
    intro fs rest hfs
    rw [List.takeWhile_append_of_pos hfs, List.takeWhile_cons_of_neg (by simp [hc]),
      List.append_nil]
  have hdigits : ds = es := by
    rw [← hbefore s hds, h, hbefore t hes]
  rw [hdigits, List.append_cancel_left_eq, List.cons.injEq] at h
  exact ⟨hdigits, h.2⟩

/-- A character that is no digit ends a number, so that what follows it is told apart too. -/
theorem natural_ended_inj {m n : Nat} {c : Char} (hc : c.isDigit = false) {s t : List Char}
    (h : (natural m).toList ++ c :: s = (natural n).toList ++ c :: t) : m = n ∧ s = t := by
  obtain ⟨hnumbers, hrest⟩ :=
    digits_ended_inj (fun _ => isDigit_of_mem_natural) (fun _ => isDigit_of_mem_natural) hc h
  exact ⟨natural_injective (String.toList_injective hnumbers), hrest⟩

/-- Read from its end, a text tells the number that stands last, and what is before it. -/
theorem natural_last_inj {m n : Nat} {c : Char} (hc : c.isDigit = false) {s t : List Char}
    (h : s ++ c :: (natural m).toList = t ++ c :: (natural n).toList) : s = t ∧ m = n := by
  have hreverse : (natural m).toList.reverse ++ c :: s.reverse =
      (natural n).toList.reverse ++ c :: t.reverse := by
    simpa using congrArg List.reverse h
  have hdigits : ∀ k, ∀ d ∈ (natural k).toList.reverse, d.isDigit = true := fun k d hd =>
    isDigit_of_mem_natural (List.mem_reverse.1 hd)
  obtain ⟨hnumbers, hbefore⟩ := digits_ended_inj (hdigits m) (hdigits n) hc hreverse
  exact ⟨List.reverse_inj.1 hbefore,
    natural_injective (String.toList_injective (List.reverse_inj.1 hnumbers))⟩

end Galley.Decimal
