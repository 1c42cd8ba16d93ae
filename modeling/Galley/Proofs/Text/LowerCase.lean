import Galley.Text.Blank
import Galley.Text.Case
import Mathlib

/-!
# Lower case twice

Lower case is reached in one step, and it makes no separators.

**Theorem (`lowercase_lowercase`).** A text in lower case is its own lower case, also where a
final sigma was chosen by its context.

**Theorem (`mem_of_mem_lowercase`).** A blank, a comma or a quote in the lower case of a text is a
character of the text.

Both are read off the table of case runs: the image of a run lies outside the domains of all runs
(`lowerRuns_avoid`) and none of them is a separator (`lowerRuns_clear`). The
two checks compare the ends of runs, so that they need no walk through all characters.
-/

namespace Galley.Text

/-! ## Runs and their images -/

/-- Does a run move the code point? -/
def CaseRun.Holds (r : CaseRun) (n : Nat) : Prop :=
  r.first ≤ n ∧ n ≤ r.last ∧ (n - r.first) % r.step = 0

/-- The image of the first code point of a run. -/
def CaseRun.low (r : CaseRun) : Nat := (r.first + r.offset).toNat

/-- The images of the run `r` are outside the domain of `q`: before it, behind it, or between its
points. -/
def CaseRun.avoids (r q : CaseRun) : Bool :=
  Nat.blt (r.low + (r.last - r.first)) q.first || Nat.blt q.last r.low ||
    (Nat.beq q.step 2 && Nat.beq ((r.low + q.first) % 2) 1 &&
      (Nat.beq r.step 2 || Nat.beq r.first r.last))

/-- The code point is not among the images of the run. -/
def CaseRun.misses (r : CaseRun) (n : Nat) : Bool :=
  Nat.blt (r.low + (r.last - r.first)) n || Nat.blt n r.low

/-- The offset of a run leads to a code point. -/
def CaseRun.proper (r : CaseRun) : Bool := decide (0 ≤ r.first + r.offset)

theorem CaseRun.find?_eq_some {runs : List CaseRun} {n m : Nat} (h : find? runs n = some m) :
    ∃ r ∈ runs, r.Holds n ∧ m = (n + r.offset).toNat := by
  simp only [find?, Option.map_eq_some_iff] at h
  obtain ⟨r, hr, rfl⟩ := h
  have hmem := List.mem_of_find?_eq_some hr
  have hholds := List.find?_some hr
  simp only [Bool.and_eq_true, decide_eq_true_eq, beq_iff_eq] at hholds
  exact ⟨r, hmem, ⟨hholds.1.1, hholds.1.2, hholds.2⟩, rfl⟩

theorem CaseRun.find?_eq_none {runs : List CaseRun} {n : Nat} (h : ∀ r ∈ runs, ¬ r.Holds n) :
    find? runs n = none := by
  simp only [find?, Option.map_eq_none_iff, List.find?_eq_none]
  intro r hr hholds
  simp only [Bool.and_eq_true, decide_eq_true_eq, beq_iff_eq] at hholds
  exact h r hr ⟨hholds.1.1, hholds.1.2, hholds.2⟩

theorem CaseRun.image_eq {r : CaseRun} {n : Nat} (hp : r.proper = true) (h : r.Holds n) :
    (n + r.offset).toNat = r.low + (n - r.first) := by
  simp only [proper, decide_eq_true_eq] at hp
  have hle := h.1
  unfold low
  omega

theorem CaseRun.not_holds_of_avoids {r q : CaseRun} {n : Nat} (hp : r.proper = true)
    (ha : r.avoids q = true) (h : r.Holds n) : ¬ q.Holds (n + r.offset).toNat := by
  rw [image_eq hp h]
  simp only [avoids, Bool.or_eq_true, Bool.and_eq_true, Nat.blt_eq, Nat.beq_eq] at ha
  obtain ⟨hfirst, hlast, hstep⟩ := h
  rintro ⟨qfirst, qlast, qstep⟩
  rcases ha with (ha | ha) | ⟨⟨h2, hodd⟩, hr | hr⟩
  · omega
  · omega
  · rw [hr] at hstep
    rw [h2] at qstep
    omega
  · rw [h2] at qstep
    omega

theorem CaseRun.image_ne_of_misses {r : CaseRun} {n m : Nat} (hp : r.proper = true)
    (hm : r.misses m = true) (h : r.Holds n) : (n + r.offset).toNat ≠ m := by
  rw [image_eq hp h]
  simp only [misses, Bool.or_eq_true, Nat.blt_eq] at hm
  obtain ⟨hfirst, hlast, -⟩ := h
  omega

/-! ## The table of lower case -/

/-- The code points of the blanks, the quotes and the comma. -/
def separators : List Nat := [
  0x09, 0x0a, 0x0b, 0x0c, 0x0d, 0x20, 0x85, 0xa0, 0x1680, 0x2000, 0x2001, 0x2002, 0x2003, 0x2004,
  0x2005, 0x2006, 0x2007, 0x2008, 0x2009, 0x200a, 0x2028, 0x2029, 0x202f, 0x205f, 0x3000,
  0x22, 0x27, 0x2c]

theorem lowerRuns_proper : (lowerRuns.all CaseRun.proper) = true := by decide +kernel

theorem lowerRuns_avoid : (lowerRuns.all fun r => lowerRuns.all r.avoids) = true := by
  decide +kernel

/-- No image separates, and none is the capital with a dot, whose lower case has two characters. -/
theorem lowerRuns_clear : (lowerRuns.all fun r => (0x130 :: separators).all r.misses) = true := by
  decide +kernel

/-- The image of a code point is moved no further, and is none of those set apart. -/
theorem find?_lowerRuns {n m : Nat} (h : CaseRun.find? lowerRuns n = some m) :
    CaseRun.find? lowerRuns m = none ∧ m ∉ 0x130 :: separators := by
  obtain ⟨r, hr, hholds, rfl⟩ := CaseRun.find?_eq_some h
  have hp := List.all_eq_true.1 lowerRuns_proper r hr
  constructor
  · refine CaseRun.find?_eq_none fun q hq => ?_
    have ha := List.all_eq_true.1 (List.all_eq_true.1 lowerRuns_avoid r hr) q hq
    exact CaseRun.not_holds_of_avoids hp ha hholds
  · intro hmem
    have hm := List.all_eq_true.1 (List.all_eq_true.1 lowerRuns_clear r hr) _ hmem
    exact CaseRun.image_ne_of_misses hp hm hholds rfl

/-! ## Characters that are lower case -/

/-- Lower case leaves the character as it is, wherever it stands. -/
def IsLower (c : Char) : Prop := c.toNat ≠ 0x3a3 ∧ lowerChar c = [c]

instance (c : Char) : Decidable (IsLower c) := inferInstanceAs (Decidable (_ ∧ _))

theorem isLower_of_find?_eq_none {c : Char} (h80 : 0x80 ≤ c.toNat) (h130 : c.toNat ≠ 0x130)
    (h : CaseRun.find? lowerRuns c.toNat = none) : IsLower c := by
  refine ⟨fun hsigma => ?_, ?_⟩
  · rw [hsigma] at h
    exact absurd h (by decide)
  · simp [lowerChar, h, h130, Nat.not_lt.2 h80]

/-- The lower case of an ASCII character is lower case, and a separator only if it was one. -/
theorem isLower_toLower : ∀ n < 0x80,
    IsLower (Char.ofNat n).toLower ∧
      ((Char.ofNat n).toLower.toNat ∈ separators → (Char.ofNat n).toLower = Char.ofNat n) := by
  decide +kernel

theorem isLower_ascii : ∀ n < 0x80,
    CaseRun.find? lowerRuns n = none → IsLower (Char.ofNat n) := by
  decide +kernel

/-- A code point that no run moves is lower case, unless it is the capital with a dot. A number
that is no code point stands for the first one. -/
theorem isLower_ofNat {m : Nat} (hnone : CaseRun.find? lowerRuns m = none)
    (hm : m ∉ 0x130 :: separators) :
    IsLower (Char.ofNat m) ∧ (Char.ofNat m).toNat ∉ separators := by
  have hnat := Char.toNat_ofNat m
  by_cases hv : m.isValidChar
  · rw [if_pos hv] at hnat
    refine ⟨?_, hnat.symm ▸ fun h => hm (List.mem_cons_of_mem _ h)⟩
    by_cases h80 : m < 0x80
    · exact isLower_ascii m h80 hnone
    · have h130 : m ≠ 0x130 := fun h => hm (h ▸ List.mem_cons_self)
      exact isLower_of_find?_eq_none (by omega) (by omega) (hnat.symm ▸ hnone)
  · rw [if_neg hv] at hnat
    have hzero : Char.ofNat m = Char.ofNat 0 := by rw [← Char.ofNat_toNat (Char.ofNat m), hnat]
    rw [hzero]
    decide

/-- The lower case of a character is lower case, and a separator only if it was one. -/
theorem lowerChar_image {c d : Char} (h : d ∈ lowerChar c) (hc : c.toNat ≠ 0x3a3) :
    IsLower d ∧ (d.toNat ∈ separators → d = c) := by
  unfold lowerChar at h
  split at h
  · rename_i h80
    rw [List.mem_singleton.1 h]
    have hascii := isLower_toLower c.toNat h80
    rwa [Char.ofNat_toNat] at hascii
  · rename_i h80
    split at h
    · have hd : d = 'i' ∨ d = Char.ofNat 0x307 := by simpa using h
      rcases hd with rfl | rfl <;> exact ⟨by decide, fun hr => absurd hr (by decide)⟩
    · rename_i h130
      have hd := List.mem_singleton.1 h
      cases hfind : CaseRun.find? lowerRuns c.toNat with
      | none =>
        rw [hfind] at hd
        subst hd
        exact ⟨isLower_of_find?_eq_none (by omega) (by simpa using h130) hfind, fun _ => rfl⟩
      | some m =>
        rw [hfind] at hd
        subst hd
        obtain ⟨hnone, hclear⟩ := find?_lowerRuns hfind
        obtain ⟨hlower, hfree⟩ := isLower_ofNat hnone hclear
        exact ⟨hlower, fun hr => absurd hr hfree⟩

/-! ## Lower case of texts -/

/-- The characters of a lower case text are lower case, and the separators among them were there
before. -/
theorem lowerAfter_image {before s : List Char} {d : Char} (h : d ∈ lowerAfter before s) :
    IsLower d ∧ (d.toNat ∈ separators → d ∈ s) := by
  induction s generalizing before with
  | nil => exact absurd h List.not_mem_nil
  | cons c s ih =>
    rw [lowerAfter, List.mem_append] at h
    rcases h with h | h
    · split at h
      · have hd : d = Char.ofNat 0x3c2 ∨ d = Char.ofNat 0x3c3 := by
          split at h
          · exact .inl (List.mem_singleton.1 h)
          · exact .inr (List.mem_singleton.1 h)
        rcases hd with rfl | rfl <;> exact ⟨by decide, fun hr => absurd hr (by decide)⟩
      · rename_i hc
        obtain ⟨hlower, hfree⟩ := lowerChar_image h (by simpa using hc)
        exact ⟨hlower, fun hr => hfree hr ▸ List.mem_cons_self⟩
    · obtain ⟨hlower, hfree⟩ := ih h
      exact ⟨hlower, fun hr => List.mem_cons_of_mem _ (hfree hr)⟩

/-- No character is lost in lower case. -/
theorem lowercase_eq_nil_iff {s : List Char} : lowercase s = [] ↔ s = [] := by
  cases s with
  | nil => simp [lowercase, lowerAfter]
  | cons c s =>
    have himage : lowerChar c ≠ [] := by
      unfold lowerChar
      split_ifs <;> simp
    simp only [lowercase, lowerAfter, List.append_eq_nil_iff, reduceCtorEq, iff_false, not_and]
    intro hnil
    split_ifs at hnil
    exact absurd hnil himage

theorem lowerAfter_of_isLower {before s : List Char} (h : ∀ c ∈ s, IsLower c) :
    lowerAfter before s = s := by
  induction s generalizing before with
  | nil => rfl
  | cons c s ih =>
    obtain ⟨hsigma, hc⟩ := h c List.mem_cons_self
    have hrest : lowerAfter (c :: before) s = s := ih fun d hd => h d (List.mem_cons_of_mem _ hd)
    simp [lowerAfter, hsigma, hc, hrest]

theorem lowercase_of_isLower {s : List Char} (h : ∀ c ∈ s, IsLower c) : lowercase s = s :=
  lowerAfter_of_isLower h

theorem isLower_of_mem_lowercase {s : List Char} {c : Char} (h : c ∈ lowercase s) : IsLower c :=
  (lowerAfter_image h).1

/-- **Lower case is reached in one step.** -/
theorem lowercase_lowercase (s : List Char) : lowercase (lowercase s) = lowercase s :=
  lowercase_of_isLower fun _ h => isLower_of_mem_lowercase h

/-- **Lower case makes no separators.** -/
theorem mem_of_mem_lowercase {s : List Char} {c : Char} (h : c ∈ lowercase s)
    (hc : c.toNat ∈ separators) : c ∈ s :=
  (lowerAfter_image h).2 hc

theorem separates_of_mem : ∀ n ∈ separators,
    isBlank (Char.ofNat n) = true ∨ Char.ofNat n = ',' ∨ n = 0x22 ∨ n = 0x27 := by
  decide +kernel

theorem mem_separators_of_isBlank {c : Char} (h : isBlank c = true) : c.toNat ∈ separators := by
  simp only [isBlank, Bool.or_eq_true, Bool.and_eq_true, decide_eq_true_eq, beq_iff_eq] at h
  simp only [separators, List.mem_cons]
  omega

end Galley.Text
