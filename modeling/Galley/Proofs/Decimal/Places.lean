import Galley.Decimal.Fixed
import Galley.Proofs.Decimal.ReadBack
import Galley.Proofs.Decimal.Sign

/-!
# Numerals with trimmed places

A finite double that is written with a number of places and then trimmed is a numeral (`Numeral`):
digits, and behind a point, if there is one, more digits that do not end in zero. The minus in
front of it is there only if the sign bit is set.

The trimming takes zeros off the end of the places and then the point, and never reaches the digits
before it (`trimPlaces_point`).
-/

namespace Galley.Decimal

/-- Digits, and up to a number of places behind a point, the last of which is not zero. -/
inductive Numeral (places : Nat) : List Char → Prop
  | whole {ds : List Char} (hne : ds ≠ []) (hds : ∀ c ∈ ds, c.isDigit = true) : Numeral places ds
  | point {ds fs : List Char} (hne : ds ≠ []) (hds : ∀ c ∈ ds, c.isDigit = true)
      (hfs : ∀ c ∈ fs, c.isDigit = true) (hpos : fs ≠ []) (hplaces : fs.length ≤ places)
      (hlast : fs.getLast? ≠ some '0') : Numeral places (ds ++ '.' :: fs)

/-! ## Trimming -/

theorem trimPlaces_eq (s : List Char) :
    trimPlaces s = (s.rdropWhile fun c => c = '0').rdropWhile fun c => c = '.' := by
  simp [trimPlaces, List.rdropWhile]

theorem rdropWhile_point (before fs : List Char) :
    (before ++ '.' :: fs).rdropWhile (fun c => c = '0') =
      before ++ '.' :: fs.rdropWhile fun c => c = '0' := by
  induction fs using List.reverseRecOn with
  | nil => exact List.rdropWhile_concat_neg _ _ _ (by decide)
  | append_singleton fs c ih =>
    rw [← List.cons_append, ← List.append_assoc, List.rdropWhile_concat, List.rdropWhile_concat, ih]
    split <;> simp

theorem ne_point_of_isDigit {c : Char} (h : c.isDigit = true) : c ≠ '.' := by
  rintro rfl
  exact absurd h (by decide)

/-- **The trimming stops at the point**, which goes too if nothing is left behind it. -/
theorem trimPlaces_point {before fs : List Char} (hbefore : before.getLast? ≠ some '.')
    (hfs : ∀ c ∈ fs, c.isDigit = true) :
    trimPlaces (before ++ '.' :: fs) =
      before ++ if fs.rdropWhile (fun c => c = '0') = [] then []
        else '.' :: fs.rdropWhile fun c => c = '0' := by
  rw [trimPlaces_eq, rdropWhile_point]
  split
  · rename_i hnil
    rw [hnil, List.rdropWhile_concat_pos _ _ _ (by decide), List.append_nil,
      List.rdropWhile_eq_self_iff]
    intro hne hlast
    rw [List.getLast?_eq_some_getLast hne] at hbefore
    exact hbefore (congrArg some (of_decide_eq_true hlast))
  · rename_i hne
    rw [List.rdropWhile_eq_self_iff]
    intro _ hlast
    rw [List.getLast_append_of_ne_nil _ (List.cons_ne_nil _ _), List.getLast_cons hne] at hlast
    have hmem := (List.rdropWhile_prefix _ fs).subset (List.getLast_mem hne)
    exact ne_point_of_isDigit (hfs _ hmem) (of_decide_eq_true hlast)

/-! ## Digits with places -/

/-- The digits of a number, behind so many zeros that there are more than `places` of them. -/
def padded (places n : Nat) : List Char :=
  List.replicate (places + 1 - (Nat.toDigits 10 n).length) '0' ++ Nat.toDigits 10 n

theorem padded_succ (places n : Nat) :
    padded (places + 1) n = padded places (n / 10) ++ [(n % 10).digitChar] := by
  by_cases h : n < 10
  · have hzero : n / 10 = 0 := Nat.div_eq_of_lt h
    have hself : n % 10 = n := Nat.mod_eq_of_lt h
    rw [padded, padded, hzero, hself, Nat.toDigits_of_lt_base h, Nat.toDigits_zero]
    simp [List.replicate_succ']
  · rw [padded, padded, Nat.toDigits_of_base_le (by decide) (not_lt.1 h), List.length_append,
      List.length_singleton, Nat.add_sub_add_right, List.append_assoc]

/-- **The last places of a number** have digits of their own, behind the digits of what remains. -/
theorem exists_padded (places n : Nat) :
    ∃ fs, padded places n = Nat.toDigits 10 (n / 10 ^ places) ++ fs ∧ AllDigits fs ∧
      fs.length = places := by
  induction places generalizing n with
  | zero =>
    have hlength : 0 + 1 - (Nat.toDigits 10 n).length = 0 := by
      have hpos := Nat.length_toDigits_pos (b := 10) (n := n)
      omega
    refine ⟨[], ?_, fun c hc => absurd hc List.not_mem_nil, rfl⟩
    rw [padded, hlength]
    simp
  | succ places ih =>
    obtain ⟨fs, hpadded, hfs, hlength⟩ := ih (n / 10)
    refine ⟨fs ++ [(n % 10).digitChar], ?_, hfs.append ?_, by simp [hlength]⟩
    · rw [padded_succ, hpadded, Nat.div_div_eq_div_mul, ← Nat.pow_succ', List.append_assoc]
    · intro c hc
      have hlast := allDigits_toDigits (n % 10)
      rw [Nat.toDigits_of_lt_base (Nat.mod_lt n (by decide))] at hlast
      exact hlast c hc

/-- **The digits before the point and behind it.** -/
theorem exists_placed (places n : Nat) :
    ∃ fs, placed places n = Nat.toDigits 10 (n / 10 ^ places) ++ '.' :: fs ∧ AllDigits fs ∧
      fs.length = places ∧ digitsValue fs = n % 10 ^ places := by
  obtain ⟨fs, hpadded, hfs, hlength⟩ := exists_padded places n
  have hplaced : placed places n = (padded places n).take ((padded places n).length - places) ++
      '.' :: (padded places n).drop ((padded places n).length - places) := rfl
  have hbefore : (Nat.toDigits 10 (n / 10 ^ places) ++ fs).length - places =
      (Nat.toDigits 10 (n / 10 ^ places)).length := by
    rw [List.length_append, hlength, Nat.add_sub_cancel]
  have hvalue : n / 10 ^ places * 10 ^ places + digitsValue fs = n := by
    have hall : digitsValue (padded places n) = n := by
      rw [padded, digitsValue_zeros_append, digitsValue_toDigits]
    rwa [hpadded, digitsValue_append, digitsValue_toDigits, hlength] at hall
  refine ⟨fs, ?_, hfs, hlength, ?_⟩
  · rw [hplaced, hpadded, hbefore, List.take_left, List.drop_left]
  · have hdiv := Nat.div_add_mod' n (10 ^ places)
    omega

/-- **What is left of the places**: all but the zeros at the end, and no point without any. -/
theorem exists_trimPlaces (places n : Nat) :
    ∃ kept k, AllDigits kept ∧ kept.length + k = places ∧ kept.getLast? ≠ some '0' ∧
      digitsValue kept * 10 ^ k = n % 10 ^ places ∧
      ∀ sign, trimPlaces (sign ++ placed places n) =
        sign ++ (Nat.toDigits 10 (n / 10 ^ places) ++ if kept = [] then [] else '.' :: kept) := by
  obtain ⟨fs, hplaced, hfs, hlength, hvalue⟩ := exists_placed places n
  have hds := allDigits_toDigits (n / 10 ^ places)
  have hne := Nat.toDigits_ne_nil (b := 10) (n := n / 10 ^ places)
  generalize Nat.toDigits 10 (n / 10 ^ places) = ds at hplaced hds hne
  have hlast : ∀ sign : List Char, (sign ++ ds).getLast? ≠ some '.' := by
    intro sign hlast
    rw [List.getLast?_append_of_ne_nil _ hne, List.getLast?_eq_some_getLast hne] at hlast
    exact ne_point_of_isDigit (hds _ (List.getLast_mem hne)) (Option.some.inj hlast)
  obtain ⟨k, hk⟩ := exists_zeros fs
  have hkept : (fs.reverse.dropWhile (· = '0')).reverse = fs.rdropWhile fun c => c = '0' := rfl
  rw [hkept] at hk
  refine ⟨fs.rdropWhile fun c => c = '0', k, ?_, ?_, ?_, ?_, fun sign => ?_⟩
  · exact fun c hc => hfs c ((List.rdropWhile_prefix _ fs).subset hc)
  · rw [← hlength]
    conv_rhs => rw [hk]
    simp
  · intro hzero
    by_cases hnil : fs.rdropWhile (fun c => c = '0') = []
    · simp [hnil] at hzero
    · rw [List.getLast?_eq_some_getLast hnil] at hzero
      exact List.rdropWhile_last_not _ _ hnil (by simpa using hzero)
  · rw [← hvalue, ← digitsValue_append_zeros, ← hk]
  · rw [hplaced, ← List.append_assoc, trimPlaces_point (hlast sign) hfs, List.append_assoc]

/-- **Trimmed places are a numeral**, behind any sign. -/
theorem exists_numeral (places n : Nat) : ∃ t, Numeral places t ∧
    ∀ sign, trimPlaces (sign ++ placed places n) = sign ++ t := by
  obtain ⟨kept, k, hkept, hlength, hlast, -, htrim⟩ := exists_trimPlaces places n
  have hds := allDigits_toDigits (n / 10 ^ places)
  have hne := Nat.toDigits_ne_nil (b := 10) (n := n / 10 ^ places)
  refine ⟨_, ?_, htrim⟩
  split
  · rw [List.append_nil]
    exact .whole hne hds
  · rename_i hpos
    exact .point hne hds hkept hpos (by omega) hlast

/-! ## Doubles with places -/

/-- The first character of a numeral is a digit. -/
theorem Numeral.exists_head {places : Nat} {s : List Char} (h : Numeral places s) :
    ∃ c rest, s = c :: rest ∧ c.isDigit = true := by
  cases h with
  | whole hne hds =>
    obtain ⟨c, rest, rfl⟩ := List.exists_cons_of_ne_nil hne
    exact ⟨c, rest, rfl, hds c List.mem_cons_self⟩
  | point hne hds =>
    obtain ⟨c, rest, rfl⟩ := List.exists_cons_of_ne_nil hne
    exact ⟨c, _, rfl, hds c List.mem_cons_self⟩

theorem Numeral.head_ne_minus {places : Nat} {s : List Char} (h : Numeral places s) :
    s.head? ≠ some '-' := by
  obtain ⟨c, rest, rfl, hc⟩ := h.exists_head
  rintro hhead
  cases hhead
  exact absurd hc (by decide)

/-- An unsigned double stands for no negative number. -/
theorem Unsigned.ofFloat {x : Float} (hx : Unsigned x) :
    Binary.ofFloat x = .nan ∨ Binary.ofFloat x = .infinite false ∨
      ∃ m e, Binary.ofFloat x = .finite false m e := by
  have hsign : x.toBits.toNat / signBit = 0 := Nat.div_eq_of_lt hx
  unfold Binary.ofFloat Binary.ofBits
  simp only [hsign]
  split_ifs
  · exact .inr (.inl rfl)
  · exact .inl rfl
  · exact .inr (.inr ⟨_, _, rfl⟩)
  · exact .inr (.inr ⟨_, _, rfl⟩)

/-- The sign bit of a finite double is the sign of the number. -/
theorem unsigned_iff {x : Float} {negative : Bool} {m : Nat} {e : ℤ}
    (h : Binary.ofFloat x = .finite negative m e) : Unsigned x ↔ negative = false := by
  constructor
  · intro hx
    simpa [h] using hx.ofFloat
  · rintro rfl
    obtain ⟨hcanonical, hbits⟩ := canonical_of_ofBits h
    rw [if_neg Bool.false_ne_true, Nat.zero_add] at hbits
    rw [Unsigned, ← hbits]
    exact hcanonical.exactBits_lt.trans (by decide)

/-- The minus of a number, if it has one. -/
def signText (x : Float) : List Char := if Unsigned x then [] else ['-']

/-- The number of units of the last place in `m * 2 ^ e`, rounded. -/
def units (places m : Nat) (e : ℤ) : Nat :=
  roundQuotient (numerator m e * Nat.pow 10 places) (denominator e)

theorem fixed_eq {x : Float} {negative : Bool} {m : Nat} {e : ℤ}
    (h : Binary.ofFloat x = .finite negative m e) (places : Nat) :
    fixed places x = signText x ++ placed places (units places m e) := by
  rw [fixed, h, signText]
  cases negative with
  | false =>
    rw [if_pos ((unsigned_iff h).2 rfl)]
    rfl
  | true =>
    rw [if_neg (mt (unsigned_iff h).1 (by decide))]
    rfl

/-- **A finite double with trimmed places is a numeral**, behind a minus if it has the sign bit. -/
theorem trimPlaces_fixed {x : Float} (hx : isFinite x = true) (places : Nat) :
    ∃ t, Numeral places t ∧ (trimPlaces (fixed places x) = t ∨
      ¬ Unsigned x ∧ trimPlaces (fixed places x) = '-' :: t) := by
  obtain ⟨negative, m, e, hbinary⟩ := exists_finite hx
  obtain ⟨t, ht, htrim⟩ := exists_numeral places (units places m e)
  refine ⟨t, ht, ?_⟩
  rw [fixed_eq hbinary, htrim, signText]
  by_cases hsign : Unsigned x
  · rw [if_pos hsign]
    exact .inl rfl
  · rw [if_neg hsign]
    exact .inr ⟨hsign, rfl⟩

/-- An unsigned double is written without a minus, also if it is not finite. -/
theorem Unsigned.head_ne_minus {x : Float} (hx : Unsigned x) (places : Nat) :
    (trimPlaces (fixed places x)).head? ≠ some '-' := by
  rcases hx.ofFloat with hbinary | hbinary | ⟨m, e, hbinary⟩
  · simp only [fixed, hbinary]
    decide
  · simp only [fixed, hbinary]
    decide
  · have hfinite : isFinite x = true := by simp [isFinite, hbinary]
    obtain ⟨t, ht, htrim | ⟨hsign, -⟩⟩ := trimPlaces_fixed hfinite places
    · exact htrim ▸ ht.head_ne_minus
    · exact absurd hx hsign

end Galley.Decimal
