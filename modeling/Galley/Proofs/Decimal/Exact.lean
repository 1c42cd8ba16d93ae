import Galley.Decimal.Shortest
import Galley.Proofs.Decimal.Finite

/-!
# What is read depends on the value

The double nearest to a fraction is computed from a numerator and a denominator, and the double
nearest to a decimal from digits and an exponent. Both depend on the number alone
(`nearestBits_congr`, `nearestDecimal_congr`): the bounds past which a decimal is not looked at any
closer agree with what a closer look gives (`nearestDecimal_eq`).

**Theorem (`nearestBits_exact`).** The double nearest to the value of a finite double is itself.

A positive number has one binade, which determines the unit of its last place; the mantissa is the
number of units, rounded (`nearestBits_eq`).
-/

namespace Galley.Decimal

open Float.Model.UnpackedFloat

section Fractions

variable {num den num' den' : Nat}

/-! ## Rounded quotients -/

theorem mul_eq_mul_of_div_eq (hden : 0 < den) (hden' : 0 < den')
    (h : (num / den : ℚ) = num' / den') : num * den' = num' * den := by
  have hne : (den : ℚ) ≠ 0 := by exact_mod_cast hden.ne'
  have hne' : (den' : ℚ) ≠ 0 := by exact_mod_cast hden'.ne'
  exact_mod_cast (div_eq_div_iff hne hne').1 h

theorem roundQuotient_mul (num den : Nat) {k : Nat} (hk : 0 < k) :
    roundQuotient (num * k) (den * k) = roundQuotient num den := by
  have hdouble : 2 * (num % den * k) = 2 * (num % den) * k := (Nat.mul_assoc 2 _ k).symm
  simp only [roundQuotient, Nat.mul_div_mul_right _ _ hk, Nat.mul_mod_mul_right, hdouble,
    Nat.mul_lt_mul_right hk]

theorem roundQuotient_congr (hden : 0 < den) (hden' : 0 < den')
    (h : (num / den : ℚ) = num' / den') : roundQuotient num den = roundQuotient num' den' := by
  rw [← roundQuotient_mul num den hden', ← roundQuotient_mul num' den' hden,
    mul_eq_mul_of_div_eq hden hden' h, Nat.mul_comm den]

theorem roundQuotient_of_eq (hden : 0 < den) {n : Nat} (h : (num / den : ℚ) = n) :
    roundQuotient num den = n := by
  have hone : (num / den : ℚ) = n / (1 : ℕ) := by simpa using h
  rw [roundQuotient_congr hden one_pos hone]
  simp [roundQuotient, Nat.mod_one]

theorem le_roundQuotient (hden : 0 < den) {n : Nat} (h : (n : ℚ) ≤ num / den) :
    n ≤ roundQuotient num den := by
  have hden' : (0 : ℚ) < den := by exact_mod_cast hden
  rw [le_div_iff₀ hden'] at h
  have hquotient : n ≤ num / den := (Nat.le_div_iff_mul_le hden).2 (by exact_mod_cast h)
  unfold roundQuotient
  dsimp only
  split_ifs <;> omega

theorem roundQuotient_of_lt_half (hden : 0 < den) (h : (num / den : ℚ) < 1 / 2) :
    roundQuotient num den = 0 := by
  have hden' : (0 : ℚ) < den := by exact_mod_cast hden
  rw [div_lt_div_iff₀ hden' two_pos, one_mul] at h
  have hhalf : num * 2 < den := by exact_mod_cast h
  have hbelow : num < den := by omega
  have hlost : 2 * num < den := by omega
  rw [roundQuotient, Nat.mod_eq_of_lt hbelow, if_pos hlost, Nat.div_eq_of_lt hbelow]

/-! ## Binades -/

theorem zpow_eq_div (b : ℚ) (e : ℤ) : b ^ e = b ^ e.toNat / b ^ (-e).toNat := by
  rcases le_total 0 e with h | h
  · obtain ⟨n, rfl⟩ := Int.eq_ofNat_of_zero_le h
    simp
  · obtain ⟨n, hn⟩ := Int.eq_ofNat_of_zero_le (Int.neg_nonneg_of_nonpos h)
    obtain rfl : e = -n := by omega
    simp

/-- The exponent of the leading binary digit of a number. -/
def IsBinade (q : ℚ) (e : ℤ) : Prop := 2 ^ e ≤ q ∧ q < 2 ^ (e + 1)

theorem IsBinade.lt_of_lt {q : ℚ} {e f : ℤ} (h : IsBinade q e) (hf : q < 2 ^ f) : e < f :=
  (zpow_lt_zpow_iff_right₀ one_lt_two).1 (h.1.trans_lt hf)

theorem IsBinade.unique {q : ℚ} {e f : ℤ} (he : IsBinade q e) (hf : IsBinade q f) : e = f := by
  have hle := he.lt_of_lt hf.2
  have hge := hf.lt_of_lt he.2
  omega

/-- A natural number has the binade of its logarithm. -/
theorem isBinade_log2 {n : Nat} (hn : n ≠ 0) : IsBinade n (Nat.log2 n) := by
  constructor
  · exact_mod_cast Nat.log2_self_le hn
  · exact_mod_cast (Nat.lt_log2_self : n < 2 ^ (Nat.log2 n + 1))

/-- A product with a power of two is that much higher. -/
theorem IsBinade.mul_zpow {q : ℚ} {e : ℤ} (h : IsBinade q e) (f : ℤ) :
    IsBinade (q * 2 ^ f) (e + f) := by
  have hpos : (0 : ℚ) < 2 ^ f := by positivity
  obtain ⟨hlow, hhigh⟩ := h
  constructor
  · rw [zpow_add₀ two_ne_zero]
    gcongr
  · rw [add_right_comm, zpow_add₀ two_ne_zero]
    gcongr

/-- A fraction is compared with a power of two in whole numbers. -/
theorem lt_zpow_iff (hden : 0 < den) (e : ℤ) :
    num * 2 ^ (-e).toNat < den * 2 ^ e.toNat ↔ (num / den : ℚ) < 2 ^ e := by
  have hden' : (0 : ℚ) < den := by exact_mod_cast hden
  rw [zpow_eq_div, div_lt_div_iff₀ hden' (by positivity), mul_comm (2 ^ e.toNat : ℚ)]
  exact_mod_cast Iff.rfl

/-- **The binade of a fraction** is found from two logarithms and one comparison. -/
theorem binade_isBinade (hnum : num ≠ 0) (hden : 0 < den) :
    IsBinade (num / den : ℚ) (binade num den) := by
  have hden' : (0 : ℚ) < den := by exact_mod_cast hden
  obtain ⟨hnumLow, hnumHigh⟩ := isBinade_log2 hnum
  obtain ⟨hdenLow, hdenHigh⟩ := isBinade_log2 hden.ne'
  set e : ℤ := (Nat.log2 num : ℤ) - Nat.log2 den with he
  have hlow : (2 : ℚ) ^ (e - 1) ≤ num / den := by
    rw [le_div_iff₀ hden']
    calc (2 : ℚ) ^ (e - 1) * den ≤ 2 ^ (e - 1) * 2 ^ (Nat.log2 den + 1 : ℤ) := by gcongr
      _ = 2 ^ (Nat.log2 num : ℤ) := by
        rw [← zpow_add₀ two_ne_zero]
        congr 1
        omega
      _ ≤ num := hnumLow
  have hhigh : (num / den : ℚ) < 2 ^ (e + 1) := by
    rw [div_lt_iff₀ hden']
    calc (num : ℚ) < 2 ^ (Nat.log2 num + 1 : ℤ) := hnumHigh
      _ = 2 ^ (e + 1) * 2 ^ (Nat.log2 den : ℤ) := by
        rw [← zpow_add₀ two_ne_zero]
        congr 1
        omega
      _ ≤ 2 ^ (e + 1) * den := by gcongr
  have hcompare : num * 2 ^ (-e).toNat < den * 2 ^ e.toNat ↔ (num / den : ℚ) < 2 ^ e :=
    lt_zpow_iff hden e
  have hbinade : binade num den =
      if num * 2 ^ (-e).toNat < den * 2 ^ e.toNat then e - 1 else e := rfl
  rw [hbinade]
  by_cases hless : num * 2 ^ (-e).toNat < den * 2 ^ e.toNat
  · rw [if_pos hless]
    exact ⟨hlow, by simpa using hcompare.1 hless⟩
  · rw [if_neg hless]
    exact ⟨not_lt.1 (mt hcompare.2 hless), hhigh⟩

theorem binade_congr (hnum : num ≠ 0) (hden : 0 < den) {e : ℤ} (h : IsBinade (num / den : ℚ) e) :
    binade num den = e :=
  (binade_isBinade hnum hden).unique h

/-! ## Mantissas -/

/-- The number of units in a fraction, rounded. The unit is a power of two. -/
def mantissaAt (num den : Nat) (unit : ℤ) : Nat :=
  roundQuotient (num * 2 ^ (-unit).toNat) (den * 2 ^ unit.toNat)

/-- The bits, without the sign, of a double with a mantissa and an exponent. -/
def exactBits (mantissa : Nat) (exponent : ℤ) : Nat :=
  if mantissa < leadingBit then mantissa
  else (exponent + 1075).toNat * leadingBit + (mantissa - leadingBit)

/-- **The nearest double** has the mantissa that its binade tells, unless that is out of range. -/
theorem nearestBits_eq (hnum : num ≠ 0) {unit : ℤ}
    (hunit : max (binade num den - 52) (-1074) = unit) :
    nearestBits num den = min (exactBits (mantissaAt num den unit) unit) infinityBits := by
  simp only [nearestBits, beq_iff_eq, hnum, if_false, hunit]
  rfl

theorem scaled_div (hden : 0 < den) (unit : ℤ) :
    ((num * 2 ^ (-unit).toNat : Nat) / (den * 2 ^ unit.toNat : Nat) : ℚ) = num / den / 2 ^ unit := by
  have hne : (den : ℚ) ≠ 0 := by exact_mod_cast hden.ne'
  rw [zpow_eq_div]
  push_cast
  field_simp

theorem scaled_pos (hden : 0 < den) (unit : ℤ) : 0 < den * 2 ^ unit.toNat :=
  Nat.mul_pos hden (by positivity)

theorem mantissaAt_congr (hden : 0 < den) (hden' : 0 < den') (h : (num / den : ℚ) = num' / den')
    (unit : ℤ) : mantissaAt num den unit = mantissaAt num' den' unit := by
  apply roundQuotient_congr (scaled_pos hden unit) (scaled_pos hden' unit)
  rw [scaled_div hden, scaled_div hden', h]

theorem mantissaAt_of_eq (hden : 0 < den) {m : Nat} {unit : ℤ}
    (h : (num / den : ℚ) = m * 2 ^ unit) : mantissaAt num den unit = m := by
  apply roundQuotient_of_eq (scaled_pos hden unit)
  rw [scaled_div hden, h, mul_div_cancel_right₀ _ (by positivity)]

theorem le_mantissaAt (hden : 0 < den) {m : Nat} {unit : ℤ}
    (h : (m * 2 ^ unit : ℚ) ≤ num / den) : m ≤ mantissaAt num den unit := by
  apply le_roundQuotient (scaled_pos hden unit)
  rwa [scaled_div hden, le_div_iff₀ (by positivity)]

theorem mantissaAt_of_lt_half (hden : 0 < den) {unit : ℤ}
    (h : (num / den : ℚ) < 2 ^ (unit - 1)) : mantissaAt num den unit = 0 := by
  apply roundQuotient_of_lt_half (scaled_pos hden unit)
  rw [zpow_sub_one₀ two_ne_zero] at h
  rw [scaled_div hden, div_lt_iff₀ (by positivity), div_mul_eq_mul_div, one_mul, div_eq_mul_inv]
  exact h

/-! ## The nearest double -/

/-- **Equal fractions have one nearest double.** -/
theorem nearestBits_congr (hden : 0 < den) (hden' : 0 < den')
    (h : (num / den : ℚ) = num' / den') : nearestBits num den = nearestBits num' den' := by
  have hcross := mul_eq_mul_of_div_eq hden hden' h
  by_cases hzero : num = 0
  · have hzero' : num' = 0 := by
      rw [hzero, Nat.zero_mul, eq_comm] at hcross
      exact (Nat.mul_eq_zero.1 hcross).resolve_right hden.ne'
    simp [nearestBits, hzero, hzero']
  · have hzero' : num' ≠ 0 := by
      intro hzero'
      rw [hzero', Nat.zero_mul] at hcross
      exact (Nat.mul_eq_zero.1 hcross).elim hzero hden'.ne'
    have hbinade : binade num den = binade num' den' :=
      binade_congr hzero hden (h ▸ binade_isBinade hzero' hden')
    rw [nearestBits_eq hzero rfl, nearestBits_eq hzero' rfl, hbinade,
      mantissaAt_congr hden hden' h]

/-- From the first power of two that is too large on, the nearest double is infinite. -/
theorem nearestBits_of_large (hden : 0 < den) (h : (2 : ℚ) ^ (1024 : ℤ) ≤ num / den) :
    nearestBits num den = infinityBits := by
  have hnum : num ≠ 0 := by
    intro hzero
    rw [hzero, Nat.cast_zero, zero_div] at h
    exact absurd h (not_le.2 (by positivity))
  have hbinade := binade_isBinade hnum hden
  have hlarge : 1024 < binade num den + 1 :=
    (zpow_lt_zpow_iff_right₀ one_lt_two).1 (h.trans_lt hbinade.2)
  have hmantissa : leadingBit ≤ mantissaAt num den (binade num den - 52) := by
    apply le_mantissaAt hden
    have hbit : (leadingBit : ℚ) = 2 ^ (52 : ℤ) := by norm_num [leadingBit]
    rw [hbit, ← zpow_add₀ two_ne_zero, add_sub_cancel]
    exact hbinade.1
  rw [nearestBits_eq hnum (by omega : _ = binade num den - 52), exactBits,
    if_neg (not_lt.2 hmantissa)]
  apply Nat.min_eq_right
  have hfield : 2047 ≤ (binade num den - 52 + 1075).toNat := by omega
  calc infinityBits = 2047 * leadingBit := rfl
    _ ≤ (binade num den - 52 + 1075).toNat * leadingBit := Nat.mul_le_mul_right _ hfield
    _ ≤ _ := Nat.le_add_right _ _

/-- Below half of the least positive double, the nearest one is zero. -/
theorem nearestBits_of_small (hden : 0 < den) (h : (num / den : ℚ) < 2 ^ (-1074 - 1 : ℤ)) :
    nearestBits num den = 0 := by
  by_cases hnum : num = 0
  · simp [nearestBits, hnum]
  · have hsmall := (binade_isBinade hnum hden).lt_of_lt h
    rw [nearestBits_eq hnum (by omega : _ = -1074), mantissaAt_of_lt_half hden h]
    rfl

end Fractions

/-! ## Finite doubles -/

/-- A mantissa and an exponent as a finite double has them: all 53 bits are used, unless the
exponent is the least one. -/
structure Canonical (mantissa : Nat) (exponent : ℤ) : Prop where
  mantissa_lt : mantissa < 2 * leadingBit
  le_exponent : -1074 ≤ exponent
  exponent_le : exponent ≤ 971
  eq_of_lt : mantissa < leadingBit → exponent = -1074

section Exact

variable {m : Nat} {e : ℤ}

theorem denominator_pos (e : ℤ) : 0 < denominator e := Nat.pow_pos two_pos

theorem numerator_div_denominator (m : Nat) (e : ℤ) :
    (numerator m e / denominator e : ℚ) = m * 2 ^ e := by
  rw [zpow_eq_div, numerator, denominator]
  push_cast [Nat.pow_eq]
  rw [mul_div_assoc]

theorem Canonical.unit_eq (h : Canonical m e) (hm : m ≠ 0) :
    max ((Nat.log2 m : ℤ) + e - 52) (-1074) = e := by
  have hle := h.le_exponent
  by_cases hsmall : m < leadingBit
  · have hlog : Nat.log2 m < 52 := (Nat.log2_lt hm).2 hsmall
    have heq := h.eq_of_lt hsmall
    omega
  · have hlow : 52 ≤ Nat.log2 m := (Nat.le_log2 hm).2 (not_lt.1 hsmall)
    have hhigh : Nat.log2 m < 53 := (Nat.log2_lt hm).2 h.mantissa_lt
    omega

theorem Canonical.exactBits_lt (h : Canonical m e) : exactBits m e < infinityBits := by
  have hm := h.mantissa_lt
  have hle := h.exponent_le
  by_cases hsmall : m < leadingBit
  · rw [exactBits, if_pos hsmall]
    simp only [leadingBit, infinityBits] at hsmall ⊢
    omega
  · rw [exactBits, if_neg hsmall]
    simp only [leadingBit, infinityBits] at hm ⊢
    omega

theorem Canonical.exactBits_ne_zero (h : Canonical m e) (hm : m ≠ 0) : exactBits m e ≠ 0 := by
  have hle := h.le_exponent
  unfold exactBits
  split_ifs
  · exact hm
  · simp only [leadingBit]
    omega

/-- **A finite double is the nearest one to its value.** -/
theorem nearestBits_exact (h : Canonical m e) :
    nearestBits (numerator m e) (denominator e) = exactBits m e := by
  by_cases hm : m = 0
  · simp [nearestBits, numerator, exactBits, hm, leadingBit]
  · have hvalue := numerator_div_denominator m e
    have hnum : numerator m e ≠ 0 := Nat.mul_ne_zero hm (Nat.pow_pos two_pos).ne'
    have hbinade : binade (numerator m e) (denominator e) = Nat.log2 m + e :=
      binade_congr hnum (denominator_pos e) (hvalue ▸ (isBinade_log2 hm).mul_zpow e)
    rw [nearestBits_eq hnum (hbinade ▸ h.unit_eq hm), mantissaAt_of_eq (denominator_pos e) hvalue,
      Nat.min_eq_left h.exactBits_lt.le]

end Exact

/-! ## Bits of finite doubles -/

/-- A finite double is put together again from its bits. -/
theorem ofBits_toBits {x : Float} (hx : isFinite x = true) : Float.ofBits x.toBits = x := by
  apply toBits_injective
  apply UInt64.eq_of_toBitVec_eq
  rw [toBits_ofBits, if_neg]
  intro hnan
  have hfull : @unpackExponent .binary64 x.toBits.toBitVec = -1#_ := by
    simp only [isNaNBits, decide_eq_true_eq] at hnan
    exact hnan.1
  apply isFinite_iff.1 hx
  rw [exponentField_eq, hfull]
  rfl

/-- What the bits of a finite double stand for has these bits. -/
theorem canonical_of_ofBits {bits : UInt64} {negative : Bool} {m : Nat} {e : ℤ}
    (h : Binary.ofBits bits = .finite negative m e) :
    Canonical m e ∧ (if negative then signBit else 0) + exactBits m e = bits.toNat := by
  have hword : bits.toNat < 2 ^ 64 := bits.toNat_lt
  have hsign : ∀ n : Nat, n < 2 ^ 64 →
      (if n / signBit == 1 then signBit else 0) = n / signBit * signBit := by
    intro n hn
    by_cases hone : n / signBit = 1
    · simp [hone]
    · have hzero : n / signBit = 0 := by
        simp only [signBit] at hone ⊢
        omega
      simp [hzero]
  unfold Binary.ofBits at h
  dsimp only at h
  generalize bits.toNat = n at h hword
  split at h
  · split at h <;> cases h
  rename_i hfull
  rw [beq_iff_eq] at hfull
  split at h
  · rename_i hzero
    rw [beq_iff_eq] at hzero
    cases h
    have hsmall : n % leadingBit < leadingBit := Nat.mod_lt _ (by decide)
    refine ⟨⟨by omega, by omega, by omega, fun _ => rfl⟩, ?_⟩
    rw [hsign n hword, exactBits, if_pos hsmall]
    simp only [leadingBit, signBit] at hzero ⊢
    omega
  · rename_i hzero
    rw [beq_iff_eq] at hzero
    cases h
    have hsmall : n % leadingBit < leadingBit := Nat.mod_lt _ (by decide)
    have hlarge : ¬ leadingBit + n % leadingBit < leadingBit := by omega
    refine ⟨⟨by omega, by omega, by omega, fun hlt => absurd hlt hlarge⟩, ?_⟩
    rw [hsign n hword, exactBits, if_neg hlarge, Nat.add_sub_cancel_left]
    simp only [leadingBit, signBit] at hzero ⊢
    omega

/-- **A finite double is the nearest one to its value**, with its sign. -/
theorem withSign_exactBits {x : Float} {negative : Bool} {m : Nat} {e : ℤ}
    (h : Binary.ofFloat x = .finite negative m e) :
    Canonical m e ∧ withSign negative (exactBits m e) = x := by
  have hx : isFinite x = true := by simp [isFinite, h]
  obtain ⟨hcanonical, hbits⟩ := canonical_of_ofBits h
  refine ⟨hcanonical, ?_⟩
  rw [withSign, hbits, UInt64.ofNat_toNat, ofBits_toBits hx]

/-! ## Decimals -/

section Decimals

variable {d d' : Nat} {e e' : ℤ}

theorem two_zpow_le (n : ℕ) : (2 : ℚ) ^ ((205 * n : ℕ) : ℤ) ≤ 10 ^ ((62 * n : ℕ) : ℤ) := by
  rw [zpow_natCast, zpow_natCast, pow_mul, pow_mul]
  gcongr
  norm_num

theorem decimal_div (d : Nat) (e : ℤ) :
    ((d * 10 ^ e.toNat : Nat) / (10 ^ (-e).toNat : Nat) : ℚ) = d * 10 ^ e := by
  rw [zpow_eq_div]
  push_cast
  rw [mul_div_assoc]

/-- **The bounds of a decimal leave the nearest double as it is.** -/
theorem nearestDecimal_eq (d : Nat) (e : ℤ) :
    nearestDecimal d e = nearestBits (d * 10 ^ e.toNat) (10 ^ (-e).toNat) := by
  have hden : 0 < 10 ^ (-e).toNat := by positivity
  unfold nearestDecimal
  by_cases hzero : d = 0
  · simp [hzero, nearestBits]
  have hpositive : 1 ≤ (d : ℚ) := by exact_mod_cast Nat.pos_of_ne_zero hzero
  rw [if_neg (by simpa using hzero)]
  by_cases hlarge : 310 ≤ e
  · rw [if_pos hlarge, nearestBits_of_large hden]
    rw [decimal_div]
    calc (2 : ℚ) ^ (1024 : ℤ) ≤ 2 ^ ((205 * 5 : ℕ) : ℤ) :=
          zpow_le_zpow_right₀ (by norm_num) (by norm_num)
      _ ≤ 10 ^ ((62 * 5 : ℕ) : ℤ) := two_zpow_le 5
      _ ≤ 10 ^ e := zpow_le_zpow_right₀ (by norm_num) hlarge
      _ ≤ d * 10 ^ e := le_mul_of_one_le_left (by positivity) hpositive
  rw [if_neg hlarge]
  by_cases hsmall : e + (Nat.log2 d / 3 : Nat) < -400
  · rw [if_pos hsmall, nearestBits_of_small hden]
    have hdigits : d < 10 ^ (Nat.log2 d / 3 + 1) := by
      calc d < 2 ^ (Nat.log2 d + 1) := Nat.lt_log2_self
        _ ≤ 2 ^ (3 * (Nat.log2 d / 3 + 1)) := Nat.pow_le_pow_right two_pos (by omega)
        _ = 8 ^ (Nat.log2 d / 3 + 1) := by rw [Nat.pow_mul]
        _ ≤ 10 ^ (Nat.log2 d / 3 + 1) := Nat.pow_le_pow_left (by omega) _
    have hdigits : (d : ℚ) < 10 ^ ((Nat.log2 d / 3 : Nat) + 1 : ℤ) := by exact_mod_cast hdigits
    rw [decimal_div]
    calc (d : ℚ) * 10 ^ e < 10 ^ ((Nat.log2 d / 3 : Nat) + 1 : ℤ) * 10 ^ e := by gcongr
      _ = 10 ^ ((Nat.log2 d / 3 : Nat) + 1 + e : ℤ) := (zpow_add₀ (by norm_num) _ _).symm
      _ ≤ 10 ^ (-((62 * 6 : ℕ) : ℤ)) := zpow_le_zpow_right₀ (by norm_num) (by omega)
      _ ≤ 2 ^ (-((205 * 6 : ℕ) : ℤ)) := by
        rw [zpow_neg, zpow_neg]
        exact inv_anti₀ (by positivity) (two_zpow_le 6)
      _ ≤ 2 ^ (-1074 - 1 : ℤ) := zpow_le_zpow_right₀ (by norm_num) (by norm_num)
  · rw [if_neg hsmall]
    rfl

/-- **Equal decimals have one nearest double.** -/
theorem nearestDecimal_congr (h : (d * 10 ^ e : ℚ) = d' * 10 ^ e') :
    nearestDecimal d e = nearestDecimal d' e' := by
  rw [nearestDecimal_eq, nearestDecimal_eq]
  apply nearestBits_congr (by positivity) (by positivity)
  rw [decimal_div, decimal_div, h]

/-- A decimal that equals a fraction has the same nearest double. -/
theorem nearestDecimal_eq_nearestBits {num den : Nat} (hden : 0 < den)
    (h : (d * 10 ^ e : ℚ) = num / den) : nearestDecimal d e = nearestBits num den := by
  rw [nearestDecimal_eq]
  apply nearestBits_congr (by positivity) hden
  rw [decimal_div, h]

end Decimals

end Galley.Decimal
