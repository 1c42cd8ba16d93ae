import Galley.Decimal.Nearest
import Mathlib

/-!
# Finite doubles

A double is finite if its exponent field is not full (`isFinite_iff`). A change of sign leaves the
field as it is, whole numbers below the range of doubles do not fill it, and of two finite doubles
one is the lesser.
-/

namespace Galley.Decimal

open Float.Model (Format UnpackedFloat)
open Float.Model.UnpackedFloat

/-! ## The exponent field -/

/-- The exponent field of the bits of a double. -/
def exponentField (bits : Nat) : Nat := bits / leadingBit % 2048

theorem isFinite_iff {x : Float} : isFinite x = true ↔ exponentField x.toBits.toNat ≠ 2047 := by
  unfold isFinite Binary.ofFloat Binary.ofBits exponentField
  by_cases hfull : x.toBits.toNat / leadingBit % 2048 = 2047
  · by_cases hzero : x.toBits.toNat % leadingBit = 0 <;> simp [hfull, hzero]
  · by_cases hzero : x.toBits.toNat / leadingBit % 2048 = 0 <;> simp [hfull, hzero]

/-- A finite double is a mantissa and an exponent, with a sign. -/
theorem exists_finite {x : Float} (hx : isFinite x = true) :
    ∃ negative m e, Binary.ofFloat x = .finite negative m e := by
  unfold isFinite at hx
  split at hx
  · rename_i negative m e hbinary
    exact ⟨negative, m, e, hbinary⟩
  · cases hx

/-- The field as it is unpacked. -/
theorem exponentField_eq (bits : UInt64) :
    exponentField bits.toNat = (@unpackExponent .binary64 bits.toBitVec).toNat := by
  rw [unpackExponent_def, BitVec.extractLsb'_toNat, Nat.shiftRight_eq_div_pow]
  rfl

/-- The bits of a double are the given ones, with all undefined ones made one. -/
theorem toBits_ofBits (b : UInt64) : (Float.ofBits b).toBits.toBitVec =
    if @isNaNBits .binary64 b.toBitVec then packedNaN .binary64 else b.toBitVec :=
  @pack_unpack .binary64 b.toBitVec (by decide)

theorem toBits_injective {x y : Float} (h : x.toBits = y.toBits) : x = y := by
  obtain ⟨⟨bits, valid⟩⟩ := x
  obtain ⟨⟨bits', valid'⟩⟩ := y
  cases h
  rfl

/-- The given bits have the same field. -/
theorem exponentField_toBits_ofBits (b : UInt64) :
    exponentField (Float.ofBits b).toBits.toNat = exponentField b.toNat := by
  rw [exponentField_eq, exponentField_eq, toBits_ofBits]
  by_cases hnan : @isNaNBits .binary64 b.toBitVec = true
  · have hfull : @unpackExponent .binary64 b.toBitVec = -1#_ := by
      simp only [isNaNBits, decide_eq_true_eq] at hnan
      exact hnan.1
    rw [if_pos hnan, hfull, packedNaN, unpackExponent_packComponents]
  · rw [if_neg hnan]

/-- A double is finite if its bits stay below those of infinity, with any sign. -/
theorem isFinite_withSign {bits : Nat} (negative : Bool) (h : bits < infinityBits) :
    isFinite (withSign negative bits) = true := by
  rw [isFinite_iff, withSign, exponentField_toBits_ofBits, UInt64.toNat_ofNat']
  simp only [exponentField, leadingBit, signBit, infinityBits] at h ⊢
  cases negative <;> simp only [if_true, if_false, Bool.false_eq_true] <;> omega

/-! ## Signs -/

/-- A change of sign leaves the field as it is. -/
theorem exponentField_neg (x : Float) :
    exponentField (-x).toBits.toNat = exponentField x.toBits.toNat := by
  have hneg : ∀ u : UnpackedFloat, unpackExponent (u.neg.pack .binary64) =
      unpackExponent (u.pack .binary64) := by
    intro u
    cases u with
    | notANumber => rfl
    | infinity s => simp only [neg, pack, packedInfinity, unpackExponent_packComponents]
    | zero s => simp only [neg, pack, packedZero, unpackExponent_packComponents]
    | finite s m e hm =>
      simp only [neg, pack, packedInfinity]
      split
      · simp only [unpackExponent_packComponents]
      · split <;> simp only [unpackExponent_packComponents]
  have hself : x.toModel.unpack.pack .binary64 = x.toBits.toBitVec :=
    pack_unpack_of_valid x.toModel.valid
  have hbits : (-x).toBits.toBitVec = x.toModel.unpack.neg.pack .binary64 := rfl
  rw [exponentField_eq, exponentField_eq, hbits, hneg, hself]

theorem isFinite_neg {x : Float} (h : isFinite x = true) : isFinite (-x) = true := by
  rw [isFinite_iff] at h ⊢
  rwa [exponentField_neg]

/-! ## Order -/

theorem unpack_ne_notANumber {x : Float} (h : isFinite x = true) :
    x.toModel.unpack ≠ .notANumber := by
  intro hnan
  have hfull : @unpackExponent .binary64 x.toBits.toBitVec = -1#_ := by
    by_contra hne
    have hunpack : unpack .binary64 x.toBits.toBitVec = .notANumber := hnan
    unfold unpack at hunpack
    simp only [hne, if_false] at hunpack
    split at hunpack
    · split at hunpack <;> cases hunpack
    · cases hunpack
  have hfield := exponentField_eq x.toBits
  rw [hfull] at hfield
  exact isFinite_iff.1 h hfield

/-- Numbers are compared, and the other way round with the opposite outcome. -/
theorem compare_swap {a b : UnpackedFloat} (ha : a ≠ .notANumber) (hb : b ≠ .notANumber) :
    ∃ o, a.compare b = some o ∧ b.compare a = some o.swap := by
  have hmagnitude : ∀ (m₁ m₂ : Nat) (e₁ e₂ : Int),
      (compare e₂ e₁).then (compare m₂ m₁) = ((compare e₁ e₂).then (compare m₁ m₂)).swap := by
    intro m₁ m₂ e₁ e₂
    rw [Ordering.swap_then, ← Std.OrientedCmp.eq_swap, ← Std.OrientedCmp.eq_swap]
  cases a with
  | notANumber => exact absurd rfl ha
  | infinity s =>
    cases b with
    | notANumber => exact absurd rfl hb
    | infinity t => cases s <;> cases t <;> exact ⟨_, rfl, rfl⟩
    | zero t => cases s <;> exact ⟨_, rfl, rfl⟩
    | finite t n f hn => cases s <;> exact ⟨_, rfl, rfl⟩
  | zero s =>
    cases b with
    | notANumber => exact absurd rfl hb
    | infinity t => cases t <;> exact ⟨_, rfl, rfl⟩
    | zero t => exact ⟨_, rfl, rfl⟩
    | finite t n f hn => cases t <;> exact ⟨_, rfl, rfl⟩
  | finite s m e hm =>
    cases b with
    | notANumber => exact absurd rfl hb
    | infinity t => cases s <;> cases t <;> exact ⟨_, rfl, rfl⟩
    | zero t => cases s <;> exact ⟨_, rfl, rfl⟩
    | finite t n f hn =>
      have hsame := hmagnitude m n e f
      cases s <;> cases t
      · exact ⟨_, rfl, congrArg (fun o : Ordering => some o.swap) hsame⟩
      · exact ⟨_, rfl, rfl⟩
      · exact ⟨_, rfl, rfl⟩
      · exact ⟨_, rfl, congrArg some hsame⟩

/-- **Of two finite doubles one is the lesser.** -/
theorem le_or_le {x y : Float} (hx : isFinite x = true) (hy : isFinite y = true) :
    x ≤ y ∨ y ≤ x := by
  obtain ⟨o, hxy, hyx⟩ := compare_swap (unpack_ne_notANumber hx) (unpack_ne_notANumber hy)
  have hle : ∀ {a b : Float} {o : Ordering}, a.toModel.unpack.compare b.toModel.unpack = some o →
      o.isLE = true → a ≤ b := by
    intro a b o h ho
    have hany : (a.toModel.unpack.compare b.toModel.unpack).any (·.isLE) = true := by
      rw [h]
      exact ho
    exact decide_eq_true (show a.toModel ≤ b.toModel from hany)
  cases o with
  | lt => exact .inl (hle hxy rfl)
  | eq => exact .inl (hle hxy rfl)
  | gt => exact .inr (hle hyx rfl)

/-! ## Whole numbers -/

theorem roundQuotient_le (num den : Nat) : roundQuotient num den ≤ num / den + 1 := by
  unfold roundQuotient
  dsimp only
  split_ifs <;> omega

theorem binade_of_nat {n : Nat} (hn : n ≠ 0) : binade n 1 = Nat.log2 n := by
  have hlow : 2 ^ Nat.log2 n ≤ n := Nat.log2_self_le hn
  have hone : Nat.log2 1 = 0 := rfl
  simp [binade, hone]
  omega

/-- Scaled by its binade, a whole number has at most 53 bits before the point. -/
theorem scaled_lt {n k : Nat} (hn : n < 2 ^ (k + 1)) :
    n * 2 ^ (52 - k) / 2 ^ (k - 52) < 2 ^ 53 := by
  rw [Nat.div_lt_iff_lt_mul (by positivity)]
  have hpower : 2 ^ (k + 1) * 2 ^ (52 - k) = 2 ^ 53 * 2 ^ (k - 52) := by
    rw [← pow_add, ← pow_add]
    congr 1
    omega
  rw [← hpower]
  exact Nat.mul_lt_mul_of_pos_right hn (by positivity)

/-- A whole number of 64 bits is below the range of doubles. -/
theorem nearestBits_lt {n : Nat} (hn : n < 2 ^ 64) : nearestBits n 1 < infinityBits := by
  by_cases hzero : n = 0
  · subst hzero
    decide
  have hlog : Nat.log2 n < 64 := (Nat.log2_lt hzero).2 hn
  have hunit : max (binade n 1 - 52) (-1074) = (Nat.log2 n : Int) - 52 := by
    rw [binade_of_nat hzero]
    omega
  have hscaled : n * 2 ^ (52 - Nat.log2 n) / (1 * 2 ^ (Nat.log2 n - 52)) < 2 ^ 53 := by
    rw [one_mul]
    exact scaled_lt Nat.lt_log2_self
  have hup : (-((Nat.log2 n : Int) - 52)).toNat = 52 - Nat.log2 n := by omega
  have hdown : ((Nat.log2 n : Int) - 52).toNat = Nat.log2 n - 52 := by omega
  have hmantissa := roundQuotient_le (n * 2 ^ (52 - Nat.log2 n)) (1 * 2 ^ (Nat.log2 n - 52))
  unfold nearestBits
  simp only [beq_iff_eq, hzero, if_false, hunit, Nat.pow_eq, hup, hdown]
  generalize roundQuotient (n * 2 ^ (52 - Nat.log2 n)) (1 * 2 ^ (Nat.log2 n - 52)) = m at hmantissa
  have hm : m ≤ 2 ^ 53 := by omega
  by_cases hsmall : m < leadingBit
  · rw [if_pos hsmall]
    simp only [leadingBit, infinityBits] at hsmall ⊢
    omega
  · rw [if_neg hsmall]
    simp only [leadingBit, infinityBits] at hsmall ⊢
    omega

theorem isFinite_ofNat {n : Nat} (hn : n < 2 ^ 64) : isFinite (ofNat n) = true :=
  isFinite_withSign false (nearestBits_lt hn)

theorem isFinite_ofInt {n : Int} (hn : n.natAbs < 2 ^ 64) : isFinite (ofInt n) = true :=
  isFinite_withSign _ (nearestBits_lt hn)

end Galley.Decimal
