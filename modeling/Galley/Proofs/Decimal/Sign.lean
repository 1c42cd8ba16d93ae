import Galley.Decimal.Reading
import Galley.Proofs.Decimal.Finite

/-!
# Signs of doubles

A double without its sign bit is not below zero (`Unsigned.not_lt_zero`), and what is read from a
numeral without a minus has no sign bit (`unsigned_of_read?`). The two zeros apart, doubles that
compare equal are the same (`eq_or_zeros_of_beq`).
-/

namespace Galley.Decimal

open Float.Model (Format UnpackedFloat)
open Float.Model.UnpackedFloat

/-- The bit of the sign is not set. -/
def Unsigned (x : Float) : Prop := x.toBits.toNat < signBit

instance (x : Float) : Decidable (Unsigned x) := inferInstanceAs (Decidable (_ < _))

/-! ## Packed and unpacked doubles -/

theorem eq_of_unpack_eq {x y : Float} (h : x.toModel.unpack = y.toModel.unpack) : x = y := by
  have hself : ∀ z : Float, z.toModel.unpack.pack .binary64 = z.toBits.toBitVec := fun z =>
    pack_unpack_of_valid z.toModel.valid
  apply toBits_injective
  rw [← UInt64.toBitVec_inj]
  exact (hself x).symm.trans (h ▸ hself y)

theorem unpackSign_eq_zero {x : Float} (h : Unsigned x) :
    @unpackSign .binary64 x.toBits.toBitVec = 0#1 := by
  apply BitVec.eq_of_toNat_eq
  rw [unpackSign_def, BitVec.extractLsb'_toNat, Nat.shiftRight_eq_div_pow]
  have hzero : x.toBits.toBitVec.toNat / 2 ^ 63 = 0 := Nat.div_eq_of_lt h
  show x.toBits.toBitVec.toNat / 2 ^ 63 % 2 ^ 1 = 0
  rw [hzero]

/-- **An unsigned double is not below zero.** -/
theorem Unsigned.not_lt_zero {x : Float} (h : Unsigned x) : ¬ x < 0.0 := by
  have hsign : Sign.ofBitVec (@unpackSign .binary64 x.toBits.toBitVec) = .positive := by
    rw [unpackSign_eq_zero h]
    rfl
  have hcompare : x.toModel.unpack.compare (.zero .positive) ≠ some .lt := by
    have hunpack : x.toModel.unpack = unpack .binary64 x.toBits.toBitVec := rfl
    rw [hunpack]
    unfold unpack
    simp only [hsign]
    split_ifs <;> simp [UnpackedFloat.compare]
  intro hlt
  have hless : x.toModel < (0.0 : Float).toModel := of_decide_eq_true hlt
  have hless : (x.toModel.unpack.compare (.zero .positive) == some .lt) = true := hless
  exact hcompare (by simpa using hless)

theorem eq_or_zeros_of_compare {a b : UnpackedFloat} (h : a.compare b = some .eq) :
    a = b ∨ ∃ s t, a = .zero s ∧ b = .zero t := by
  cases a with
  | notANumber => simp [UnpackedFloat.compare] at h
  | infinity s =>
    cases b with
    | infinity t =>
      cases s <;> cases t
      · exact .inl rfl
      · cases h
      · cases h
      · exact .inl rfl
    | _ => cases s <;> simp [UnpackedFloat.compare] at h
  | zero s =>
    cases b with
    | zero t => exact .inr ⟨s, t, rfl, rfl⟩
    | notANumber => simp [UnpackedFloat.compare] at h
    | infinity t => cases t <;> simp [UnpackedFloat.compare] at h
    | finite t n f hn => cases t <;> simp [UnpackedFloat.compare] at h
  | finite s m e hm =>
    cases b with
    | notANumber => simp [UnpackedFloat.compare] at h
    | infinity t => cases s <;> cases t <;> simp [UnpackedFloat.compare] at h
    | zero t => cases s <;> simp [UnpackedFloat.compare] at h
    | finite t n f hn =>
      cases s <;> cases t <;> simp [UnpackedFloat.compare] at h
      all_goals
        obtain ⟨rfl, rfl⟩ := h
        exact .inl rfl

/-- A double that compares equal to another one is the same, or both are zeros. -/
theorem eq_or_zeros_of_beq {x y : Float} (h : (x == y) = true) :
    x = y ∨ (x = 0.0 ∨ x = -0.0) ∧ (y = 0.0 ∨ y = -0.0) := by
  have hcompare : (x.toModel.unpack.compare y.toModel.unpack == some .eq) = true := h
  have hzero : ∀ {z : Float} {s : Sign}, z.toModel.unpack = .zero s → z = 0.0 ∨ z = -0.0 := by
    intro z s hz
    cases s with
    | positive => exact .inl (eq_of_unpack_eq hz)
    | negative => exact .inr (eq_of_unpack_eq hz)
  rcases eq_or_zeros_of_compare (by simpa using hcompare) with hsame | ⟨s, t, hx, hy⟩
  · exact .inl (eq_of_unpack_eq hsame)
  · exact .inr ⟨hzero hx, hzero hy⟩

/-! ## Numbers that are read -/

/-- What is put together from bits without a sign is unsigned, also if it is undefined. -/
theorem unsigned_withSign {bits : Nat} (h : bits < signBit) : Unsigned (withSign false bits) := by
  have hbits : (withSign false bits).toBits.toNat =
      (if @isNaNBits .binary64 (UInt64.ofNat (0 + bits)).toBitVec then packedNaN .binary64
        else (UInt64.ofNat (0 + bits)).toBitVec).toNat :=
    congrArg BitVec.toNat (toBits_ofBits _)
  rw [Unsigned, hbits]
  split
  · decide
  · have hword : bits < 2 ^ 64 := Nat.lt_trans h (by decide)
    show (UInt64.ofNat (0 + bits)).toNat < signBit
    rwa [Nat.zero_add, UInt64.toNat_ofNat', Nat.mod_eq_of_lt hword]

theorem nearestBits_le (num den : Nat) : nearestBits num den ≤ infinityBits := by
  unfold nearestBits
  split
  · exact Nat.zero_le _
  · exact Nat.min_le_right _ _

theorem nearestDecimal_le (digits : Nat) (exponent : Int) :
    nearestDecimal digits exponent ≤ infinityBits := by
  unfold nearestDecimal
  split_ifs
  · exact Nat.zero_le _
  · exact Nat.le_refl _
  · exact Nat.zero_le _
  · exact nearestBits_le _ _

/-- **A numeral without a minus is unsigned.** -/
theorem unsigned_of_read? {s : List Char} {x : Float} (h : read? s = some x)
    (hminus : s.head? ≠ some '-') : Unsigned x := by
  have hsign : (takeSign s).1 = false := by
    unfold takeSign
    split
    · rfl
    · exact absurd rfl hminus
    · rfl
  have h : (((named? (takeSign s).2).or (magnitude? (takeSign s).2)).map
      (withSign (takeSign s).1)) = some x := h
  obtain ⟨bits, hbits, rfl⟩ := Option.map_eq_some_iff.1 h
  rw [hsign]
  refine unsigned_withSign ?_
  rcases Option.or_eq_some_iff.1 hbits with hnamed | ⟨-, hmagnitude⟩
  · unfold named? at hnamed
    dsimp only at hnamed
    split_ifs at hnamed <;> cases hnamed <;> decide
  · obtain ⟨-, h⟩ := Option.ite_none_left_eq_some.1 hmagnitude
    obtain ⟨e, -, rfl⟩ := Option.map_eq_some_iff.1 h
    exact Nat.lt_of_le_of_lt (nearestDecimal_le _ _) (by decide)

end Galley.Decimal

