import Galley.Bytes.Base64
import Mathlib

/-!
# What Base64 decodes

**Theorem (`decode?_eq_some_iff`).** Decoding accepts the encodings of byte sequences and nothing
else, each as the bytes that it encodes.

The proof goes by groups. Four symbols are four numbers below 64, three bytes are three numbers below
256, and both are the digits of one number. In the last group of one or two bytes, the condition on
the remainder says that the number ends in the zero bits that encoding pads it with.
-/

namespace Galley.Bytes.Base64

/-! ## The alphabet -/

theorem value?_symbol {n : Nat} (h : n < 64) : value? (symbol n) = some n := by
  have hall : ∀ n < 64, value? (symbol n) = some n := by decide
  exact hall n h

theorem lt_of_value? {c : Char} {n : Nat} (h : value? c = some n) : c.toNat < 128 := by
  unfold value? at h
  split_ifs at h with hupper hlower hdigit hplus hslash
  · have hle : c.toNat ≤ 90 := hupper.2
    omega
  · have hle : c.toNat ≤ 122 := hlower.2
    omega
  · have hle : c.toNat ≤ 57 := hdigit.2
    omega
  · rw [hplus]
    decide
  · rw [hslash]
    decide

theorem value?_eq_some_iff {c : Char} {n : Nat} : value? c = some n ↔ n < 64 ∧ c = symbol n := by
  constructor
  · intro h
    have hall : ∀ m < 128, ∀ k ∈ value? (Char.ofNat m), k < 64 ∧ Char.ofNat m = symbol k := by
      decide
    have hc := hall c.toNat (lt_of_value? h) n
    rw [Char.ofNat_toNat] at hc
    exact hc h
  · rintro ⟨h, rfl⟩
    exact value?_symbol h

theorem symbol_ne_padding {n : Nat} (h : n < 64) : symbol n ≠ '=' := by
  have hall : ∀ n < 64, symbol n ≠ '=' := by decide
  exact hall n h

/-! ## Groups -/

theorem decodeFour?_eq_some_iff {a b c d : Char} {bs : Bytes} :
    decodeFour? a b c d = some bs ↔ ∃ x y z, bs = [x, y, z] ∧ [a, b, c, d] = encode [x, y, z] := by
  simp only [decodeFour?, Option.bind_eq_bind, Option.bind_eq_some_iff, value?_eq_some_iff,
    Option.some.injEq]
  constructor
  · rintro ⟨p, ⟨hp, rfl⟩, q, ⟨hq, rfl⟩, r, ⟨hr, rfl⟩, s, ⟨hs, rfl⟩, rfl⟩
    refine ⟨_, _, _, rfl, ?_⟩
    simp only [encode, UInt8.toNat_ofNat', List.cons.injEq, and_true]
    refine ⟨congrArg symbol ?_, congrArg symbol ?_, congrArg symbol ?_, congrArg symbol ?_⟩ <;>
      omega
  · rintro ⟨x, y, z, rfl, h⟩
    have hx := x.toNat_lt
    have hy := y.toNat_lt
    have hz := z.toNat_lt
    simp only [encode, List.cons.injEq, and_true] at h
    obtain ⟨rfl, rfl, rfl, rfl⟩ := h
    refine ⟨_, ⟨by omega, rfl⟩, _, ⟨by omega, rfl⟩, _, ⟨by omega, rfl⟩, _, ⟨by omega, rfl⟩, ?_⟩
    simp only [List.cons.injEq, and_true, ← UInt8.toNat_inj, UInt8.toNat_ofNat']
    omega

theorem decodeThree?_eq_some_iff {a b c : Char} {bs : Bytes} :
    decodeThree? a b c = some bs ↔ ∃ x y, bs = [x, y] ∧ [a, b, c, '='] = encode [x, y] := by
  simp only [decodeThree?, Option.bind_eq_bind, Option.bind_eq_some_iff, value?_eq_some_iff,
    Option.ite_none_right_eq_some, Option.some.injEq]
  constructor
  · rintro ⟨p, ⟨hp, rfl⟩, q, ⟨hq, rfl⟩, r, ⟨hr, rfl⟩, hzero, rfl⟩
    refine ⟨_, _, rfl, ?_⟩
    simp only [encode, UInt8.toNat_ofNat', List.cons.injEq, and_true]
    refine ⟨congrArg symbol ?_, congrArg symbol ?_, congrArg symbol ?_⟩ <;> omega
  · rintro ⟨x, y, rfl, h⟩
    have hx := x.toNat_lt
    have hy := y.toNat_lt
    simp only [encode, List.cons.injEq, and_true] at h
    obtain ⟨rfl, rfl, rfl⟩ := h
    refine ⟨_, ⟨by omega, rfl⟩, _, ⟨by omega, rfl⟩, _, ⟨by omega, rfl⟩, by omega, ?_⟩
    simp only [List.cons.injEq, and_true, ← UInt8.toNat_inj, UInt8.toNat_ofNat']
    omega

theorem decodeTwo?_eq_some_iff {a b : Char} {bs : Bytes} :
    decodeTwo? a b = some bs ↔ ∃ x, bs = [x] ∧ [a, b, '=', '='] = encode [x] := by
  simp only [decodeTwo?, Option.bind_eq_bind, Option.bind_eq_some_iff, value?_eq_some_iff,
    Option.ite_none_right_eq_some, Option.some.injEq]
  constructor
  · rintro ⟨p, ⟨hp, rfl⟩, q, ⟨hq, rfl⟩, hzero, rfl⟩
    refine ⟨_, rfl, ?_⟩
    simp only [encode, UInt8.toNat_ofNat', List.cons.injEq, and_true]
    refine ⟨congrArg symbol ?_, congrArg symbol ?_⟩ <;> omega
  · rintro ⟨x, rfl, h⟩
    have hx := x.toNat_lt
    simp only [encode, List.cons.injEq, and_true] at h
    obtain ⟨rfl, rfl⟩ := h
    refine ⟨_, ⟨by omega, rfl⟩, _, ⟨by omega, rfl⟩, by omega, ?_⟩
    simp only [List.cons.injEq, and_true, ← UInt8.toNat_inj, UInt8.toNat_ofNat']
    omega

/-! ## Texts -/

section Equations

variable {a b c d : Char}

theorem decode?_three (hc : c ≠ '=') : decode? [a, b, c, '='] = decodeThree? a b c := by
  rw [decode?]
  simp [hc]

theorem decode?_four (hd : d ≠ '=') (s : List Char) : decode? (a :: b :: c :: d :: s) =
    (decodeFour? a b c d).bind fun bs => (decode? s).map (bs ++ ·) := by
  rw [decode?]
  · cases decodeFour? a b c d with
    | none => rfl
    | some bs => cases decode? s <;> rfl
  · simp [hd]
  · simp [hd]

end Equations

theorem decode?_encode (bs : Bytes) : decode? (encode bs) = some bs := by
  induction bs using encode.induct with
  | case1 => rfl
  | case2 x => exact decodeTwo?_eq_some_iff.2 ⟨x, rfl, rfl⟩
  | case3 x y =>
    have hy := y.toNat_lt
    rw [encode, decode?_three (symbol_ne_padding (by omega))]
    exact decodeThree?_eq_some_iff.2 ⟨x, y, rfl, rfl⟩
  | case4 x y z bs ih =>
    have hfour := decodeFour?_eq_some_iff.2 ⟨x, y, z, rfl, rfl⟩
    rw [encode, decode?_four (symbol_ne_padding (Nat.mod_lt _ (by decide))), hfour, ih]
    rfl

theorem eq_encode_of_decode? {s : List Char} {bs : Bytes} (h : decode? s = some bs) :
    s = encode bs := by
  fun_induction decode? s generalizing bs with
  | case1 =>
    cases h
    rfl
  | case2 a b =>
    obtain ⟨x, rfl, hsymbols⟩ := decodeTwo?_eq_some_iff.1 h
    exact hsymbols
  | case3 a b c =>
    obtain ⟨x, y, rfl, hsymbols⟩ := decodeThree?_eq_some_iff.1 h
    exact hsymbols
  | case4 a b c d s hnot hnot' ih =>
    simp only [Option.bind_eq_bind, Option.bind_eq_some_iff, Option.some.injEq] at h
    obtain ⟨bs₁, hfour, bs₂, hrest, rfl⟩ := h
    obtain ⟨x, y, z, rfl, hsymbols⟩ := decodeFour?_eq_some_iff.1 hfour
    simp only [encode, List.cons.injEq, and_true] at hsymbols
    obtain ⟨rfl, rfl, rfl, rfl⟩ := hsymbols
    rw [ih hrest]
    rfl
  | case5 => cases h

/-- **Decoding accepts what encoding writes, and nothing else.** -/
theorem decode?_eq_some_iff {s : List Char} {bs : Bytes} :
    decode? s = some bs ↔ s = encode bs := by
  constructor
  · intro h
    exact eq_encode_of_decode? h
  · intro h
    rw [h]
    exact decode?_encode bs

/-- What stands in an encoding: symbols, and the padding sign. -/
theorem mem_encode {bs : Bytes} {c : Char} (h : c ∈ encode bs) :
    c = '=' ∨ ∃ n < 64, c = symbol n := by
  induction bs using encode.induct with
  | case1 => cases h
  | case2 x =>
    have hx := x.toNat_lt
    simp only [encode, List.mem_cons, List.not_mem_nil, or_false] at h
    rcases h with h | h | h | h
    · exact .inr ⟨_, by omega, h⟩
    · exact .inr ⟨_, by omega, h⟩
    · exact .inl h
    · exact .inl h
  | case3 x y =>
    have hx := x.toNat_lt
    have hy := y.toNat_lt
    simp only [encode, List.mem_cons, List.not_mem_nil, or_false] at h
    rcases h with h | h | h | h
    · exact .inr ⟨_, by omega, h⟩
    · exact .inr ⟨_, by omega, h⟩
    · exact .inr ⟨_, by omega, h⟩
    · exact .inl h
  | case4 x y z bs ih =>
    have hx := x.toNat_lt
    have hy := y.toNat_lt
    have hz := z.toNat_lt
    simp only [encode, List.mem_cons] at h
    rcases h with h | h | h | h | h
    · exact .inr ⟨_, by omega, h⟩
    · exact .inr ⟨_, by omega, h⟩
    · exact .inr ⟨_, by omega, h⟩
    · exact .inr ⟨_, by omega, h⟩
    · exact ih h

end Galley.Bytes.Base64
