import Galley.Proofs.Decimal.Places

/-!
# Rounded places

**Theorem (`rounded_trimPlaces_fixed`).** The trimmed places of a finite double denote its exact
value, rounded to a multiple of the last place, a half to the even neighbour (`Rounded`). The digits
before the point are all there, and those behind it, if there are any, do not end in zero.

**Theorem (`trimPlaces_fixed_inj`).** Nothing is lost in the trimming: trimmed places are the same
only if the places are.

Behind its sign, the text of `n` units of the last place has the value of these units
(`numeralValue_trimPlaces`). So it tells both the sign and the number of units.
-/

namespace Galley.Decimal

/-! ## Exact values -/

/-- The number that a finite double is; zero for what is not finite. -/
def Binary.value : Binary → ℚ
  | .finite negative mantissa exponent =>
    if negative then -(mantissa * 2 ^ exponent) else mantissa * 2 ^ exponent
  | _ => 0

/-- The digits before the point, or all of them. -/
def wholePart (t : List Char) : List Char := t.takeWhile (· ≠ '.')

/-- The digits behind the point. -/
def placesPart (t : List Char) : List Char := (t.dropWhile (· ≠ '.')).drop 1

/-- The number that digits denote, with a point among them or none. -/
def numeralValue (t : List Char) : ℚ :=
  digitsValue (wholePart t) + digitsValue (placesPart t) / 10 ^ (placesPart t).length

/-- The number that digits denote, maybe behind a minus. -/
def textValue : List Char → ℚ
  | '-' :: t => -numeralValue t
  | t => numeralValue t

/-! ## Nearest integers -/

/-- The integer is nearest to the number, and even if another one is equally near. -/
def IsNearest (n : ℤ) (q : ℚ) : Prop := |q - n| ≤ 1 / 2 ∧ (|q - n| = 1 / 2 → Even n)

theorem IsNearest.of_lt {n : ℤ} {q : ℚ} (h : |q - n| < 1 / 2) : IsNearest n q :=
  ⟨h.le, fun htie => absurd htie h.ne⟩

theorem IsNearest.of_even {n : ℤ} {q : ℚ} (h : |q - n| = 1 / 2) (hn : Even n) : IsNearest n q :=
  ⟨h.le, fun _ => hn⟩

theorem IsNearest.neg {n : ℤ} {q : ℚ} (h : IsNearest n q) : IsNearest (-n) (-q) := by
  have hdistance : |-q - (-n : ℤ)| = |q - n| := by
    rw [Int.cast_neg, neg_sub_neg, abs_sub_comm]
  rw [IsNearest, hdistance, even_neg]
  exact h

/-- **A rounded quotient is nearest to the quotient.** -/
theorem roundQuotient_isNearest (num : Nat) {den : Nat} (hden : 0 < den) :
    IsNearest (roundQuotient num den) (num / den) := by
  have hpos : (0 : ℚ) < den := by exact_mod_cast hden
  have hdiv : (num / den : ℚ) = (num / den : ℕ) + (num % den : ℕ) / den := by
    rw [eq_comm, ← mul_right_inj' hpos.ne', mul_add, mul_div_cancel₀ _ hpos.ne',
      mul_div_cancel₀ _ hpos.ne']
    exact_mod_cast Nat.div_add_mod num den
  have hless : num % den < den := Nat.mod_lt num hden
  rw [hdiv]
  unfold roundQuotient
  dsimp only
  generalize num / den = q
  generalize num % den = r at hless
  have hlow : (0 : ℚ) ≤ r / den := by positivity
  have hhigh : (r / den : ℚ) < 1 := (div_lt_one hpos).2 (by exact_mod_cast hless)
  -- How far it is to the quotient and to the next number, of which the nearer one is taken.
  have hdown : |(q + r / den : ℚ) - (q : ℤ)| = r / den := by
    rw [Int.cast_natCast, add_sub_cancel_left, abs_of_nonneg hlow]
  have hup : |(q + r / den : ℚ) - ((q + 1 : ℕ) : ℤ)| = 1 - r / den := by
    rw [Int.cast_natCast, Nat.cast_add_one, add_sub_add_left_eq_sub, abs_sub_comm,
      abs_of_pos (sub_pos.2 hhigh)]
  have hbelow : 2 * r < den ↔ (r / den : ℚ) < 1 / 2 := by
    rw [div_lt_div_iff₀ hpos two_pos, one_mul, mul_comm 2]
    exact_mod_cast Iff.rfl
  have habove : den < 2 * r ↔ (1 / 2 : ℚ) < r / den := by
    rw [div_lt_div_iff₀ two_pos hpos, one_mul, mul_comm 2]
    exact_mod_cast Iff.rfl
  split_ifs with hless hmore heven
  · exact .of_lt (hdown.trans_lt (hbelow.1 hless))
  · exact .of_lt (by linarith [habove.1 hmore])
  all_goals
    have htie : (r / den : ℚ) = 1 / 2 :=
      le_antisymm (not_lt.1 (mt habove.2 hmore)) (not_lt.1 (mt hbelow.2 hless))
  · exact .of_even (hdown.trans htie) (by simpa [Nat.even_iff] using heven)
  · have hodd : Odd q := by simpa [Nat.odd_iff] using heven
    exact .of_even (by rw [hup, htie]; norm_num) (by exact_mod_cast hodd.add_one)

/-! ## Trimmed places -/

section Trimmed

variable {places : Nat} {x y : Float}

theorem parts_of_point {ds : List Char} (hds : AllDigits ds) (kept : List Char) :
    wholePart (ds ++ if kept = [] then [] else '.' :: kept) = ds ∧
      placesPart (ds ++ if kept = [] then [] else '.' :: kept) = kept := by
  have hpoint : ∀ c ∈ ds, decide (c ≠ '.') = true := fun c hc =>
    decide_eq_true (ne_point_of_isDigit (hds c hc))
  rw [wholePart, placesPart, List.takeWhile_append_of_pos hpoint,
    List.dropWhile_append_of_pos hpoint]
  split_ifs with hnil
  · simp [hnil]
  · simp

theorem trimPlaces_append_placed (places n : Nat) (sign : List Char) :
    trimPlaces (sign ++ placed places n) = sign ++ trimPlaces (placed places n) := by
  obtain ⟨t, -, htrim⟩ := exists_numeral places n
  have hplain : trimPlaces (placed places n) = t := htrim []
  rw [htrim, hplain]

theorem numeral_trimPlaces (places n : Nat) : Numeral places (trimPlaces (placed places n)) := by
  obtain ⟨t, ht, htrim⟩ := exists_numeral places n
  have hplain : trimPlaces (placed places n) = t := htrim []
  rwa [hplain]

/-- **The digits before the point are kept**, and behind it nothing is lost but zeros. -/
theorem parts_trimPlaces (places n : Nat) :
    wholePart (trimPlaces (placed places n)) = Nat.toDigits 10 (n / 10 ^ places) ∧
      ∃ kept k, placesPart (trimPlaces (placed places n)) = kept ∧ kept.length + k = places ∧
        digitsValue kept * 10 ^ k = n % 10 ^ places := by
  obtain ⟨kept, k, -, hlength, -, hvalue, htrim⟩ := exists_trimPlaces places n
  have hplain := htrim []
  rw [List.nil_append, List.nil_append] at hplain
  obtain ⟨hwhole, hplaces⟩ := parts_of_point (allDigits_toDigits (n / 10 ^ places)) kept
  rw [hplain]
  exact ⟨hwhole, kept, k, hplaces, hlength, hvalue⟩

/-- **The trimmed text of `n` units of the last place** denotes that many units. -/
theorem numeralValue_trimPlaces (places n : Nat) :
    numeralValue (trimPlaces (placed places n)) = n / 10 ^ places := by
  obtain ⟨hwhole, kept, k, hplaces, hlength, hvalue⟩ := parts_trimPlaces places n
  have hunits : (n : ℚ) = (n / 10 ^ places : ℕ) * 10 ^ places + digitsValue kept * 10 ^ k := by
    have hdiv := Nat.div_add_mod' n (10 ^ places)
    rw [← hvalue] at hdiv
    exact_mod_cast hdiv.symm
  have hsplit : (10 : ℚ) ^ places = 10 ^ kept.length * 10 ^ k := by rw [← pow_add, hlength]
  rw [numeralValue, hwhole, hplaces, digitsValue_toDigits, hunits, hsplit]
  field_simp

/-! ## Doubles with trimmed places -/

/-- The units in a finite double are the nearest ones to it. -/
theorem units_isNearest (places m : Nat) (e : ℤ) :
    IsNearest (units places m e) (m * 2 ^ e * 10 ^ places) := by
  have hnearest := roundQuotient_isNearest (numerator m e * Nat.pow 10 places) (denominator_pos e)
  rw [Nat.cast_mul, mul_div_right_comm, numerator_div_denominator] at hnearest
  exact_mod_cast hnearest

/-- **The places of a finite double** are a number of units behind its sign, and the units are the
nearest ones. -/
theorem exists_fixed (hx : isFinite x = true) (places : Nat) :
    ∃ n : ℕ, fixed places x = signText x ++ placed places n ∧
      IsNearest (if Unsigned x then n else -n) ((Binary.ofFloat x).value * 10 ^ places) := by
  obtain ⟨negative, m, e, hbinary⟩ := exists_finite hx
  have hnearest := units_isNearest places m e
  refine ⟨units places m e, fixed_eq hbinary places, ?_⟩
  rw [hbinary]
  cases negative with
  | false =>
    rw [if_pos ((unsigned_iff hbinary).2 rfl)]
    exact hnearest
  | true =>
    have hvalue : (Binary.finite true m e).value * 10 ^ places = -(m * 2 ^ e * 10 ^ places) :=
      neg_mul _ _
    rw [if_neg (mt (unsigned_iff hbinary).1 (by decide)), hvalue]
    exact hnearest.neg

/-- What a text with trimmed places says of the double that it is written for: it denotes `n` units
of the last place, which are nearest to the double. -/
structure Rounded (places : Nat) (x : Float) (n : ℤ) (s : List Char) : Prop where
  nearest : IsNearest n ((Binary.ofFloat x).value * 10 ^ places)
  value : textValue s = n / 10 ^ places
  canonical : ∃ t, s = signText x ++ t ∧ Numeral places t ∧
    wholePart t = Nat.toDigits 10 (n.natAbs / 10 ^ places)

theorem textValue_of_numeral {t : List Char} (ht : Numeral places t) :
    textValue t = numeralValue t := by
  have hminus := ht.head_ne_minus
  unfold textValue
  split
  · exact absurd rfl hminus
  · rfl

/-- **Trimmed places are exact** up to the rounding of the last place. -/
theorem rounded_trimPlaces_fixed (hx : isFinite x = true) (places : Nat) :
    ∃ n, Rounded places x n (trimPlaces (fixed places x)) := by
  obtain ⟨n, hfixed, hnearest⟩ := exists_fixed hx places
  have hnumeral := numeral_trimPlaces places n
  have hvalue := numeralValue_trimPlaces places n
  have hwhole := (parts_trimPlaces places n).1
  rw [hfixed, trimPlaces_append_placed]
  refine ⟨_, hnearest, ?_, _, rfl, hnumeral, ?_⟩
  · by_cases hsign : Unsigned x
    · rw [signText, if_pos hsign, if_pos hsign, List.nil_append, textValue_of_numeral hnumeral,
        hvalue, Int.cast_natCast]
    · rw [signText, if_neg hsign, if_neg hsign, Int.cast_neg, Int.cast_natCast, neg_div, ← hvalue]
      rfl
  · split_ifs <;> simpa using hwhole

/-- No numeral begins with the minus, so the sign is told apart from what follows it. -/
theorem Numeral.signText_append_inj {s t : List Char} (hs : Numeral places s)
    (ht : Numeral places t) (h : signText x ++ s = signText y ++ t) :
    signText x = signText y ∧ s = t := by
  unfold signText at h ⊢
  split_ifs at h ⊢
  · exact ⟨rfl, h⟩
  · exact absurd (congrArg List.head? h) hs.head_ne_minus
  · exact absurd (congrArg List.head? h.symm) ht.head_ne_minus
  · exact ⟨rfl, List.append_cancel_left h⟩

/-- **Trimming keeps different places different.** -/
theorem trimPlaces_fixed_inj (hx : isFinite x = true) (hy : isFinite y = true) :
    trimPlaces (fixed places x) = trimPlaces (fixed places y) ↔ fixed places x = fixed places y := by
  refine ⟨fun h => ?_, congrArg trimPlaces⟩
  obtain ⟨m, hm, -⟩ := exists_fixed hx places
  obtain ⟨n, hn, -⟩ := exists_fixed hy places
  rw [hm, hn, trimPlaces_append_placed, trimPlaces_append_placed] at h
  -- The text tells the sign by its first character and the units by its value.
  obtain ⟨hsigns, htrimmed⟩ :=
    (numeral_trimPlaces places m).signText_append_inj (numeral_trimPlaces places n) h
  have hunits : (m / 10 ^ places : ℚ) = n / 10 ^ places := by
    rw [← numeralValue_trimPlaces, ← numeralValue_trimPlaces, htrimmed]
  have hsame : m = n := by
    exact_mod_cast (div_left_inj' (by positivity : (10 : ℚ) ^ places ≠ 0)).1 hunits
  rw [hm, hn, hsigns, hsame]

end Trimmed

end Galley.Decimal
