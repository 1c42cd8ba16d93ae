import Galley.Decimal.Layout
import Galley.Decimal.Reading
import Galley.Proofs.Decimal.Exact

/-!
# What is written is read back

**Theorem (`read?_render`).** In every layout, the text of a finite double is read as that double,
the sign of a zero included.

The shortest digits have the double as their nearest one (`nearestDecimal_shortest`), and what is
set out has their value (`magnitude_hasValue`): zeros around the digits, a point among them and an
exponent behind them leave it as it is. The nearest double depends on the value alone, so nothing
else needs to be known of a layout.
-/

namespace Galley.Decimal

/-! ## Digits -/

theorem digitsValue_append (ds es : List Char) :
    digitsValue (ds ++ es) = digitsValue ds * 10 ^ es.length + digitsValue es := by
  rw [digitsValue, Nat.ofDigitChars_append, Nat.ofDigitChars_eq_ofDigitChars_zero, Nat.mul_comm]
  rfl

@[simp] theorem digitsValue_toDigits (n : Nat) : digitsValue (Nat.toDigits 10 n) = n :=
  Nat.ofDigitChars_ten_toDigits

@[simp] theorem digitsValue_zeros (k : Nat) : digitsValue (List.replicate k '0') = 0 :=
  Nat.ofDigitChars_replicate_zero

theorem digitsValue_append_zeros (ds : List Char) (k : Nat) :
    digitsValue (ds ++ List.replicate k '0') = digitsValue ds * 10 ^ k := by
  rw [digitsValue_append, digitsValue_zeros, List.length_replicate, Nat.add_zero]

theorem digitsValue_zeros_append (k : Nat) (ds : List Char) :
    digitsValue (List.replicate k '0' ++ ds) = digitsValue ds := by
  rw [digitsValue_append, digitsValue_zeros, Nat.zero_mul, Nat.zero_add]

/-- A text of digits only. -/
def AllDigits (ds : List Char) : Prop := ∀ c ∈ ds, c.isDigit = true

theorem AllDigits.append {ds es : List Char} (hds : AllDigits ds) (hes : AllDigits es) :
    AllDigits (ds ++ es) := by
  intro c hc
  exact (List.mem_append.1 hc).elim (hds c) (hes c)

theorem allDigits_zeros (k : Nat) : AllDigits (List.replicate k '0') := by
  intro c hc
  rw [List.eq_of_mem_replicate hc]
  rfl

theorem allDigits_toDigits (n : Nat) : AllDigits (Nat.toDigits 10 n) := by
  intro c hc
  exact Nat.isDigit_of_mem_toDigits (by decide) (by decide) hc

/-! ## Parts of a numeral -/

section Parts

variable {ds ps tail : List Char} {x : Int}

/-- An exponent does not go on with the digits before it, nor with their point. -/
theorem exponent?_head (h : exponent? tail = some x) :
    tail = [] ∨ ∃ c s, tail = c :: s ∧ c.isDigit = false ∧ c ≠ '.' := by
  cases tail with
  | nil => exact .inl rfl
  | cons c s =>
    refine .inr ⟨c, s, rfl, ?_⟩
    by_cases hc : c = 'e' ∨ c = 'E'
    · rcases hc with rfl | rfl <;> exact ⟨rfl, by decide⟩
    · simp [exponent?, hc] at h

theorem takeDigits_append (hds : AllDigits ds) (hx : exponent? tail = some x) :
    takeDigits (ds ++ tail) = (ds, tail) := by
  have hstop : tail.takeWhile Char.isDigit = [] ∧ tail.dropWhile Char.isDigit = tail := by
    rcases exponent?_head hx with rfl | ⟨c, s, rfl, hc, -⟩
    · exact ⟨rfl, rfl⟩
    · simp [hc]
  rw [takeDigits, List.takeWhile_append_of_pos hds, List.dropWhile_append_of_pos hds, hstop.1,
    hstop.2, List.append_nil]

theorem takeDigits_point (hds : AllDigits ds) (s : List Char) :
    takeDigits (ds ++ '.' :: s) = (ds, '.' :: s) := by
  rw [takeDigits, List.takeWhile_append_of_pos hds, List.dropWhile_append_of_pos hds]
  simp

theorem takeMantissa_whole (hds : AllDigits ds) (hx : exponent? tail = some x) :
    takeMantissa (ds ++ tail) = (ds, [], tail) := by
  rw [takeMantissa, takeDigits_append hds hx]
  rcases exponent?_head hx with rfl | ⟨c, s, rfl, -, hc⟩
  · rfl
  · dsimp only
    split
    · rename_i heq
      exact absurd (List.cons.inj heq).1 hc
    · rfl

theorem takeMantissa_point (hds : AllDigits ds) (hps : AllDigits ps)
    (hx : exponent? tail = some x) :
    takeMantissa (ds ++ '.' :: (ps ++ tail)) = (ds, ps, tail) := by
  rw [takeMantissa, takeDigits_point hds]
  simp only [takeDigits_append hps hx]

end Parts

/-! ## Values of numerals -/

/-- The text is an unsigned numeral with the value. -/
def HasValue (s : List Char) (q : ℚ) : Prop :=
  ∃ (d : Nat) (e : ℤ), (d * 10 ^ e : ℚ) = q ∧ magnitude? s = some (nearestDecimal d e)

section Values

variable {ds ps tail s : List Char} {x : Int}

theorem HasValue.magnitude?_eq {q : ℚ} (h : HasValue s q) {d : Nat} {e : ℤ}
    (hq : q = d * 10 ^ e) : magnitude? s = some (nearestDecimal d e) := by
  obtain ⟨d', e', hvalue, hread⟩ := h
  rw [hread, nearestDecimal_congr (hvalue.trans hq)]

theorem hasValue_whole (hne : ds ≠ []) (hds : AllDigits ds) (hx : exponent? tail = some x) :
    HasValue (ds ++ tail) (digitsValue ds * 10 ^ x) := by
  refine ⟨digitsValue ds, x, rfl, ?_⟩
  rw [magnitude?, takeMantissa_whole hds hx]
  simp [hne, hx]

theorem hasValue_point (hne : ds ≠ []) (hds : AllDigits ds) (hps : AllDigits ps)
    (hx : exponent? tail = some x) :
    HasValue (ds ++ '.' :: (ps ++ tail)) (digitsValue (ds ++ ps) * 10 ^ (x - ps.length)) := by
  refine ⟨digitsValue (ds ++ ps), x - ps.length, rfl, ?_⟩
  rw [magnitude?, takeMantissa_point hds hps hx]
  simp [hne, hx]

theorem hasValue_digits (hne : ds ≠ []) (hds : AllDigits ds) : HasValue ds (digitsValue ds) := by
  have hnone : exponent? [] = some 0 := rfl
  simpa using hasValue_whole hne hds hnone

theorem hasValue_places (hne : ds ≠ []) (hds : AllDigits ds) (hps : AllDigits ps) :
    HasValue (ds ++ '.' :: ps) (digitsValue (ds ++ ps) * 10 ^ (-ps.length : ℤ)) := by
  have hnone : exponent? [] = some 0 := rfl
  simpa using hasValue_point hne hds hps hnone

end Values

/-! ## All digits -/

/-- Zeros behind the digits of a number are made up for by its exponent. -/
theorem digitsValue_zeros_zpow (ds : List Char) (k : Nat) (e : ℤ) :
    (digitsValue (ds ++ List.replicate k '0') * 10 ^ e : ℚ) = digitsValue ds * 10 ^ (e + k) := by
  rw [digitsValue_append_zeros, zpow_add₀ (by norm_num), zpow_natCast]
  push_cast
  ring

section Layouts

variable {ds : List Char} (l : Layout)

theorem positional_below (hds : AllDigits ds) {point : Int} (hpoint : point ≤ 0) :
    HasValue (l.positional ds point) (digitsValue ds * 10 ^ (point - ds.length)) := by
  have hzero : AllDigits ['0'] := allDigits_zeros 1
  have h := hasValue_places (by simp) hzero ((allDigits_zeros (-point).toNat).append hds)
  have hvalue : digitsValue (['0'] ++ (List.replicate (-point).toNat '0' ++ ds)) =
      digitsValue ds := digitsValue_zeros_append ((-point).toNat + 1) ds
  have hlength : -((List.replicate (-point).toNat '0' ++ ds).length : ℤ) = point - ds.length := by
    rw [List.length_append, List.length_replicate]
    omega
  rw [hvalue, hlength] at h
  rw [Layout.positional, if_pos hpoint]
  exact h

theorem positional_beyond (hne : ds ≠ []) (hds : AllDigits ds) {point : Int} (hpoint : 0 < point)
    (hlong : (ds.length : ℤ) ≤ point) :
    HasValue (l.positional ds point) (digitsValue ds * 10 ^ (point - ds.length)) := by
  rw [Layout.positional, if_neg (not_le.2 hpoint), if_pos hlong]
  obtain ⟨k, hk⟩ := Int.eq_ofNat_of_zero_le (sub_nonneg.2 hlong)
  rw [hk, Int.toNat_natCast]
  have hwhole : AllDigits (ds ++ List.replicate k '0') := hds.append (allDigits_zeros k)
  have hsome : ds ++ List.replicate k '0' ≠ [] := List.append_ne_nil_of_left_ne_nil hne _
  by_cases hzero : l.pointZero = true
  · have hzeros : ds ++ List.replicate k '0' ++ ['0'] = ds ++ List.replicate (k + 1) '0' := by
      rw [List.append_assoc, ← List.replicate_succ']
    have hexponent : -(['0'].length : ℤ) + (k + 1 : Nat) = k := by simp
    have h := hasValue_places hsome hwhole (allDigits_zeros 1)
    rw [List.replicate_one, hzeros, digitsValue_zeros_zpow, hexponent] at h
    rw [if_pos hzero]
    exact h
  · have h := hasValue_digits hsome hwhole
    rw [digitsValue_append_zeros] at h
    rw [if_neg hzero, List.append_nil]
    simpa using h

theorem positional_within (hne : ds ≠ []) (hds : AllDigits ds) {point : Int} (hpoint : 0 < point)
    (hshort : point < ds.length) :
    HasValue (l.positional ds point) (digitsValue ds * 10 ^ (point - ds.length)) := by
  have hbefore : AllDigits (ds.take point.toNat) := fun c hc => hds c (List.mem_of_mem_take hc)
  have hbehind : AllDigits (ds.drop point.toNat) := fun c hc => hds c (List.mem_of_mem_drop hc)
  have hsome : ds.take point.toNat ≠ [] := by
    rw [Ne, List.take_eq_nil_iff, not_or]
    exact ⟨by omega, hne⟩
  have hlength : -((ds.drop point.toNat).length : ℤ) = point - ds.length := by
    rw [List.length_drop]
    omega
  have h := hasValue_places hsome hbefore hbehind
  rw [List.take_append_drop, hlength] at h
  rw [Layout.positional, if_neg (not_le.2 hpoint), if_neg (not_le.2 hshort)]
  exact h

/-- **All digits of a number have its value**, wherever its point stands. -/
theorem positional_hasValue (hne : ds ≠ []) (hds : AllDigits ds) (point : Int) :
    HasValue (l.positional ds point) (digitsValue ds * 10 ^ (point - ds.length)) := by
  by_cases hpoint : point ≤ 0
  · exact positional_below l hds hpoint
  · by_cases hlong : (ds.length : ℤ) ≤ point
    · exact positional_beyond l hne hds (not_le.1 hpoint) hlong
    · exact positional_within l hne hds (not_le.1 hpoint) (not_le.1 hlong)

/-! ## Digits and an exponent -/

theorem exponent?_integer (n : Int) :
    exponent? ('e' :: ((if n < 0 then [] else ['+']) ++ integer n)) = some n := by
  have hdigits : takeDigits (Nat.toDigits 10 n.natAbs) = (Nat.toDigits 10 n.natAbs, []) := by
    have hnone : exponent? [] = some 0 := rfl
    simpa using takeDigits_append (allDigits_toDigits n.natAbs) hnone
  have hne : Nat.toDigits 10 n.natAbs ≠ [] := Nat.toDigits_ne_nil
  by_cases hn : n < 0
  · simp [exponent?, integer, hn, takeSign, hdigits, hne, abs_of_neg hn]
  · simp [exponent?, integer, hn, takeSign, hdigits, hne, abs_of_nonneg (not_lt.1 hn)]

/-- **Digits with an exponent have the value they are written for.** -/
theorem scientific_hasValue (hne : ds ≠ []) (hds : AllDigits ds) (lead : Int) :
    HasValue (scientific ds lead) (digitsValue ds * 10 ^ (lead + 1 - ds.length)) := by
  have htail := exponent?_integer lead
  obtain ⟨c, rest, rfl⟩ := List.exists_cons_of_ne_nil hne
  have hfirst : AllDigits [c] := fun d hd => hds d (by simp_all)
  have hrest : AllDigits rest := fun d hd => hds d (List.mem_cons_of_mem _ hd)
  by_cases hnil : rest = []
  · have h := hasValue_whole (by simp) hfirst htail
    simpa [scientific, hnil] using h
  · have h := hasValue_point (by simp) hfirst hrest htail
    have hlength : lead - rest.length = lead + 1 - (c :: rest).length := by
      rw [List.length_cons]
      omega
    rw [hlength] at h
    simpa [scientific, hnil] using h

end Layouts

/-! ## Significant digits -/

theorem exists_zeros (ds : List Char) :
    ∃ k, ds = (ds.reverse.dropWhile (· = '0')).reverse ++ List.replicate k '0' := by
  refine ⟨(ds.rtakeWhile (· = '0')).length, ?_⟩
  have hzeros : ds.rtakeWhile (· = '0') =
      List.replicate (ds.rtakeWhile (· = '0')).length '0' := by
    apply List.eq_replicate_of_mem
    intro c hc
    simpa using List.mem_rtakeWhile_imp hc
  rw [← hzeros]
  exact List.rdropWhile_append_rtakeWhile.symm

theorem Scaled.allDigits_significant (s : Scaled) : AllDigits s.significant.1 := by
  obtain ⟨k, hk⟩ := exists_zeros (Nat.toDigits 10 s.digits)
  have hdigits := allDigits_toDigits s.digits
  rw [hk] at hdigits
  exact fun c hc => hdigits c (List.mem_append_left _ hc)

/-- **Trailing zeros are made up for by the exponent.** -/
theorem Scaled.significant_spec {s : Scaled} (hs : s.digits ≠ 0) :
    s.significant.1 ≠ [] ∧
      (digitsValue s.significant.1 * 10 ^ s.significant.2 : ℚ) = s.digits * 10 ^ s.exponent := by
  obtain ⟨k, hk⟩ := exists_zeros (Nat.toDigits 10 s.digits)
  unfold Scaled.significant
  dsimp only
  have hvalue := digitsValue_toDigits s.digits
  generalize (List.dropWhile (· = '0') (Nat.toDigits 10 s.digits).reverse).reverse = kept at hk ⊢
  rw [hk] at hvalue ⊢
  have hlength : (kept ++ List.replicate k '0').length - kept.length = k := by simp
  constructor
  · intro hnil
    rw [hnil, List.nil_append, digitsValue_zeros] at hvalue
    exact hs hvalue.symm
  · rw [hlength, ← digitsValue_zeros_zpow, hvalue]

/-! ## Shortest digits -/

theorem expansion_value (m : Nat) (e : ℤ) :
    ((expansion m e).digits * 10 ^ (expansion m e).exponent : ℚ) = m * 2 ^ e := by
  unfold expansion
  by_cases he : 0 ≤ e
  · rw [if_pos he]
    obtain ⟨n, rfl⟩ := Int.eq_ofNat_of_zero_le he
    simp
  · rw [if_neg he]
    obtain ⟨n, hn⟩ := Int.eq_ofNat_of_zero_le (Int.neg_nonneg_of_nonpos (le_of_not_ge he))
    obtain rfl : e = -n := by omega
    have hten : (10 : ℚ) ^ n = 5 ^ n * 2 ^ n := by rw [← mul_pow]; norm_num
    simp [hten]
    field_simp

/-- **The shortest digits read back**, and so does the exact expansion in their place. -/
theorem nearestDecimal_shortest (tie : Tie) (m : Nat) (e : ℤ) :
    nearestDecimal (shortest tie m e).digits (shortest tie m e).exponent =
      nearestBits (numerator m e) (denominator e) := by
  unfold shortest
  dsimp only
  generalize hfound : List.findSome? _ (List.range 17) = found
  cases found with
  | some s =>
    obtain ⟨n, -, hn⟩ := List.exists_of_findSome?_eq_some hfound
    have hback := List.find?_some hn
    rwa [readsBack, beq_iff_eq] at hback
  | none =>
    apply nearestDecimal_eq_nearestBits (denominator_pos e)
    rw [numerator_div_denominator]
    exact expansion_value m e

section Written

variable {m : Nat} {e : ℤ}

/-- The shortest digits are set out in one of two ways. -/
theorem magnitude_eq (l : Layout) (m : Nat) (e : ℤ) : ∃ point : ℤ,
    point = (shortest l.tie m e).significant.2 + (shortest l.tie m e).significant.1.length ∧
      (l.magnitude m e = l.positional (shortest l.tie m e).significant.1 point ∨
        l.magnitude m e = scientific (shortest l.tie m e).significant.1 (point - 1)) := by
  refine ⟨_, rfl, ?_⟩
  unfold Layout.magnitude
  cases l.window with
  | none => exact .inl rfl
  | some window =>
    dsimp only
    split_ifs
    · exact .inl rfl
    · exact .inr rfl

/-- **What is set out of a positive number has the value of its shortest digits.** -/
theorem magnitude_hasValue (l : Layout) (h : (shortest l.tie m e).digits ≠ 0) :
    HasValue (l.magnitude m e)
      ((shortest l.tie m e).digits * 10 ^ (shortest l.tie m e).exponent) := by
  obtain ⟨hne, hvalue⟩ := Scaled.significant_spec h
  have hds := (shortest l.tie m e).allDigits_significant
  obtain ⟨point, hpoint, hset⟩ := magnitude_eq l m e
  have hexponent : point - (shortest l.tie m e).significant.1.length =
      (shortest l.tie m e).significant.2 := by omega
  rw [← hvalue, ← hexponent]
  rcases hset with hset | hset
  · rw [hset]
    exact positional_hasValue l hne hds point
  · have hscientific := scientific_hasValue hne hds (point - 1)
    rw [sub_add_cancel] at hscientific
    rwa [hset]

theorem magnitude?_magnitude (l : Layout) (hm : m ≠ 0) (h : Canonical m e) :
    magnitude? (l.magnitude m e) = some (exactBits m e) := by
  have hnearest : nearestDecimal (shortest l.tie m e).digits (shortest l.tie m e).exponent =
      exactBits m e := (nearestDecimal_shortest l.tie m e).trans (nearestBits_exact h)
  have hpositive : (shortest l.tie m e).digits ≠ 0 := by
    intro hzero
    rw [hzero] at hnearest
    exact h.exactBits_ne_zero hm hnearest.symm
  rw [(magnitude_hasValue l hpositive).magnitude?_eq rfl, hnearest]

end Written

/-! ## Reading -/

section Reading

variable {s : List Char} {bits : Nat}

theorem exists_head_of_magnitude? (h : magnitude? s = some bits) :
    ∃ c rest, s = c :: rest ∧ (c.isDigit = true ∨ c = '.') := by
  cases s with
  | nil => cases h
  | cons c rest =>
    refine ⟨c, rest, rfl, ?_⟩
    by_contra hhead
    rw [not_or, Bool.not_eq_true] at hhead
    have hnone : takeMantissa (c :: rest) = ([], [], c :: rest) := by
      simp [takeMantissa, takeDigits, hhead]
    simp [magnitude?, hnone] at h

/-- No name of a special value begins as digits do. -/
theorem named?_of_head {c : Char} (hc : c.isDigit = true ∨ c = '.') (rest : List Char) :
    named? (c :: rest) = none := by
  have hlower : c.toLower = c := by
    rcases hc with hdigit | rfl
    · have hhigh : ¬ (c.val ≥ 'A'.val ∧ c.val ≤ 'Z'.val) := by
        simp only [Char.isDigit, Bool.and_eq_true, decide_eq_true_eq] at hdigit
        intro hletter
        exact absurd (UInt32.le_trans hletter.1 hdigit.2) (by decide)
      rw [Char.toLower, dif_neg hhigh]
    · rfl
  have hi : c ≠ 'i' := by
    rintro rfl
    exact absurd hc (by decide)
  have hn : c ≠ 'n' := by
    rintro rfl
    exact absurd hc (by decide)
  simp [named?, Text.lowerAscii, hlower, hi, hn]

/-- A numeral is read with the sign in front of it. -/
theorem read?_of_magnitude? (negative : Bool) (h : magnitude? s = some bits) :
    read? ((if negative then ['-'] else []) ++ s) = some (withSign negative bits) := by
  obtain ⟨c, rest, rfl, hc⟩ := exists_head_of_magnitude? h
  have hnamed := named?_of_head hc rest
  have hsign : takeSign ((if negative then ['-'] else []) ++ c :: rest) =
      (negative, c :: rest) := by
    cases negative with
    | true => rfl
    | false =>
      have hplus : c ≠ '+' := by
        rintro rfl
        exact absurd hc (by decide)
      have hminus : c ≠ '-' := by
        rintro rfl
        exact absurd hc (by decide)
      simp [takeSign, hplus, hminus]
  rw [read?, hsign]
  simp [hnamed, h]

/-- **What is written of a finite double is read back**, whatever the layout. -/
theorem read?_render (l : Layout) {x : Float} (hx : isFinite x = true) :
    read? (l.render x) = some x := by
  obtain ⟨negative, m, e, hbinary⟩ := exists_finite hx
  obtain ⟨hcanonical, hself⟩ := withSign_exactBits hbinary
  have hmagnitude : magnitude? (if m == 0 then (if l.pointZero then ['0', '.', '0'] else ['0'])
      else l.magnitude m e) = some (exactBits m e) := by
    by_cases hm : m = 0
    · have hzero : exactBits 0 e = 0 := rfl
      rw [hm, hzero]
      cases l.pointZero <;> rfl
    · rw [if_neg (by simpa using hm)]
      exact magnitude?_magnitude l hm hcanonical
  have hread := read?_of_magnitude? negative hmagnitude
  rw [hself] at hread
  rw [Layout.render, hbinary]
  exact hread

end Reading

/-! ## Characters of a numeral -/

/-- Is the character a digit or one of the signs of a numeral? -/
def isNumeralChar (c : Char) : Bool := c.isDigit || ['-', '+', '.', 'e'].contains c

/-- Digits and the signs of a numeral only. -/
def NumeralChars (s : List Char) : Prop := s.all isNumeralChar = true

instance (s : List Char) : Decidable (NumeralChars s) := inferInstanceAs (Decidable (_ = true))

section Characters

variable {s t ds : List Char}

theorem NumeralChars.append (hs : NumeralChars s) (ht : NumeralChars t) : NumeralChars (s ++ t) := by
  rw [NumeralChars, List.all_append, hs, ht, Bool.and_self]

theorem AllDigits.numeralChars (hds : AllDigits ds) : NumeralChars ds := by
  apply List.all_eq_true.2
  intro c hc
  rw [isNumeralChar, hds c hc, Bool.true_or]

theorem NumeralChars.sublist (hs : NumeralChars s) (h : t.Sublist s) : NumeralChars t :=
  List.all_eq_true.2 fun c hc => List.all_eq_true.1 hs c (h.subset hc)

theorem numeralChars_positional (l : Layout) (hds : NumeralChars ds) (point : Int) :
    NumeralChars (l.positional ds point) := by
  have hzeros : ∀ k, NumeralChars (List.replicate k '0') := fun k =>
    (allDigits_zeros k).numeralChars
  have hpoint : NumeralChars ['.'] := by decide
  unfold Layout.positional
  split_ifs
  · have hlead : NumeralChars ['0', '.'] := by decide
    exact (hlead.append (hzeros _)).append hds
  · have htail : NumeralChars ['.', '0'] := by decide
    exact (hds.append (hzeros _)).append htail
  · rw [List.append_nil]
    exact hds.append (hzeros _)
  · exact (hds.sublist (List.take_sublist ..)).append
      (hpoint.append (hds.sublist (List.drop_sublist ..)))

theorem numeralChars_scientific (hds : NumeralChars ds) (lead : Int) :
    NumeralChars (scientific ds lead) := by
  have hbehind : NumeralChars (if ds.length ≤ 1 then [] else '.' :: ds.drop 1) := by
    split_ifs
    · rfl
    · have hpoint : NumeralChars ['.'] := by decide
      exact hpoint.append (hds.sublist (List.drop_sublist ..))
  have hsign : NumeralChars ('e' :: if lead < 0 then [] else ['+']) := by
    split_ifs <;> decide
  have hinteger : NumeralChars (integer lead) := by
    have hminus : NumeralChars (if lead < 0 then ['-'] else []) := by
      split_ifs <;> decide
    exact hminus.append (allDigits_toDigits _).numeralChars
  exact (((hds.sublist (List.take_sublist ..)).append hbehind).append hsign).append hinteger

/-- **A finite double is written with digits and the signs of a numeral.** -/
theorem numeralChars_render (l : Layout) {x : Float} (hx : isFinite x = true) :
    NumeralChars (l.render x) := by
  obtain ⟨negative, m, e, hbinary⟩ := exists_finite hx
  rw [Layout.render, hbinary]
  apply NumeralChars.append
  · cases negative <;> decide
  · split_ifs
    · decide
    · decide
    · have hds := (shortest l.tie m e).allDigits_significant.numeralChars
      obtain ⟨point, -, hset⟩ := magnitude_eq l m e
      rcases hset with hset | hset
      · rw [hset]
        exact numeralChars_positional l hds point
      · rw [hset]
        exact numeralChars_scientific hds (point - 1)

end Characters

end Galley.Decimal
