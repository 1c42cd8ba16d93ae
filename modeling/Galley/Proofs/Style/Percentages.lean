import Galley.Proofs.Decimal.Rounded
import Galley.Proofs.Style.Typing

/-!
# Percentages and signs of class strings

What a token can do (`Gives`) says where a percentage comes from and where a minus does.

**Theorem (`ofClasses_percentage`).** Behind a text that ends in `%`, under any property but a
family or a color, stands a numeral with at most six places, unless the token brackets a number
that is not finite. A family and a color are taken from brackets as they stand, with whatever they
end in (`bracketedPercent_verbatim`).

**Theorem (`ofClasses_unsigned`).** A property that is no margin, offset or stacking position is
negative only through a minus in brackets. There no rule looks at it, so a padding is negative after
all (`bracketedMinus_negative`).

**Theorem (`percent_rounded`).** A finite number as a percentage is its exact value, rounded to six
places, of which the zeros at the end are left out and nothing else.
-/

namespace Galley.Style

open Decimal (isFinite Unsigned Numeral Rounded)

/-! ## Percentages -/

/-- A numeral with at most six places, maybe behind a minus, and the sign of a percentage. -/
def IsPercentage (s : String) : Prop :=
  ∃ t, Numeral 6 t ∧ (s.toList = t ++ ['%'] ∨ s.toList = '-' :: t ++ ['%'])

theorem toList_percent (x : Float) : ∃ s, Value.percent x = .text s ∧
    s.toList = Decimal.trimPlaces (Decimal.fixed 6 x) ++ ['%'] :=
  ⟨_, rfl, by simp⟩

theorem isPercentage_of_percent {x : Float} (hx : isFinite x = true) {s : String}
    (h : Value.percent x = .text s) : IsPercentage s := by
  obtain ⟨s', hpercent, hlist⟩ := toList_percent x
  cases hpercent.symm.trans h
  obtain ⟨t, ht, htrim | ⟨-, htrim⟩⟩ := Decimal.trimPlaces_fixed hx 6
  · exact ⟨t, ht, .inl (htrim ▸ hlist)⟩
  · exact ⟨t, ht, .inr (htrim ▸ hlist)⟩

/-- The properties whose text is taken as it stands in brackets. -/
def verbatimProperties : List String := ["fontFamily", "color", "backgroundColor", "borderColor"]

theorem mem_verbatimProperties {k : String} {kind : Kind} (h : kindOf? k = some kind)
    (hkind : kind = .family ∨ kind = .color) : k ∈ verbatimProperties := by
  have hproperties : ∀ e ∈ properties, e.2 = .family ∨ e.2 = .color → e.1 ∈ verbatimProperties := by
    decide
  exact hproperties _ (Fields.mem_of_get? h) hkind

theorem Gives.percentage {token : List Char} {k s : String} (h : Gives token k (.text s))
    (hpercent : endsInPercent s = true) (hk : k ∉ verbatimProperties)
    (hfinite : ¬ BracketsEndless token) : IsPercentage s := by
  generalize hv : Value.text s = v at h
  cases h with
  | number => cases hv
  | opposite => cases hv
  | percent _ hx => exact isPercentage_of_percent (hx.resolve_right hfinite) hv.symm
  | name _ _ hname =>
    cases hv
    exact absurd hpercent (Bool.eq_false_iff.1 hname)
  | color hkind => exact absurd (mem_verbatimProperties hkind (.inr rfl)) hk
  | family hkind => exact absurd (mem_verbatimProperties hkind (.inl rfl)) hk

/-- **Percentages are numerals**, where the text is not taken verbatim from brackets and the number
in brackets is finite. -/
theorem ofClasses_percentage {classes k s : String}
    (h : (ofClasses classes).get? k = some (.text s)) (hpercent : endsInPercent s = true)
    (hk : k ∉ verbatimProperties)
    (hfinite : ∀ token ∈ Text.words classes.toList, (tokenStyle token).get? k = some (.text s) →
      ¬ BracketsEndless token) : IsPercentage s := by
  obtain ⟨token, htoken, hv, hgives⟩ := ofClasses_gives h
  exact hgives.percentage hpercent hk (hfinite token htoken hv)

/-- A percentage in brackets, which is a finite number and is trimmed. -/
theorem bracketedOffset_percentage :
    (ofClasses "p-2 left-[-12.50%]").get? "left" = some (.text "-12.5%") ∧
      IsPercentage "-12.5%" := by
  have hleft : (ofClasses "p-2 left-[-12.50%]").get? "left" = some (.text "-12.5%") := by
    decide +kernel
  have hwords : Text.words "p-2 left-[-12.50%]".toList =
      ["p-2".toList, "left-".toList ++ '[' :: "-12.50%]".toList] := by
    decide
  have hfinite : (Decimal.read? "-12.50".toList).all isFinite = true := by decide
  refine ⟨hleft, ofClasses_percentage hleft (by decide) (by decide) ?_⟩
  rintro token htoken - ⟨digits, x, ⟨front, hfront⟩, hread, hx⟩
  rw [hwords] at htoken
  rcases List.mem_pair.1 htoken with rfl | rfl
  · have : '[' ∈ "p-2".toList := hfront ▸ by simp
    exact absurd this (by decide)
  · -- The token has one opening bracket, so that the digits are the ones behind it.
    obtain ⟨-, -, hinner⟩ :=
      (List.append_cons_inj_of_notMem (by decide) (by decide)).1 hfront.symm
    have hdigits : "-12.50".toList = digits :=
      List.append_cancel_right (hinner : "-12.50".toList ++ ['%', ']'] = digits ++ ['%', ']'])
    rw [hdigits, hread, Option.all_some, hx] at hfinite
    cases hfinite

theorem IsPercentage.head {s : String} (h : IsPercentage s) :
    (s.toList.head?.any fun c => c.isDigit || c == '-') = true := by
  obtain ⟨t, ht, hs⟩ := h
  obtain ⟨c, rest, rfl, hc⟩ := ht.exists_head
  rcases hs with hs | hs
  · rw [hs, List.cons_append, List.head?_cons, Option.any_some, hc, Bool.true_or]
  · rw [hs]
    rfl

/-- What brackets hold is taken verbatim by a family and by a color, and the percentage in brackets
need not be a number. -/
theorem bracketedPercent_verbatim :
    ((ofClasses "font-[x%]").get? "fontFamily" = some (.text "x%") ∧ ¬ IsPercentage "x%") ∧
    ((ofClasses "bg-[rgb(1%]").get? "backgroundColor" = some (.text "rgb(1%") ∧
      ¬ IsPercentage "rgb(1%") ∧
    ((ofClasses "w-[NaN%]").get? "width" = some (.text "NaN%") ∧ ¬ IsPercentage "NaN%") := by
  have hvalues : (ofClasses "font-[x%]").get? "fontFamily" = some (.text "x%") ∧
      (ofClasses "bg-[rgb(1%]").get? "backgroundColor" = some (.text "rgb(1%") ∧
      (ofClasses "w-[NaN%]").get? "width" = some (.text "NaN%") := by
    decide +kernel
  refine ⟨⟨hvalues.1, fun h => ?_⟩, ⟨hvalues.2.1, fun h => ?_⟩, ⟨hvalues.2.2, fun h => ?_⟩⟩
  all_goals exact absurd h.head (by decide)

/-! ## Exactness -/

/-- **Percentages are exact and canonical**, and they are the same where the six places are. -/
theorem percent_rounded :
    (∀ x, isFinite x = true → ∃ s n,
      Value.percent x = .text (String.ofList (s ++ ['%'])) ∧ Rounded 6 x n s) ∧
    ∀ x y, isFinite x = true → isFinite y = true →
      (Value.percent x = Value.percent y ↔ Decimal.fixed 6 x = Decimal.fixed 6 y) := by
  have htext : ∀ x, Value.percent x =
      .text (String.ofList (Decimal.trimPlaces (Decimal.fixed 6 x) ++ ['%'])) := by
    intro x
    rw [Value.percent, String.ofList_append]
  constructor
  · intro x hx
    obtain ⟨n, hrounded⟩ := Decimal.rounded_trimPlaces_fixed hx 6
    exact ⟨_, n, htext x, hrounded⟩
  · intro x y hx hy
    rw [← Decimal.trimPlaces_fixed_inj hx hy, htext, htext, Value.text.injEq, String.ofList_inj,
      List.append_cancel_right_eq]

/-- A hundred keeps its zeros, and so does what is rounded to it. -/
theorem hundred_rounded :
    isFinite 100.0 = true ∧ isFinite 100.00000049 = true ∧
    (∃ s n, Value.percent 100.0 = .text (String.ofList (s ++ ['%'])) ∧ Rounded 6 100.0 n s) ∧
    Value.percent 100.00000049 = Value.percent 100.0 ∧ Value.percent 100.0 = .text "100%" := by
  have hfinite : isFinite 100.0 = true ∧ isFinite 100.00000049 = true := by decide
  have hplaces : Decimal.fixed 6 100.00000049 = Decimal.fixed 6 100.0 := by decide
  exact ⟨hfinite.1, hfinite.2, percent_rounded.1 _ hfinite.1,
    (percent_rounded.2 _ _ hfinite.2 hfinite.1).2 hplaces, by decide⟩

-- No digit is left of a number that is close to zero, but its sign is.
example : Value.percent 0.0 = .text "0%" ∧ Value.percent (-0.0000004) = .text "-0%" := by
  decide +kernel

/-! ## Signs -/

/-- A number below zero, or a percentage behind a minus. -/
def Value.isNegative : Value → Bool
  | .number x => x < 0.0
  | .text s => s.toList.head? == some '-' && endsInPercent s

theorem head_ne_minus_of_isColor {s : String} (h : isColor s = true) :
    s.toList.head? ≠ some '-' := by
  intro hminus
  obtain ⟨rest, hs⟩ := List.head?_eq_some_iff.1 hminus
  unfold isColor at h
  rw [hs] at h
  rcases Bool.or_eq_true_iff.1 h with hkeyword | hcall
  · have hkeywords : ∀ k ∈ ["transparent", "currentColor"], k.toList.head? ≠ some '-' := by decide
    exact hkeywords s (List.contains_iff_mem.1 hkeyword) hminus
  · simp at hcall

theorem isNegative_text_eq_false {s : String} (h : s.toList.head? ≠ some '-') :
    Value.isNegative (.text s) = false := by
  rw [Value.isNegative, beq_eq_false_iff_ne.2 h, Bool.false_and]

theorem isNegative_percent_eq_false {x : Float} (hx : Unsigned x) :
    (Value.percent x).isNegative = false := by
  obtain ⟨s, hs, hlist⟩ := toList_percent x
  rw [hs]
  refine isNegative_text_eq_false fun hhead => ?_
  rw [hlist, List.head?_append] at hhead
  rcases Option.or_eq_some_iff.1 hhead with hhead | ⟨-, hhead⟩
  · exact hx.head_ne_minus 6 hhead
  · exact absurd hhead (by decide)

theorem Gives.isNegative_eq_false {token : List Char} {k : String} {v : Value} (h : Gives token k v)
    (hk : k ∉ signedProperties) (hminus : ¬ BracketsMinus token) : v.isNegative = false := by
  cases h with
  | number _ _ hsign => exact decide_eq_false fun hlt => hminus (hsign hlt)
  | opposite _ hsigned => exact absurd hsigned hk
  | percent _ _ hsign => exact isNegative_percent_eq_false (not_imp_comm.1 hsign hminus)
  | name _ _ hpercent => rw [Value.isNegative, hpercent, Bool.and_false]
  | color _ hs => exact isNegative_text_eq_false (head_ne_minus_of_isColor hs)
  | family _ _ hsign => exact isNegative_text_eq_false (mt hsign hminus)

/-- **Only margins, offsets and stacking positions are negative**, where no minus comes first in
brackets. -/
theorem ofClasses_unsigned {classes k : String} {v : Value}
    (h : (ofClasses classes).get? k = some v) (hk : k ∉ signedProperties)
    (hminus : ∀ token ∈ Text.words classes.toList, (tokenStyle token).get? k = some v →
      ¬ BracketsMinus token) : v.isNegative = false := by
  obtain ⟨token, htoken, hv, hgives⟩ := ofClasses_gives h
  exact hgives.isNegative_eq_false hk (hminus token htoken hv)

/-- The minus of a margin says nothing of a padding in brackets. -/
theorem padding_unsigned :
    (ofClasses "-m-5 p-[5]").get? "padding" = some (.number 5.0) ∧
      Value.isNegative (.number 5.0) = false := by
  have hpadding : (ofClasses "-m-5 p-[5]").get? "padding" = some (.number 5.0) := by decide
  have hminus : ∀ token ∈ Text.words "-m-5 p-[5]".toList, ¬ ['[', '-'] <:+: token := by decide
  exact ⟨hpadding, ofClasses_unsigned hpadding (by decide) fun token htoken _ =>
    hminus token htoken⟩

/-- Behind a bracket no rule looks for a minus. -/
theorem bracketedMinus_negative :
    "padding" ∉ signedProperties ∧
    (ofClasses "p-[-5]").get? "padding" = some (.number (-5.0)) ∧
    Value.isNegative (.number (-5.0)) = true ∧
    "width" ∉ signedProperties ∧
    (ofClasses "w-[-5%]").get? "width" = some (.text "-5%") ∧
    Value.isNegative (.text "-5%") = true := by
  decide +kernel

end Galley.Style
