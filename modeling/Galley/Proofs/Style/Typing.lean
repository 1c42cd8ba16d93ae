import Galley.Font.Face
import Galley.Proofs.Decimal.Places
import Galley.Proofs.Style.ClassString
import Galley.Proofs.Text.Cut

/-!
# What class tokens give to properties

Every property of a style has a kind of values (`Kind`, `properties`), and the style of a class
string has values of these kinds only.

**One step.** `Gives token k v` lists all that a token can do: put a number, the opposite of a
number, a percentage, a name, a color or a family under a property of the kind in question
(`declarations_gives`). It keeps track of where a sign and a number that is not finite come from,
which are brackets in the token.

**Theorem (`ofClasses_typed`).** Whatever a class string sets is a documented property, with a value
of the kind of that property.

The tables are checked entry by entry (`keywords_plain`, `stems_fit`, `scales_amount`,
`palette_color`), and every reader of a value has one lemma about what it reads.
-/

namespace Galley.Style

open Decimal (isFinite Unsigned)

/-! ## Properties -/

/-- What the values of a property are. -/
inductive Kind where
  | number
  /-- A number or `auto`. -/
  | numberOrAuto
  /-- A number, `auto` or a percentage. -/
  | length
  /-- A number from zero to one. -/
  | ratio
  /-- What fonts take for a weight from 100 to 900. -/
  | weight
  /-- What fonts take for a slant. -/
  | slant
  | family
  | color
  | oneOf (names : List String)
  deriving DecidableEq

/-- Does the text end as a percentage does? -/
def endsInPercent (s : String) : Bool := s.toList.getLast? == some '%'

/-- Is the text a color: hexadecimal digits behind `#`, one of two keywords, or the call of a color
function? -/
def isColor (s : String) : Bool :=
  match s.toList with
  | '#' :: hex => [3, 4, 6, 8].contains hex.length && hex.all isHexDigit
  | cs =>
    ["transparent", "currentColor"].contains s ||
      ["rgb(", "rgba(", "hsl("].any fun f => f.toList.isPrefixOf cs

/-- Is the value of the kind? -/
def Kind.admits : Kind → Value → Bool
  | .number, .number x => isFinite x
  | .numberOrAuto, .number x => isFinite x
  | .numberOrAuto, .text s => s == "auto"
  | .length, .number x => isFinite x
  | .length, .text s => s == "auto" || endsInPercent s
  | .ratio, .number x => isFinite x && 0.0 ≤ x && x ≤ 1.0
  | .weight, .number x =>
    isFinite x && (Font.weight? (.number x)).any fun w => 100 ≤ w && w ≤ 900
  | .weight, .text s => (Font.weight? (.text s)).any fun w => 100 ≤ w && w ≤ 900
  | .slant, .text s => (Font.Slant.parse? s).isSome
  | .family, .text s => s != ""
  | .color, .text s => isColor s
  | .oneOf names, .text s => names.contains s
  | _, _ => false

/-- The properties that classes can set. -/
def properties : Fields Kind := [
  ("padding", .number), ("paddingTop", .number), ("paddingRight", .number),
  ("paddingBottom", .number), ("paddingLeft", .number),
  ("gap", .number), ("rowGap", .number), ("columnGap", .number),
  ("margin", .numberOrAuto), ("marginTop", .numberOrAuto), ("marginRight", .numberOrAuto),
  ("marginBottom", .numberOrAuto), ("marginLeft", .numberOrAuto),
  ("top", .length), ("right", .length), ("bottom", .length), ("left", .length),
  ("width", .length), ("height", .length), ("minWidth", .length), ("minHeight", .length),
  ("maxWidth", .length), ("maxHeight", .length),
  ("display", .oneOf ["flex", "none"]),
  ("flexDirection", .oneOf ["row", "row-reverse", "column", "column-reverse"]),
  ("flexWrap", .oneOf ["wrap", "wrap-reverse", "nowrap"]),
  ("flexGrow", .number), ("flexShrink", .number), ("flexBasis", .length),
  ("justifyContent", .oneOf ["flex-start", "flex-end", "center", "space-between", "space-around",
    "space-evenly"]),
  ("alignItems", .oneOf ["flex-start", "flex-end", "center", "baseline", "stretch"]),
  ("alignSelf", .oneOf ["auto", "flex-start", "flex-end", "center", "baseline", "stretch"]),
  ("alignContent", .oneOf ["flex-start", "flex-end", "center", "space-between", "space-around",
    "stretch"]),
  ("position", .oneOf ["absolute", "relative"]), ("zIndex", .numberOrAuto),
  ("overflow", .oneOf ["hidden", "visible"]),
  ("objectFit", .oneOf ["contain", "cover", "fill", "none", "scale-down"]),
  ("borderWidth", .number), ("borderTopWidth", .number), ("borderRightWidth", .number),
  ("borderBottomWidth", .number), ("borderLeftWidth", .number),
  ("borderStyle", .oneOf ["solid", "dashed", "dotted"]), ("borderRadius", .number),
  ("color", .color), ("backgroundColor", .color), ("borderColor", .color), ("opacity", .ratio),
  ("fontFamily", .family), ("fontSize", .number), ("fontWeight", .weight), ("fontStyle", .slant),
  ("lineHeight", .number),
  ("textAlign", .oneOf ["left", "center", "right", "justify"]),
  ("textDecoration", .oneOf ["underline", "line-through", "none"]),
  ("textTransform", .oneOf ["uppercase", "lowercase", "capitalize", "none"])]

/-- The kind of a property, if there is one of that name. -/
def kindOf? (k : String) : Option Kind := properties.get? k

/-- The properties that may be negative: margins, offsets and the stacking position. -/
def signedProperties : List String := [
  "margin", "marginTop", "marginRight", "marginBottom", "marginLeft",
  "top", "right", "bottom", "left", "zIndex"]

/-! ## Tables -/

/-- A finite number that is not below zero. -/
def IsAmount (x : Float) : Prop := isFinite x = true ∧ ¬ x < 0.0

instance (x : Float) : Decidable (IsAmount x) := inferInstanceAs (Decidable (_ ∧ _))

/-- The properties of a rule are of the kind of its values, and of those that may be negative, if
the values may. -/
def Rule.fits : Rule → Bool
  | .spacing ks => ks.all fun k => kindOf? k = some .number
  | .margin ks => ks.all fun k => kindOf? k = some .numberOrAuto ∧ k ∈ signedProperties
  | .offset ks => ks.all fun k => kindOf? k = some .length ∧ k ∈ signedProperties
  | .extent ks => ks.all fun k => kindOf? k = some .length
  | _ => true

theorem stems_fit : ∀ stem ∈ stems, stem.2.fits = true := by decide

/-- The declaration has a name or an amount of the kind of its property, or is of zero percent. -/
def isPlain : Declaration → Bool
  | (k, .number x) => (kindOf? k).any fun kind => kind.admits (.number x) && !(x < 0.0 : Bool)
  | (k, .text s) => (kindOf? k).any fun kind =>
    kind.admits (.text s) && (!endsInPercent s || kind = .length ∧ s = "0%")

set_option maxRecDepth 2000 in
theorem keywords_plain : ∀ e ∈ keywords, ∀ d ∈ e.2, isPlain d = true := by decide

/-- The tables of numbers. -/
def scales : List (List (String × Float)) := [fontSizes, radii, lineHeights, borderWidths, layers]

theorem scales_amount : ∀ scale ∈ scales, ∀ e ∈ scale, IsAmount e.2 := by decide

theorem one_amount : IsAmount 1.0 := by decide

-- A number may be a step without being the same double: there are two zeros.
theorem steps_amount : ∀ x ∈ -0.0 :: 0.0 :: spacingSteps, IsAmount (x * 4.0) := by decide

theorem units_amount : ∀ n < 11, IsAmount (Decimal.ofNat n * 4.0) := by decide

theorem fontWeights_admitted :
    ∀ e ∈ fontWeights, Kind.admits .weight (.number e.2) = true ∧ IsAmount e.2 := by
  decide

set_option maxRecDepth 2000 in
theorem parts_admitted : ∀ n < 101,
    Kind.admits .ratio (.number (Decimal.ofNat n / 100.0)) = true ∧
      IsAmount (Decimal.ofNat n / 100.0) := by
  decide

theorem fractions_finite : ∀ den ∈ denominators, ∀ num < den,
    isFinite (Decimal.ofNat num / Decimal.ofNat den * 100.0) = true ∧
      Unsigned (Decimal.ofNat num / Decimal.ofNat den * 100.0) := by
  decide

/-- The percentages that are written out. -/
def writtenPercents : List (String × Float) := [("0%", 0.0), ("100%", 100.0)]

theorem writtenPercents_finite : ∀ e ∈ writtenPercents,
    Value.text e.1 = .percent e.2 ∧ isFinite e.2 = true ∧ Unsigned e.2 := by
  decide +kernel

theorem palette_color : ∀ family ∈ palette, ∀ c ∈ family.2, isColor c = true := by decide +kernel

section

variable {α : Type} {table : List (String × α)} {name : List Char}

/-- What holds of the entries of a table holds of what is found there. -/
theorem of_named? (P : α → Prop) (htable : ∀ e ∈ table, P e.2) {v : α}
    (h : named? table name = some v) : P v := by
  obtain ⟨e, hfind, rfl⟩ := Option.map_eq_some_iff.1 h
  exact htable e (List.mem_of_find?_eq_some hfind)

end

/-! ## What a token gives -/

/-- A minus comes first in brackets. -/
def BracketsMinus (token : List Char) : Prop := ['[', '-'] <:+: token

/-- The token ends in a percentage in brackets that is not a finite number. -/
def BracketsEndless (token : List Char) : Prop :=
  ∃ number x, '[' :: (number ++ ['%', ']']) <:+ token ∧ Decimal.read? number = some x ∧
    isFinite x = false

/-- What a token can put under a property. -/
inductive Gives (token : List Char) : String → Value → Prop
  | number {k : String} {kind : Kind} {x : Float} (hk : kindOf? k = some kind)
      (hx : kind.admits (.number x) = true) (hsign : x < 0.0 → BracketsMinus token) :
      Gives token k (.number x)
  | opposite {k : String} {kind : Kind} {x : Float} (hk : kindOf? k = some kind)
      (hsigned : k ∈ signedProperties) (hx : kind.admits (.number (-x)) = true) :
      Gives token k (.number (-x))
  | percent {k : String} {x : Float} (hk : kindOf? k = some .length)
      (hx : isFinite x = true ∨ BracketsEndless token)
      (hsign : ¬ Unsigned x → BracketsMinus token) : Gives token k (.percent x)
  | name {k s : String} {kind : Kind} (hk : kindOf? k = some kind)
      (hs : kind.admits (.text s) = true) (hpercent : endsInPercent s = false) :
      Gives token k (.text s)
  | color {k s : String} (hk : kindOf? k = some .color) (hs : isColor s = true) :
      Gives token k (.text s)
  | family {k s : String} (hk : kindOf? k = some .family) (hs : s ≠ "")
      (hsign : s.toList.head? = some '-' → BracketsMinus token) : Gives token k (.text s)

theorem Gives.of_suffix {value token : List Char} {k : String} {v : Value} (h : Gives value k v)
    (hsuffix : value <:+ token) : Gives token k v := by
  have hminus : BracketsMinus value → BracketsMinus token := (·.trans hsuffix.isInfix)
  cases h with
  | number hk hx hsign => exact .number hk hx (hminus ∘ hsign)
  | opposite hk hsigned hx => exact .opposite hk hsigned hx
  | percent hk hx hsign =>
    refine .percent hk (hx.imp_right ?_) (hminus ∘ hsign)
    exact fun ⟨digits, x, hend, hread⟩ => ⟨digits, x, hend.trans hsuffix, hread⟩
  | name hk hs hpercent => exact .name hk hs hpercent
  | color hk hs => exact .color hk hs
  | family hk hs hsign => exact .family hk hs (hminus ∘ hsign)

/-! ## Numbers -/

/-- The number is finite, and the minus of a number below zero comes from brackets. -/
structure Measures (value : List Char) (x : Float) : Prop where
  finite : isFinite x = true
  sign : x < 0.0 → BracketsMinus value

theorem IsAmount.measures {x : Float} (hx : IsAmount x) (value : List Char) : Measures value x :=
  ⟨hx.1, fun hlt => absurd hlt hx.2⟩

theorem measures_of_named? {scale : List (String × Float)} {value name : List Char} {x : Float}
    (hscale : scale ∈ scales) (h : named? scale name = some x) : Measures value x :=
  (of_named? IsAmount (scales_amount scale hscale) h).measures value

/-- A number at the beginning of brackets that has a sign begins with a minus. -/
theorem bracketsMinus_of_read? {value digits rest : List Char} {x : Float}
    (hvalue : '[' :: (digits ++ rest) = value) (hread : Decimal.read? digits = some x)
    (hx : ¬ Unsigned x) : BracketsMinus value := by
  have hhead : digits.head? = some '-' := by
    by_contra hhead
    exact hx (Decimal.unsigned_of_read? hread hhead)
  obtain ⟨more, rfl⟩ := List.head?_eq_some_iff.1 hhead
  rw [← hvalue]
  exact List.IsPrefix.isInfix ⟨more ++ rest, rfl⟩

theorem exists_unit (inner : List Char) : ∃ unit, dropUnit inner ++ unit = inner := by
  unfold dropUnit
  cases hunit : (Text.beforeSuffix? "px" inner).or (Text.beforeSuffix? "pt" inner) with
  | none => exact ⟨[], List.append_nil _⟩
  | some front =>
    rcases Option.or_eq_some_iff.1 hunit with h | ⟨-, h⟩
    · exact ⟨_, Text.beforeSuffix?_eq_some.1 h⟩
    · exact ⟨_, Text.beforeSuffix?_eq_some.1 h⟩

theorem measures_of_arbitrary? {value : List Char} {x : Float} (h : arbitrary? value = some x) :
    Measures value x := by
  obtain ⟨inner, hinner, hx⟩ := Option.bind_eq_some_iff.1 h
  obtain ⟨hread, hfinite⟩ := Option.filter_eq_some_iff.1 hx
  obtain ⟨unit, hunit⟩ := exists_unit inner
  have hvalue : '[' :: (dropUnit inner ++ (unit ++ [']'])) = value := by
    rw [← List.append_assoc, hunit]
    exact Text.bracketed?_eq_some.1 hinner
  exact ⟨hfinite, fun hlt => bracketsMinus_of_read? hvalue hread fun hx => hx.not_lt_zero hlt⟩

/-- A name of a scale, or a number in brackets. -/
theorem measures_of_named?_or {scale : List (String × Float)} {value : List Char} {x : Float}
    (hscale : scale ∈ scales) (h : (named? scale value).or (arbitrary? value) = some x) :
    Measures value x := by
  rcases Option.or_eq_some_iff.1 h with h | ⟨-, h⟩
  · exact measures_of_named? hscale h
  · exact measures_of_arbitrary? h

theorem measures_of_spacing? {value : List Char} {x : Float} (h : spacing? value = some x) :
    Measures value x := by
  unfold spacing? at h
  split at h
  · cases h
    exact one_amount.measures value
  rcases Option.or_eq_some_iff.1 h with h | ⟨-, h⟩
  · exact measures_of_arbitrary? h
  obtain ⟨y, -, h⟩ := Option.bind_eq_some_iff.1 h
  obtain ⟨hcontains, h⟩ := Option.ite_none_right_eq_some.1 h
  cases h
  obtain ⟨step, hstep, hbeq⟩ := List.contains_iff_exists_mem_beq.1 hcontains
  refine (steps_amount y ?_).measures value
  rcases Decimal.eq_or_zeros_of_beq hbeq with rfl | ⟨rfl | rfl, -⟩
  · exact List.mem_cons_of_mem _ (List.mem_cons_of_mem _ hstep)
  · exact List.mem_cons_of_mem _ List.mem_cons_self
  · exact List.mem_cons_self

theorem measures_of_borderWidth? {value : List Char} {x : Float} (h : borderWidth? value = some x) :
    Measures value x :=
  measures_of_named?_or (by simp [scales]) h

theorem measures_of_lineHeight? {value : List Char} {x : Float} (h : lineHeight? value = some x) :
    Measures value x := by
  unfold lineHeight? at h
  split at h
  · rename_i hnamed
    cases h
    exact measures_of_named? (by simp [scales]) hnamed
  split at h
  · split_ifs at h with hn
    · cases h
      simp only [Bool.and_eq_true, decide_eq_true_eq] at hn
      exact (units_amount _ (by omega)).measures value
    · exact measures_of_arbitrary? h
  · exact measures_of_arbitrary? h

section

variable {value : List Char} {k : String} {kind : Kind} {x : Float}

theorem Measures.gives (h : Measures value x) (hk : kindOf? k = some kind)
    (hadmits : kind.admits (.number x) = isFinite x) : Gives value k (.number x) :=
  .number hk (hadmits.trans h.finite) h.sign

theorem Measures.gives_signed (h : Measures value x) (hk : kindOf? k = some kind)
    (hadmits : ∀ y, kind.admits (.number y) = isFinite y) {negative : Bool}
    (hsigned : negative = true → k ∈ signedProperties) :
    Gives value k (.number (signed negative x)) := by
  unfold signed
  split
  · rename_i hnegative
    refine .opposite hk (hsigned (Bool.and_eq_true_iff.1 hnegative).1) ?_
    exact (hadmits _).trans (Decimal.isFinite_neg h.finite)
  · exact h.gives hk (hadmits x)

end

/-! ## Texts -/

theorem isColor_of_isColorText {s : List Char} (h : isColorText s = true) :
    isColor (String.ofList s) = true := by
  unfold isColorText at h
  unfold isColor
  rw [String.toList_ofList]
  split at h
  · rename_i hex hhash
    obtain rfl : '#' :: hex = s := Text.afterPrefix?_eq_some.1 hhash
    simpa [or_assoc] using h
  · rename_i hhash
    split
    · rename_i hex
      exact absurd hhash (Option.ne_none_iff_exists'.2 ⟨hex, Text.afterPrefix?_eq_some.2 rfl⟩)
    · have hcall : (["rgb(", "rgba(", "hsl("].any fun f => f.toList.isPrefixOf s) = true := by
        simpa [Text.startsWith, or_assoc] using h
      rw [hcall, Bool.or_true]

theorem isColor_of_shade? {s : List Char} {c : String} (h : shade? s = some c) :
    isColor c = true := by
  unfold shade? at h
  simp only [Option.bind_eq_bind, Option.bind_eq_some_iff] at h
  obtain ⟨_, -, _, -, _, -, family, hfamily, hshade⟩ := h
  exact palette_color family (List.mem_of_find?_eq_some hfamily) c (List.mem_of_getElem? hshade)

theorem isColor_of_color? {s : List Char} {c : String} (h : color? s = some c) :
    isColor c = true := by
  unfold color? at h
  split at h
  · rename_i hkeyword
    cases h
    have hkeywords : ∀ e ∈ colorKeywords, isColor e.2 = true := by decide
    exact hkeywords _ (List.mem_of_find?_eq_some hkeyword)
  · split at h
    · obtain ⟨htext, h⟩ := Option.ite_none_right_eq_some.1 h
      cases h
      exact isColor_of_isColorText htext
    · exact isColor_of_shade? h

theorem family_of_arbitraryFamily? {value : List Char} {family : String}
    (h : arbitraryFamily? value = some family) :
    family ≠ "" ∧ (family.toList.head? = some '-' → BracketsMinus value) := by
  obtain ⟨inner, hinner, h⟩ := Option.bind_eq_some_iff.1 h
  obtain ⟨hne, h⟩ := Option.ite_none_left_eq_some.1 h
  cases h
  rw [← Text.bracketed?_eq_some.1 hinner]
  cases inner with
  | nil => exact absurd rfl hne
  | cons c inner =>
    refine ⟨fun hempty => by simpa using congrArg String.toList hempty, fun hhead => ?_⟩
    have hc : c = '-' := by
      rw [String.toList_ofList, List.map_cons, List.head?_cons] at hhead
      split at hhead
      · exact absurd hhead (by decide)
      · exact Option.some.inj hhead
    rw [hc]
    exact List.IsPrefix.isInfix ⟨inner ++ [']'], rfl⟩

/-! ## Lengths -/

theorem gives_of_writtenPercent {token : List Char} {k s : String} {x : Float}
    (hk : kindOf? k = some .length) (h : (s, x) ∈ writtenPercents) : Gives token k (.text s) := by
  obtain ⟨htext, hfinite, hsign⟩ := writtenPercents_finite _ h
  rw [htext]
  exact .percent hk (.inl hfinite) fun h => absurd hsign h

theorem gives_of_fraction? {value : List Char} {k : String} {v : Value}
    (hk : kindOf? k = some .length) (h : fraction? value = some v) : Gives value k v := by
  unfold fraction? at h
  simp only [Option.bind_eq_bind, Option.bind_eq_some_iff] at h
  obtain ⟨-, -, num, -, den, -, h⟩ := h
  obtain ⟨hproper, h⟩ := Option.ite_none_right_eq_some.1 h
  cases h
  simp only [Bool.and_eq_true, List.contains_iff_mem, decide_eq_true_eq] at hproper
  obtain ⟨hfinite, hsign⟩ := fractions_finite den hproper.1.1 num hproper.2
  exact .percent hk (.inl hfinite) fun h => absurd hsign h

theorem gives_of_arbitraryPercent? {value : List Char} {k : String} {v : Value}
    (hk : kindOf? k = some .length) (h : arbitraryPercent? value = some v) : Gives value k v := by
  unfold arbitraryPercent? at h
  simp only [Option.bind_eq_bind, Option.bind_eq_some_iff] at h
  obtain ⟨inner, hinner, digits, hdigits, x, hread, h⟩ := h
  cases h
  have hvalue : '[' :: (digits ++ ['%', ']']) = value := by
    rw [← Text.bracketed?_eq_some.1 hinner, ← Text.beforeSuffix?_eq_some.1 hdigits]
    simp
  refine .percent hk ?_ (bracketsMinus_of_read? hvalue hread)
  cases hx : isFinite x with
  | true => exact .inl rfl
  | false => exact .inr ⟨digits, x, hvalue ▸ List.suffix_rfl, hread, hx⟩

theorem gives_of_length? {negative : Bool} {value : List Char} {k : String} {v : Value}
    (hk : kindOf? k = some .length) (hsigned : negative = true → k ∈ signedProperties)
    (h : length? negative value = some v) : Gives value k v := by
  rcases Option.or_eq_some_iff.1 h with h | ⟨-, h⟩
  · obtain ⟨-, h⟩ := Option.ite_none_left_eq_some.1 h
    split_ifs at h
    · cases h
      exact gives_of_writtenPercent hk (List.mem_cons_of_mem _ List.mem_cons_self)
    · cases h
      exact .name hk rfl rfl
    · rcases Option.or_eq_some_iff.1 h with h | ⟨-, h⟩
      · exact gives_of_fraction? hk h
      · exact gives_of_arbitraryPercent? hk h
  · obtain ⟨x, hx, rfl⟩ := Option.map_eq_some_iff.1 h
    exact (measures_of_spacing? hx).gives_signed hk (fun _ => rfl) hsigned

/-! ## Declarations -/

theorem gives_of_textValue? {value : List Char} {k : String} {v : Value}
    (h : textValue? value = some (k, v)) : Gives value k v := by
  unfold textValue? at h
  split at h
  · rename_i size hsize
    cases h
    exact (measures_of_named?_or (by simp [scales]) hsize).gives rfl rfl
  · obtain ⟨c, hc, h⟩ := Option.map_eq_some_iff.1 h
    cases h
    exact .color rfl (isColor_of_color? hc)

theorem gives_of_fontValue? {value : List Char} {k : String} {v : Value}
    (h : fontValue? value = some (k, v)) : Gives value k v := by
  unfold fontValue? at h
  split at h
  · rename_i weight hweight
    cases h
    obtain ⟨hadmits, hamount⟩ := of_named?
      (fun x => Kind.admits .weight (.number x) = true ∧ IsAmount x) fontWeights_admitted hweight
    exact .number rfl hadmits (hamount.measures value).sign
  · obtain ⟨family, hfamily, h⟩ := Option.map_eq_some_iff.1 h
    cases h
    rcases Option.or_eq_some_iff.1 hfamily with hnamed | ⟨-, harbitrary⟩
    · have hs := of_named? (fun s => s ≠ "" ∧ s.toList.head? ≠ some '-') (by decide) hnamed
      exact .family rfl hs.1 fun hhead => absurd hhead hs.2
    · obtain ⟨hs, hsign⟩ := family_of_arbitraryFamily? harbitrary
      exact .family rfl hs hsign

/-- The properties of an assignment all get its value. -/
theorem mem_assign {ks : List String} {v v' : Value} {k : String} :
    (k, v) ∈ assign ks v' ↔ k ∈ ks ∧ v = v' := by
  simp [assign, eq_comm]

theorem gives_of_borderValue? {value : List Char} {ds : List Declaration} {k : String} {v : Value}
    (h : borderValue? value = some ds) (hd : (k, v) ∈ ds) : Gives value k v := by
  unfold borderValue? at h
  split at h
  · rename_i width hwidth
    cases h
    cases List.mem_singleton.1 hd
    exact (measures_of_borderWidth? hwidth).gives rfl rfl
  · split at h
    rename_i edge width hcut
    have hsuffix : ∀ w, width = some w → w <:+ value := by
      rintro w rfl
      cases hpair : Text.cutFirst? '-' value with
      | none => simp [hpair] at hcut
      | some pair =>
        obtain ⟨edge, rest⟩ := pair
        obtain ⟨-, rfl⟩ : _ ∧ rest = w := by simpa [hpair] using hcut
        rw [Text.eq_of_cutFirst? hpair]
        exact ⟨edge ++ ['-'], by simp⟩
    split at h
    · obtain ⟨c, hc, h⟩ := Option.map_eq_some_iff.1 h
      cases h
      cases List.mem_singleton.1 hd
      exact .color rfl (isColor_of_color? hc)
    · rename_i ks hks
      obtain ⟨x, hx, h⟩ := Option.map_eq_some_iff.1 h
      cases h
      obtain ⟨hk, rfl⟩ := mem_assign.1 hd
      have hkind := of_named? (∀ k ∈ ·, kindOf? k = some .number) (by decide) hks k hk
      split at hx
      · cases hx
        exact (one_amount.measures value).gives hkind rfl
      · exact ((measures_of_borderWidth? hx).gives hkind rfl).of_suffix (hsuffix _ rfl)

/-! ## Rules -/

theorem Rule.declarations?_gives {rule : Rule} (hfits : rule.fits = true) {negative : Bool}
    {value : List Char} {ds : List Declaration} (h : rule.declarations? negative value = some ds)
    {k : String} {v : Value} (hd : (k, v) ∈ ds) : Gives value k v := by
  cases rule with
  | spacing ks =>
    obtain ⟨-, h⟩ := Option.ite_none_left_eq_some.1 h
    obtain ⟨x, hx, rfl⟩ := Option.map_eq_some_iff.1 h
    obtain ⟨hk, rfl⟩ := mem_assign.1 hd
    exact (measures_of_spacing? hx).gives (of_decide_eq_true (List.all_eq_true.1 hfits k hk)) rfl
  | margin ks =>
    have hks : ∀ k ∈ ks, kindOf? k = some .numberOrAuto ∧ k ∈ signedProperties := fun k hk =>
      of_decide_eq_true (List.all_eq_true.1 hfits k hk)
    simp only [Rule.declarations?] at h
    split at h
    · cases h
      obtain ⟨hk, rfl⟩ := mem_assign.1 hd
      exact .name (hks k hk).1 rfl rfl
    · obtain ⟨x, hx, rfl⟩ := Option.map_eq_some_iff.1 h
      obtain ⟨hk, rfl⟩ := mem_assign.1 hd
      exact (measures_of_spacing? hx).gives_signed (hks k hk).1 (fun _ => rfl) fun _ => (hks k hk).2
  | offset ks =>
    obtain ⟨v', hv, rfl⟩ := Option.map_eq_some_iff.1 h
    obtain ⟨hk, rfl⟩ := mem_assign.1 hd
    obtain ⟨hkind, hsigned⟩ := of_decide_eq_true (List.all_eq_true.1 hfits k hk)
    exact gives_of_length? hkind (fun _ => hsigned) hv
  | extent ks =>
    obtain ⟨-, h⟩ := Option.ite_none_left_eq_some.1 h
    obtain ⟨v', hv, rfl⟩ := Option.map_eq_some_iff.1 h
    obtain ⟨hk, rfl⟩ := mem_assign.1 hd
    exact gives_of_length? (of_decide_eq_true (List.all_eq_true.1 hfits k hk)) (by simp) hv
  | text =>
    obtain ⟨-, h⟩ := Option.ite_none_left_eq_some.1 h
    obtain ⟨d, hvalue, rfl⟩ := Option.map_eq_some_iff.1 h
    cases List.mem_singleton.1 hd
    exact gives_of_textValue? hvalue
  | font =>
    obtain ⟨-, h⟩ := Option.ite_none_left_eq_some.1 h
    obtain ⟨d, hvalue, rfl⟩ := Option.map_eq_some_iff.1 h
    cases List.mem_singleton.1 hd
    exact gives_of_fontValue? hvalue
  | background =>
    obtain ⟨-, h⟩ := Option.ite_none_left_eq_some.1 h
    obtain ⟨c, hc, rfl⟩ := Option.map_eq_some_iff.1 h
    cases List.mem_singleton.1 hd
    exact .color rfl (isColor_of_color? hc)
  | border =>
    obtain ⟨-, h⟩ := Option.ite_none_left_eq_some.1 h
    exact gives_of_borderValue? h hd
  | rounded =>
    obtain ⟨-, h⟩ := Option.ite_none_left_eq_some.1 h
    obtain ⟨x, hx, rfl⟩ := Option.map_eq_some_iff.1 h
    cases List.mem_singleton.1 hd
    exact (measures_of_named?_or (by simp [scales]) hx).gives rfl rfl
  | opacity =>
    obtain ⟨-, h⟩ := Option.ite_none_left_eq_some.1 h
    obtain ⟨x, hx, rfl⟩ := Option.map_eq_some_iff.1 h
    cases List.mem_singleton.1 hd
    obtain ⟨n, -, hx⟩ := Option.bind_eq_some_iff.1 hx
    obtain ⟨hn, hx⟩ := Option.ite_none_right_eq_some.1 hx
    cases hx
    simp only [Bool.and_eq_true, decide_eq_true_eq] at hn
    obtain ⟨hadmits, hamount⟩ := parts_admitted n (by omega)
    exact .number rfl hadmits (hamount.measures value).sign
  | leading =>
    obtain ⟨-, h⟩ := Option.ite_none_left_eq_some.1 h
    obtain ⟨x, hx, rfl⟩ := Option.map_eq_some_iff.1 h
    cases List.mem_singleton.1 hd
    exact (measures_of_lineHeight? hx).gives rfl rfl
  | layer =>
    simp only [Rule.declarations?] at h
    split at h
    · cases h
      cases List.mem_singleton.1 hd
      exact .name (show kindOf? "zIndex" = some .numberOrAuto from rfl) rfl rfl
    · obtain ⟨x, hx, rfl⟩ := Option.map_eq_some_iff.1 h
      cases List.mem_singleton.1 hd
      have hmeasures : Measures value x := measures_of_named? (by simp [scales]) hx
      exact hmeasures.gives_signed rfl (fun _ => rfl) fun _ => by decide

/-! ## Tokens -/

theorem gives_of_isPlain {token : List Char} {k : String} {v : Value}
    (h : isPlain (k, v) = true) : Gives token k v := by
  cases v with
  | number x =>
    obtain ⟨kind, hk, h⟩ := (Option.any_eq_true _ _).1 h
    obtain ⟨hx, hsign⟩ := Bool.and_eq_true_iff.1 h
    exact .number hk hx fun hlt => by simp [hlt] at hsign
  | text s =>
    obtain ⟨kind, hk, h⟩ := (Option.any_eq_true _ _).1 h
    obtain ⟨hs, h⟩ := Bool.and_eq_true_iff.1 h
    rcases Bool.or_eq_true_iff.1 h with hpercent | hzero
    · exact .name hk hs (by simpa using hpercent)
    · obtain ⟨rfl, rfl⟩ := of_decide_eq_true hzero
      exact gives_of_writtenPercent hk List.mem_cons_self

theorem signOf_suffix (token : List Char) : (signOf token).2 <:+ token := by
  unfold signOf
  split
  · exact List.suffix_cons _ _
  · exact List.suffix_rfl

/-- **All that a token can do.** -/
theorem declarations_gives {token : List Char} {k : String} {v : Value}
    (h : (k, v) ∈ declarations token) : Gives token k v := by
  unfold declarations at h
  split at h
  · rename_i ds hds
    exact gives_of_isPlain (of_named? (∀ d ∈ ·, isPlain d = true) keywords_plain hds _ h)
  · cases hstems : stems.findSome? (stemDeclarations? token) with
    | none =>
      rw [hstems] at h
      cases h
    | some ds =>
      rw [hstems] at h
      obtain ⟨stem, hstem, hds⟩ := List.exists_of_findSome?_eq_some hstems
      obtain ⟨value, hvalue, hds⟩ := Option.bind_eq_some_iff.1 hds
      refine (Rule.declarations?_gives (stems_fit stem hstem) hds h).of_suffix ?_
      exact .trans ⟨_, Text.afterPrefix?_eq_some.1 hvalue⟩ (signOf_suffix token)

/-- The value of a property in the style of a class string is one that a token gives to it. -/
theorem ofClasses_gives {classes k : String} {v : Value} (h : (ofClasses classes).get? k = some v) :
    ∃ token ∈ Text.words classes.toList, (tokenStyle token).get? k = some v ∧ Gives token k v := by
  rw [ofClasses, get?_ofTokens] at h
  obtain ⟨token, htoken, hv⟩ := List.exists_of_findSome?_eq_some h
  refine ⟨token, List.mem_reverse.1 htoken, hv, declarations_gives ?_⟩
  rw [tokenStyle, Dict.get?_ofList] at hv
  exact List.mem_reverse.1 (Fields.mem_of_get? hv)

theorem Gives.typed {token : List Char} {k : String} {v : Value} (h : Gives token k v) :
    ∃ kind, kindOf? k = some kind ∧ kind.admits v = true := by
  cases h with
  | number hk hx => exact ⟨_, hk, hx⟩
  | opposite hk _ hx => exact ⟨_, hk, hx⟩
  | percent hk =>
    refine ⟨_, hk, ?_⟩
    simp [Kind.admits, endsInPercent, Value.percent]
  | name hk hs => exact ⟨_, hk, hs⟩
  | color hk hs => exact ⟨_, hk, hs⟩
  | family hk hs => exact ⟨_, hk, by simpa [Kind.admits] using hs⟩

/-- **The styles of class strings are typed**: whatever is set is one of the properties, with a
value of the kind of that property. -/
theorem ofClasses_typed {classes k : String} {v : Value} (h : (ofClasses classes).get? k = some v) :
    ∃ kind, kindOf? k = some kind ∧ kind.admits v = true := by
  obtain ⟨token, -, -, hgives⟩ := ofClasses_gives h
  exact hgives.typed

/-- A size and a color under one stem, both in brackets. -/
theorem bracketedText_typed :
    (ofClasses "text-[12px] text-[#369]").get? "color" = some (.text "#369") ∧
      ∃ kind, kindOf? "color" = some kind ∧ kind.admits (.text "#369") = true := by
  have hcolor : (ofClasses "text-[12px] text-[#369]").get? "color" = some (.text "#369") := by
    decide
  exact ⟨hcolor, ofClasses_typed hcolor⟩

end Galley.Style
