import Galley.Style.Palette
import Galley.Style.UtilityTable
import Galley.Text.Blank

/-!
# Utility classes

A class string is a list of tokens between blanks. Every token stands by itself for declarations
(`declarations`), none if it is not known, and the style of the string has them all, those of a
later token over those of an earlier one (`ofClasses`).

A token is a keyword, or a stem followed by a value, with a minus in front where the rule of the
stem allows it. Values are steps of the spacing scale (four points each), fractions, names of a
scale, colors, or anything that the rule can read in square brackets.
-/

namespace Galley.Style

/-! ## Values -/

/-- The entry of a table under a name. -/
def named? {α : Type} (table : List (String × α)) (name : List Char) : Option α :=
  (table.find? fun e => e.1.toList == name).map (·.2)

/-- A finite number. -/
def finite? (s : List Char) : Option Float :=
  (Decimal.read? s).filter Decimal.isFinite

/-- The text without a trailing unit of length. -/
def dropUnit (s : List Char) : List Char :=
  ((Text.beforeSuffix? "px" s).or (Text.beforeSuffix? "pt" s)).getD s

/-- A number in brackets, with an optional unit: `[12]`, `[12px]`. -/
def arbitrary? (s : List Char) : Option Float :=
  (Text.bracketed? s).bind fun inner => finite? (dropUnit inner)

/-- Points of a spacing value: `4` is 16, `px` is 1, `[10]` is 10. -/
def spacing? (s : List Char) : Option Float :=
  if s = "px".toList then some 1.0
  else (arbitrary? s).or ((Decimal.read? s).bind fun x =>
    if spacingSteps.contains x then some (x * 4.0) else none)

/-- A number with the sign of the token; zero has none. -/
def signed (negative : Bool) (x : Float) : Float :=
  if negative && x != 0.0 then -x else x

/-- The denominators of fractions. -/
def denominators : List Nat := [2, 3, 4, 5, 6, 12]

/-- A proper fraction as a percentage: `1/2`, `5/12`. -/
def fraction? (s : List Char) : Option Value := do
  let (num, den) ← Text.cutFirst? '/' s
  let num ← Decimal.readNat? 255 num
  let den ← Decimal.readNat? 255 den
  if denominators.contains den && 0 < num && num < den then
    some (.percent (Decimal.ofNat num / Decimal.ofNat den * 100.0))
  else none

/-- A percentage in brackets: `[12.5%]`. -/
def arbitraryPercent? (s : List Char) : Option Value := do
  let inner ← Text.bracketed? s
  let number ← Text.beforeSuffix? "%" inner
  let x ← Decimal.read? number
  some (.percent x)

/-- A length: `full`, `auto`, a fraction, a percentage in brackets or a spacing value. Only a
spacing value can be negative. -/
def length? (negative : Bool) (s : List Char) : Option Value :=
  let positive? :=
    if s = "full".toList then some (.text "100%")
    else if s = "auto".toList then some (.text "auto")
    else (fraction? s).or (arbitraryPercent? s)
  (if negative then none else positive?).or
    ((spacing? s).map fun x => .number (signed negative x))

/-- A font size or a color. -/
def textValue? (s : List Char) : Option Declaration :=
  match (named? fontSizes s).or (arbitrary? s) with
  | some size => some ("fontSize", .number size)
  | none => (color? s).map fun c => ("color", .text c)

/-- A family in brackets, with underscores for blanks. -/
def arbitraryFamily? (s : List Char) : Option String :=
  (Text.bracketed? s).bind fun inner =>
    if inner.isEmpty then none
    else some (String.ofList (inner.map fun c => if c = '_' then ' ' else c))

/-- A font weight or a family. -/
def fontValue? (s : List Char) : Option Declaration :=
  match named? fontWeights s with
  | some weight => some ("fontWeight", .number weight)
  | none =>
    ((named? fontFamilies s).or (arbitraryFamily? s)).map fun family =>
      ("fontFamily", .text family)

/-- A border width. -/
def borderWidth? (s : List Char) : Option Float :=
  (named? borderWidths s).or (arbitrary? s)

/-- Every property with the same value. -/
def assign (properties : List String) (v : Value) : List Declaration :=
  properties.map (·, v)

/-- A border width for all edges; an edge with an optional width; or a color. -/
def borderValue? (s : List Char) : Option (List Declaration) :=
  match borderWidth? s with
  | some width => some [("borderWidth", .number width)]
  | none =>
    let (edge, width) := match Text.cutFirst? '-' s with
      | some (edge, width) => (edge, some width)
      | none => (s, none)
    match named? borderEdges edge with
    | none => (color? s).map fun c => [("borderColor", .text c)]
    | some properties =>
      (match width with
        | none => some 1.0
        | some w => borderWidth? w).map fun w => assign properties (.number w)

/-- A multiple of five up to a hundred, as a part of one. -/
def opacity? (s : List Char) : Option Float :=
  (Decimal.readNat? 255 s).bind fun n =>
    if n ≤ 100 && n % 5 == 0 then some (Decimal.ofNat n / 100.0) else none

/-- A named line height, three to ten units of four points, or a number in brackets. -/
def lineHeight? (s : List Char) : Option Float :=
  match named? lineHeights s with
  | some ratio => some ratio
  | none =>
    match Decimal.readNat? 255 s with
    | some n => if 3 ≤ n && n ≤ 10 then some (Decimal.ofNat n * 4.0) else arbitrary? s
    | none => arbitrary? s

/-! ## Tokens -/

/-- The declarations of a stem's rule with a value, if the rule can read it. -/
def Rule.declarations? (negative : Bool) (value : List Char) : Rule → Option (List Declaration)
  | .spacing properties =>
    if negative then none
    else (spacing? value).map fun x => assign properties (.number x)
  | .margin properties =>
    if value = "auto".toList && !negative then some (assign properties (.text "auto"))
    else (spacing? value).map fun x => assign properties (.number (signed negative x))
  | .offset properties => (length? negative value).map (assign properties)
  | .extent properties => if negative then none else (length? false value).map (assign properties)
  | .text => if negative then none else (textValue? value).map ([·])
  | .font => if negative then none else (fontValue? value).map ([·])
  | .background =>
    if negative then none else (color? value).map fun c => [("backgroundColor", .text c)]
  | .border => if negative then none else borderValue? value
  | .rounded =>
    if negative then none
    else ((named? radii value).or (arbitrary? value)).map fun x => [("borderRadius", .number x)]
  | .opacity =>
    if negative then none else (opacity? value).map fun x => [("opacity", .number x)]
  | .leading =>
    if negative then none else (lineHeight? value).map fun x => [("lineHeight", .number x)]
  | .layer =>
    if value = "auto".toList && !negative then some [("zIndex", .text "auto")]
    else (named? layers value).map fun x => [("zIndex", .number (signed negative x))]

/-- A token as a sign and what follows it. -/
def signOf : List Char → Bool × List Char
  | '-' :: body => (true, body)
  | token => (false, token)

/-- The declarations of a token under one stem, if it begins with the stem and the stem's rule
can read the rest. -/
def stemDeclarations? (token : List Char) (stem : String × Rule) : Option (List Declaration) :=
  let (negative, body) := signOf token
  (Text.afterPrefix? stem.1 body).bind fun value => stem.2.declarations? negative value

/-- The declarations that a token stands for. -/
def declarations (token : List Char) : List Declaration :=
  match named? keywords token with
  | some ds => ds
  | none => (stems.findSome? (stemDeclarations? token)).getD []

/-- The style of a list of tokens. -/
def ofTokens (tokens : List (List Char)) : Style :=
  tokens.foldl (fun style token => style.insertAll (declarations token)) Dict.empty

/-- The style of a class string. -/
def ofClasses (classes : String) : Style := ofTokens (Text.words classes.toList)

end Galley.Style
