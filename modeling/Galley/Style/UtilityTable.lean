import Galley.Style.Value

/-!
# Tables of utility classes

Which class names stand for fixed declarations, which name stems take a value, and the named
values of the scales.
-/

namespace Galley.Style

/-- How the value of a class is read, and which properties it sets. -/
inductive Rule where
  /-- A step of the spacing scale. -/
  | spacing (properties : List String)
  /-- A step of the spacing scale, possibly negative, or `auto`. -/
  | margin (properties : List String)
  /-- A length, possibly negative. -/
  | offset (properties : List String)
  /-- A length. -/
  | extent (properties : List String)
  /-- A font size or a text color. -/
  | text
  /-- A font weight or a font family. -/
  | font
  | background
  /-- A width for all edges or for some, or a color. -/
  | border
  | rounded
  | opacity
  | leading
  /-- A stacking position, possibly negative. -/
  | layer
  deriving DecidableEq

/-- Class names that stand for fixed declarations. -/
def keywords : List (String × List Declaration) := [
  ("flex", [("display", .text "flex")]),
  ("hidden", [("display", .text "none")]),
  ("flex-row", [("flexDirection", .text "row")]),
  ("flex-row-reverse", [("flexDirection", .text "row-reverse")]),
  ("flex-col", [("flexDirection", .text "column")]),
  ("flex-col-reverse", [("flexDirection", .text "column-reverse")]),
  ("flex-wrap", [("flexWrap", .text "wrap")]),
  ("flex-wrap-reverse", [("flexWrap", .text "wrap-reverse")]),
  ("flex-nowrap", [("flexWrap", .text "nowrap")]),
  ("flex-1", [("flexGrow", .number 1.0), ("flexShrink", .number 1.0), ("flexBasis", .text "0%")]),
  ("flex-auto",
    [("flexGrow", .number 1.0), ("flexShrink", .number 1.0), ("flexBasis", .text "auto")]),
  ("flex-initial",
    [("flexGrow", .number 0.0), ("flexShrink", .number 1.0), ("flexBasis", .text "auto")]),
  ("flex-none",
    [("flexGrow", .number 0.0), ("flexShrink", .number 0.0), ("flexBasis", .text "auto")]),
  ("grow", [("flexGrow", .number 1.0)]),
  ("grow-0", [("flexGrow", .number 0.0)]),
  ("shrink", [("flexShrink", .number 1.0)]),
  ("shrink-0", [("flexShrink", .number 0.0)]),
  ("justify-start", [("justifyContent", .text "flex-start")]),
  ("justify-end", [("justifyContent", .text "flex-end")]),
  ("justify-center", [("justifyContent", .text "center")]),
  ("justify-between", [("justifyContent", .text "space-between")]),
  ("justify-around", [("justifyContent", .text "space-around")]),
  ("justify-evenly", [("justifyContent", .text "space-evenly")]),
  ("items-start", [("alignItems", .text "flex-start")]),
  ("items-end", [("alignItems", .text "flex-end")]),
  ("items-center", [("alignItems", .text "center")]),
  ("items-baseline", [("alignItems", .text "baseline")]),
  ("items-stretch", [("alignItems", .text "stretch")]),
  ("self-auto", [("alignSelf", .text "auto")]),
  ("self-start", [("alignSelf", .text "flex-start")]),
  ("self-end", [("alignSelf", .text "flex-end")]),
  ("self-center", [("alignSelf", .text "center")]),
  ("self-baseline", [("alignSelf", .text "baseline")]),
  ("self-stretch", [("alignSelf", .text "stretch")]),
  ("content-start", [("alignContent", .text "flex-start")]),
  ("content-end", [("alignContent", .text "flex-end")]),
  ("content-center", [("alignContent", .text "center")]),
  ("content-between", [("alignContent", .text "space-between")]),
  ("content-around", [("alignContent", .text "space-around")]),
  ("content-stretch", [("alignContent", .text "stretch")]),
  ("text-left", [("textAlign", .text "left")]),
  ("text-center", [("textAlign", .text "center")]),
  ("text-right", [("textAlign", .text "right")]),
  ("text-justify", [("textAlign", .text "justify")]),
  ("italic", [("fontStyle", .text "italic")]),
  ("not-italic", [("fontStyle", .text "normal")]),
  ("underline", [("textDecoration", .text "underline")]),
  ("line-through", [("textDecoration", .text "line-through")]),
  ("no-underline", [("textDecoration", .text "none")]),
  ("uppercase", [("textTransform", .text "uppercase")]),
  ("lowercase", [("textTransform", .text "lowercase")]),
  ("capitalize", [("textTransform", .text "capitalize")]),
  ("normal-case", [("textTransform", .text "none")]),
  ("absolute", [("position", .text "absolute")]),
  ("relative", [("position", .text "relative")]),
  ("border", [("borderWidth", .number 1.0)]),
  ("border-solid", [("borderStyle", .text "solid")]),
  ("border-dashed", [("borderStyle", .text "dashed")]),
  ("border-dotted", [("borderStyle", .text "dotted")]),
  ("rounded", [("borderRadius", .number 4.0)]),
  ("overflow-hidden", [("overflow", .text "hidden")]),
  ("overflow-visible", [("overflow", .text "visible")]),
  ("object-contain", [("objectFit", .text "contain")]),
  ("object-cover", [("objectFit", .text "cover")]),
  ("object-fill", [("objectFit", .text "fill")]),
  ("object-none", [("objectFit", .text "none")]),
  ("object-scale-down", [("objectFit", .text "scale-down")])]

/-- Stems of class names that take a value. A longer stem comes before its own beginnings. -/
def stems : List (String × Rule) := [
  ("gap-x-", .spacing ["columnGap"]),
  ("gap-y-", .spacing ["rowGap"]),
  ("gap-", .spacing ["gap"]),
  ("px-", .spacing ["paddingLeft", "paddingRight"]),
  ("py-", .spacing ["paddingTop", "paddingBottom"]),
  ("pt-", .spacing ["paddingTop"]),
  ("pr-", .spacing ["paddingRight"]),
  ("pb-", .spacing ["paddingBottom"]),
  ("pl-", .spacing ["paddingLeft"]),
  ("p-", .spacing ["padding"]),
  ("mx-", .margin ["marginLeft", "marginRight"]),
  ("my-", .margin ["marginTop", "marginBottom"]),
  ("mt-", .margin ["marginTop"]),
  ("mr-", .margin ["marginRight"]),
  ("mb-", .margin ["marginBottom"]),
  ("ml-", .margin ["marginLeft"]),
  ("m-", .margin ["margin"]),
  ("inset-x-", .offset ["left", "right"]),
  ("inset-y-", .offset ["top", "bottom"]),
  ("inset-", .offset ["top", "right", "bottom", "left"]),
  ("top-", .offset ["top"]),
  ("right-", .offset ["right"]),
  ("bottom-", .offset ["bottom"]),
  ("left-", .offset ["left"]),
  ("min-w-", .extent ["minWidth"]),
  ("min-h-", .extent ["minHeight"]),
  ("max-w-", .extent ["maxWidth"]),
  ("max-h-", .extent ["maxHeight"]),
  ("size-", .extent ["width", "height"]),
  ("w-", .extent ["width"]),
  ("h-", .extent ["height"]),
  ("text-", .text),
  ("font-", .font),
  ("bg-", .background),
  ("border-", .border),
  ("rounded-", .rounded),
  ("opacity-", .opacity),
  ("leading-", .leading),
  ("z-", .layer)]

/-- The steps of the spacing scale, in units of four points. -/
def spacingSteps : List Float := [
  0.0, 0.5, 1.0, 1.5, 2.0, 2.5, 3.0, 3.5, 4.0, 5.0, 6.0, 7.0, 8.0, 9.0, 10.0, 11.0, 12.0, 14.0,
  16.0, 20.0, 24.0, 28.0, 32.0, 36.0, 40.0, 44.0, 48.0, 52.0, 56.0, 60.0, 64.0, 72.0, 80.0, 96.0]

/-- Font sizes by name. -/
def fontSizes : List (String × Float) := [
  ("xs", 12.0), ("sm", 14.0), ("base", 16.0), ("lg", 18.0), ("xl", 20.0), ("2xl", 24.0),
  ("3xl", 30.0), ("4xl", 36.0), ("5xl", 48.0), ("6xl", 60.0), ("7xl", 72.0), ("8xl", 96.0),
  ("9xl", 128.0)]

/-- Font weights by name. -/
def fontWeights : List (String × Float) := [
  ("thin", 100.0), ("extralight", 200.0), ("light", 300.0), ("normal", 400.0), ("medium", 500.0),
  ("semibold", 600.0), ("bold", 700.0), ("extrabold", 800.0), ("black", 900.0)]

/-- Font families by name. -/
def fontFamilies : List (String × String) := [
  ("sans", "Inter"), ("serif", "Merriweather"), ("mono", "Roboto Mono")]

/-- Corner radii by name. -/
def radii : List (String × Float) := [
  ("none", 0.0), ("sm", 2.0), ("md", 6.0), ("lg", 8.0), ("xl", 12.0), ("2xl", 16.0),
  ("3xl", 24.0), ("full", 9999.0)]

/-- Line heights by name. -/
def lineHeights : List (String × Float) := [
  ("none", 1.0), ("tight", 1.25), ("snug", 1.375), ("normal", 1.5), ("relaxed", 1.625),
  ("loose", 2.0)]

/-- Border widths by name. -/
def borderWidths : List (String × Float) := [("0", 0.0), ("2", 2.0), ("4", 4.0), ("8", 8.0)]

/-- The border widths that an edge name sets. -/
def borderEdges : List (String × List String) := [
  ("t", ["borderTopWidth"]), ("r", ["borderRightWidth"]), ("b", ["borderBottomWidth"]),
  ("l", ["borderLeftWidth"]), ("x", ["borderLeftWidth", "borderRightWidth"]),
  ("y", ["borderTopWidth", "borderBottomWidth"])]

/-- Stacking positions by name. -/
def layers : List (String × Float) := [
  ("0", 0.0), ("10", 10.0), ("20", 20.0), ("30", 30.0), ("40", 40.0), ("50", 50.0)]

end Galley.Style
