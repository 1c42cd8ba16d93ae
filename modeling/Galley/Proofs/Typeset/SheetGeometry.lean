import Galley.Proofs.Markup.Geometry
import Galley.Proofs.Typeset.Expansion
import Galley.Proofs.Typeset.ReferenceText
import Galley.Settings.Decode

/-!
# The geometry of sheets

A sheet has the size and the margin that its page declares; a page that declares none has the
default size of the settings, and no margin, and so has a root that is no page.

**Theorem (`typeset_geometry`).** Settings and a tree that are read from texts give sheets with
finite sides and edges. A page stands as it declares, and its sides are those of its size, or of the
default, in one order or the other. A size that is declared is positive. The default size is used as
it is, and so a sheet of that size is positive only if the settings say so (`barePage_flat`).
-/

namespace Galley

/-! ## The default size -/

namespace Settings

theorem Typesetting.decode_finite {v : Json} {s : Typesetting} (h : decode v = .ok s) :
    s.pageSize.Finite := by
  have hdecode : ∀ v d, Page.Dimensions.decode v = .ok d → d.Finite :=
    fun _ _ => Page.Dimensions.decode_finite
  unfold decode at h
  split at h
  · obtain ⟨found, hfound, h⟩ := bind_eq_ok.1 h
    obtain ⟨_, -, h⟩ := bind_eq_ok.1 h
    obtain ⟨_, -, h⟩ := bind_eq_ok.1 h
    cases h
    exact Json.decodeMember_getD Page.Dimensions.a4_finite hdecode hfound
  · obtain ⟨_, -, h⟩ := bind_eq_ok.1 h
    obtain ⟨_, -, h⟩ := bind_eq_ok.1 h
    obtain ⟨found, hfound, h⟩ := bind_eq_ok.1 h
    obtain ⟨_, -, h⟩ := bind_eq_ok.1 h
    cases h
    exact Json.decodeItem_getD Page.Dimensions.a4_finite hdecode hfound
  · cases h

theorem decode_finite {v : Json} {s : Settings} (h : decode v = .ok s) :
    s.typesetting.pageSize.Finite := by
  have hdefault : Typesetting.default.pageSize.Finite := Page.Dimensions.a4_finite
  have hdecode : ∀ v (t : Typesetting), Typesetting.decode v = .ok t → t.pageSize.Finite :=
    fun _ _ => Typesetting.decode_finite
  unfold decode at h
  split at h
  · obtain ⟨_, -, h⟩ := bind_eq_ok.1 h
    obtain ⟨found, hfound, h⟩ := bind_eq_ok.1 h
    cases h
    exact Json.decodeMember_getD (p := (·.pageSize.Finite)) hdefault hdecode hfound
  · obtain ⟨found, hfound, h⟩ := bind_eq_ok.1 h
    obtain ⟨_, -, h⟩ := bind_eq_ok.1 h
    obtain ⟨_, -, h⟩ := bind_eq_ok.1 h
    cases h
    exact Json.decodeItem_getD (p := (·.pageSize.Finite)) hdefault hdecode hfound
  · cases h

/-- **The default size that is read is finite.** -/
theorem read_finite {text : String} {s : Settings} (h : read text = .ok s) :
    s.typesetting.pageSize.Finite := by
  unfold read at h
  split at h
  · cases h
  · split at h
    · cases h
    · rename_i found hdecode
      cases h
      exact decode_finite hdecode

end Settings

namespace Typeset

open Document (Block Content Sheet)
open Markup (Element Node Piece Rendering)

variable {δ : Type} {render : Rendering δ} {s : Settings.Typesetting}

/-! ## Pages -/

/-- The size that a page declares. -/
def declaredSize? (e : Element δ) : Option Page.Size :=
  if kind e = .page then e.props.size else none

/-- The way that a page declares to stand. -/
def declaredOrientation? (e : Element δ) : Option Page.Orientation :=
  if kind e = .page then e.props.orientation else none

/-- The geometry of a sheet is that of its element. -/
structure SheetGeometry (default : Page.Dimensions) (sheet : Sheet) (e : Element δ) : Prop where
  size : sheet.size.Finite
  margin : sheet.margin.Finite
  /-- A declared size is positive; the default need not be. -/
  positive : sheet.size.Positive ↔ (declaredSize? e).isSome = true ∨ default.Positive
  stands : Page.Stands (declaredOrientation? e) sheet.size
  /-- The sides are those of the size that is declared, or of the default; they are exchanged at
  most if an orientation is declared. -/
  sides : ∃ d, (declaredSize? e).elim (.ok default) Page.Size.resolve = .ok d ∧
    (sheet.size = d ∨ (declaredOrientation? e).isSome = true ∧ sheet.size = d.turned)

/-- The size of a page is the declared one or the default, turned as declared. -/
theorem pageSize_eq_ok {default size : Page.Dimensions} {e : Element δ}
    (h : pageSize default e = .ok size) :
    ∃ d, e.props.size.elim (.ok default) Page.Size.resolve = .ok d ∧
      size = d.turnedAs e.props.orientation := by
  have hbind : pageSize default e =
      (e.props.size.elim (.ok default) Page.Size.resolve).bind fun d =>
        .ok (d.turnedAs e.props.orientation) := by
    unfold pageSize
    cases e.props.size <;> cases e.props.orientation <;> rfl
  rw [hbind] at h
  obtain ⟨d, hd, h⟩ := bind_eq_ok.1 h
  cases h
  exact ⟨d, hd, rfl⟩

theorem pageMargin_finite {e : Element δ} {margin : Page.Edges} (he : e.props.FiniteGeometry)
    (h : pageMargin e = .ok margin) : margin.Finite := by
  unfold pageMargin at h
  split at h
  · rename_i declared hdeclared
    exact Page.Margin.resolve_finite (he.margin declared hdeclared) h
  · cases h
    exact Page.Edges.zero_finite

/-- The block of a page has its size and its margin. -/
theorem setElement_page {levels : Nat} {t : Typography} {e : Element δ} {b : Block}
    {ms : List Mention} (hpage : kind e = .page)
    (h : setElement render s levels t e = .ok (b, ms)) (default : Page.Dimensions) :
    pageSize s.pageSize e = .ok (Sheet.ofBlock default b).size ∧
      pageMargin e = .ok (Sheet.ofBlock default b).margin := by
  obtain ⟨n, c, image, -, hc, ⟨characters, htext, -⟩ | ⟨bs, rest, -, -, rfl, -⟩⟩ :=
    setElement_eq_ok h
  · rw [hpage] at htext
    cases htext
  · simp only [content, hpage, bind_eq_ok] at hc
    obtain ⟨size, hsize, margin, hmargin, hc⟩ := hc
    cases hc
    exact ⟨hsize, hmargin⟩

/-- **The geometry of a page.** -/
theorem geometry_ofBlock {levels : Nat} {t : Typography} {e : Element δ} {b : Block}
    {ms : List Mention} (hdefault : s.pageSize.Finite) (he : e.props.FiniteGeometry)
    (hpage : kind e = .page) (h : setElement render s levels t e = .ok (b, ms)) :
    SheetGeometry s.pageSize (.ofBlock s.pageSize b) e := by
  obtain ⟨hsize, hmargin⟩ := setElement_page hpage h s.pageSize
  obtain ⟨d, hd, hturned⟩ := pageSize_eq_ok hsize
  have hdeclared : declaredSize? e = e.props.size := if_pos hpage
  have horientation : declaredOrientation? e = e.props.orientation := if_pos hpage
  have hfinite : d.Finite := Page.Size.resolveOr_finite he.size hdefault hd
  constructor
  case size =>
    rw [hturned]
    exact hfinite.turnedAs
  case margin => exact pageMargin_finite he hmargin
  case positive =>
    rw [hturned, Page.Dimensions.turnedAs_positive_iff, hdeclared]
    exact Page.Size.resolveOr_positive_iff hd
  case stands =>
    rw [hturned, horientation]
    exact hfinite.stands
  case sides =>
    rw [hdeclared, horientation, hturned]
    exact ⟨d, hd, d.turnedAs_eq e.props.orientation⟩

/-- The sheet that a root which is no page is put on. -/
theorem geometry_bare {e : Element δ} (hdefault : s.pageSize.Finite) (hpage : kind e ≠ .page)
    (blocks : List Block) : SheetGeometry s.pageSize ⟨s.pageSize, .zero, .empty, blocks⟩ e := by
  have hdeclared : declaredSize? e = none := if_neg hpage
  have horientation : declaredOrientation? e = none := if_neg hpage
  constructor
  case size => exact hdefault
  case margin => exact Page.Edges.zero_finite
  case positive => simp [hdeclared]
  case stands =>
    rw [horientation]
    trivial
  case sides =>
    rw [hdeclared]
    exact ⟨s.pageSize, rfl, .inl rfl⟩

/-! ## Documents -/

/-- An element that is read is what it expands to. -/
theorem expand_isRead {limit : Nat} {n : Node δ} {e : Element δ} (hn : n.IsRead)
    (h : expand render limit n = .ok e) :
    e.props.FiniteGeometry ∧ Markup.OnlyRead (Markup.pieces e.children) := by
  obtain ⟨e', rfl, hgeometry, hpieces⟩ := hn.element
  rw [expand_node] at h
  cases h
  exact ⟨hgeometry, hpieces⟩

/-- **Every sheet has the geometry of its element.** -/
theorem typeset_geometry {config text : String} {s : Settings} {root : Node δ} {d : Document}
    (hs : Settings.read config = .ok s) (hroot : Node.read text = .ok root)
    (h : typeset render s.typesetting root = .ok d) :
    List.Forall₂ (SheetGeometry s.typesetting.pageSize) d.sheets
      (sheetElements render s.typesetting root) := by
  have hdefault : s.typesetting.pageSize.Finite := Settings.read_finite hs
  obtain ⟨e, he, hcase⟩ := typeset_eq_ok h
  obtain ⟨hgeometry, hpieces⟩ := expand_isRead (Markup.read_isRead hroot) he
  rcases hcase with ⟨hdoc, hd⟩ | ⟨hdoc, b, ms, hb, rfl⟩
  · obtain ⟨sheets, ms, hsheets, -, rfl⟩ := setDocument_eq_ok hd
    have hpages : sheetElements render s.typesetting root =
        pageElements render s.typesetting e := by
      simp only [sheetElements, he, hdoc, if_true]
    rw [hpages]
    refine setSheets_forall₂ (fun n p b ms hn hp hpage hb => ?_) hsheets
    have hprops := (expand_isRead (hpieces n hn) hp).1
    exact geometry_ofBlock hdefault hprops hpage hb
  · have hone : sheetElements render s.typesetting root = [e] := by
      simp only [sheetElements, he, hdoc, if_false]
    rw [hone]
    refine .cons ?_ .nil
    by_cases hpage : kind e = .page
    · rw [if_pos hpage]
      exact geometry_ofBlock hdefault hgeometry hpage hb
    · rw [if_neg hpage]
      exact geometry_bare hdefault hpage [b]

/-- No component has a definition. -/
def noComponents : Rendering Empty := fun definition _ => definition.elim

/-- Settings with a size that stands upright. -/
def uprightConfig : String :=
  "\x7b\"convert\": \x7b\"default_page_size\": \x7b\"width\": 300, \"height\": 400\x7d\x7d\x7d"

/-- A page of a size of its own that is turned, and one of the default size with a margin. -/
def leafletText : String :=
  "\x7b\"document\": [\x7b\"page\": [], \"size\": \"a5\", \"orientation\": \"landscape\"\x7d,
    \x7b\"page\": [], \"margin\": \"9 7.5pt\"\x7d]\x7d"

/-- The tree of that text. -/
def leaflet : Node Empty :=
  .element "document" .empty [
    .node (.element "page" { Markup.Props.empty with
      size := some (.named "a5")
      orientation := some .landscape } []),
    .node (.element "page" { Markup.Props.empty with margin := some (.shorthand "9 7.5pt") } [])]

theorem leaflet_geometry :
    ∃ s d, Settings.read uprightConfig = .ok s ∧ Node.read leafletText = .ok leaflet ∧
      typeset noComponents s.typesetting leaflet = .ok d ∧
      List.Forall₂ (SheetGeometry s.typesetting.pageSize) d.sheets
        (sheetElements noComponents s.typesetting leaflet) ∧
      d.sheets.map (·.size) = [⟨595.28, 419.53⟩, ⟨300.0, 400.0⟩] ∧
      d.sheets.map (·.margin) = [.zero, ⟨9.0, 7.5, 9.0, 7.5⟩] := by
  have hs : Settings.read uprightConfig = .ok ⟨⟨64, 128, ⟨300.0, 400.0⟩⟩, .default⟩ := by rfl
  have hroot : Node.read leafletText = .ok leaflet := by cbv
  exact ⟨_, _, hs, hroot, rfl, typeset_geometry hs hroot rfl, by decide, by decide⟩

/-- **The default size is used as it is.** Settings may be read whose default size has no area, and
a page that declares no size has that size. -/
theorem barePage_flat :
    ∃ s root d,
      Settings.read "\x7b\"convert\": \x7b\"default_page_size\": [0, 0]\x7d\x7d" = .ok s ∧
      (Node.read "\x7b\"type\": \"page\"\x7d" : Except Fault (Node Empty)) = .ok root ∧
      typeset noComponents s.typesetting root = .ok d ∧
      ∃ sheet ∈ d.sheets, sheet.size = ⟨0.0, 0.0⟩ ∧ ¬ sheet.size.Positive := by
  have hs : Settings.read "\x7b\"convert\": \x7b\"default_page_size\": [0, 0]\x7d\x7d" =
      .ok ⟨⟨64, 128, ⟨0.0, 0.0⟩⟩, .default⟩ := by
    rfl
  have hroot : (Node.read "\x7b\"type\": \"page\"\x7d" : Except Fault (Node Empty)) =
      .ok (.element "page" .empty []) := by
    cbv
  refine ⟨_, _, _, hs, hroot, rfl, _, List.mem_singleton_self _, rfl, ?_⟩
  intro hpositive
  exact absurd hpositive.width (by decide)

end Typeset

end Galley
