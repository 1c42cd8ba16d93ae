import Galley.Page.Decode
import Galley.Proofs.Json.Finite

/-!
# Sizes and margins as they are resolved

A size that is resolved is positive (`Size.resolve_positive`), and so is every preset; a page that
is turned keeps its sides and stands as declared (`Dimensions.turnedAs`). Sizes and margins that are
read from data have finite numbers, and so has what they resolve to.
-/

namespace Galley

namespace Page

/-! ## Sizes -/

namespace Dimensions

/-- Both sides are finite. -/
structure Finite (d : Dimensions) : Prop where
  width : Decimal.isFinite d.width = true
  height : Decimal.isFinite d.height = true

/-- Both sides are positive. -/
structure Positive (d : Dimensions) : Prop where
  width : 0.0 < d.width
  height : 0.0 < d.height

variable {d : Dimensions}

theorem Finite.turned (h : d.Finite) : d.turned.Finite := ⟨h.height, h.width⟩

theorem Positive.turned (h : d.Positive) : d.turned.Positive := ⟨h.height, h.width⟩

theorem a4_finite : a4.Finite := ⟨by decide, by decide⟩

/-- **The named sizes are usable.** -/
theorem presets_usable : ∀ p ∈ presets, p.2.Finite ∧ p.2.Positive := by
  have hsides : ∀ p ∈ presets, Decimal.isFinite p.2.width = true ∧
      Decimal.isFinite p.2.height = true ∧ 0.0 < p.2.width ∧ 0.0 < p.2.height := by
    decide +kernel
  intro p hp
  obtain ⟨hwidth, hheight, hwidth', hheight'⟩ := hsides p hp
  exact ⟨⟨hwidth, hheight⟩, hwidth', hheight'⟩

theorem ofName?_usable {name : String} (h : ofName? name = some d) : d.Finite ∧ d.Positive := by
  obtain ⟨p, hp, rfl⟩ := Option.map_eq_some_iff.1 h
  exact presets_usable p (List.mem_of_find?_eq_some hp)

end Dimensions

/-- The size stands as declared, if an orientation is declared. -/
def Stands (orientation : Option Orientation) (d : Dimensions) : Prop :=
  match orientation with
  | some .landscape => d.height ≤ d.width
  | some .portrait => d.width ≤ d.height
  | none => True

/-- The sides of a size that is turned, or not, are the same. -/
theorem Orientation.apply_eq (o : Orientation) (d : Dimensions) :
    o.apply d = d ∨ o.apply d = d.turned := by
  cases o with
  | landscape => exact ite_eq_or_eq (d.height ≤ d.width) d d.turned
  | portrait => exact ite_eq_or_eq (d.width ≤ d.height) d d.turned

/-- **A finite size stands as declared** once it is turned. -/
theorem Orientation.apply_stands (o : Orientation) {d : Dimensions} (h : d.Finite) :
    Stands (some o) (o.apply d) := by
  have horder := Decimal.le_or_le h.width h.height
  cases o with
  | landscape =>
    show d.landscape.height ≤ d.landscape.width
    unfold Dimensions.landscape
    by_cases hstands : d.height ≤ d.width
    · rw [if_pos hstands]
      exact hstands
    · rw [if_neg hstands]
      exact horder.resolve_right hstands
  | portrait =>
    show d.portrait.width ≤ d.portrait.height
    unfold Dimensions.portrait
    by_cases hstands : d.width ≤ d.height
    · rw [if_pos hstands]
      exact hstands
    · rw [if_neg hstands]
      exact horder.resolve_left hstands

/-- The size turned to stand as declared, if an orientation is declared. -/
def Dimensions.turnedAs (d : Dimensions) (orientation : Option Orientation) : Dimensions :=
  orientation.elim d fun o => o.apply d

section TurnedAs

variable {d : Dimensions} {orientation : Option Orientation}

theorem Dimensions.turnedAs_eq (d : Dimensions) (orientation : Option Orientation) :
    d.turnedAs orientation = d ∨
      orientation.isSome = true ∧ d.turnedAs orientation = d.turned := by
  cases orientation with
  | none => exact .inl rfl
  | some o => exact (o.apply_eq d).imp id fun h => ⟨rfl, h⟩

theorem Dimensions.Finite.turnedAs (h : d.Finite) : (d.turnedAs orientation).Finite := by
  rcases d.turnedAs_eq orientation with hsame | ⟨-, hturned⟩
  · rw [hsame]
    exact h
  · rw [hturned]
    exact h.turned

theorem Dimensions.turnedAs_positive_iff : (d.turnedAs orientation).Positive ↔ d.Positive := by
  rcases d.turnedAs_eq orientation with hsame | ⟨-, hturned⟩
  · rw [hsame]
  · rw [hturned]
    exact ⟨Positive.turned, Positive.turned⟩

theorem Dimensions.Finite.stands (h : d.Finite) : Stands orientation (d.turnedAs orientation) := by
  cases orientation with
  | none => trivial
  | some o => exact o.apply_stands h

end TurnedAs

/-- The size is a name, or has finite sides. -/
def Size.Finite : Size → Prop
  | .named _ => True
  | .custom d => d.Finite

theorem Size.resolve_finite {size : Size} {d : Dimensions} (hsize : size.Finite)
    (h : size.resolve = .ok d) : d.Finite := by
  cases size with
  | named name =>
    simp only [resolve] at h
    split at h
    · rename_i found hname
      cases h
      exact (Dimensions.ofName?_usable hname).1
    · cases h
  | custom dims =>
    simp only [resolve] at h
    split at h
    · cases h
      exact hsize
    · cases h

/-- **A size that is resolved is positive.** -/
theorem Size.resolve_positive {size : Size} {d : Dimensions} (h : size.resolve = .ok d) :
    d.Positive := by
  cases size with
  | named name =>
    simp only [resolve] at h
    split at h
    · rename_i found hname
      cases h
      exact (Dimensions.ofName?_usable hname).2
    · cases h
  | custom dims =>
    simp only [resolve] at h
    split at h
    · rename_i hpositive
      cases h
      exact ⟨hpositive.1, hpositive.2⟩
    · cases h

section Default

variable {given : Option Size} {default d : Dimensions}

theorem Size.resolveOr_finite (hgiven : ∀ size, given = some size → size.Finite)
    (hdefault : default.Finite) (h : given.elim (.ok default) resolve = .ok d) : d.Finite := by
  cases given with
  | none =>
    cases h
    exact hdefault
  | some size => exact resolve_finite (hgiven size rfl) h

/-- **Only the default may have no area.** -/
theorem Size.resolveOr_positive_iff (h : given.elim (.ok default) resolve = .ok d) :
    d.Positive ↔ given.isSome = true ∨ default.Positive := by
  cases given with
  | none =>
    cases h
    simp
  | some size => simp [resolve_positive h]

end Default

/-! ## Margins -/

/-- All edges are finite. -/
structure Edges.Finite (e : Edges) : Prop where
  top : Decimal.isFinite e.top = true
  right : Decimal.isFinite e.right = true
  bottom : Decimal.isFinite e.bottom = true
  left : Decimal.isFinite e.left = true

theorem isFinite_zero : Decimal.isFinite 0.0 = true := by decide

theorem Edges.zero_finite : zero.Finite :=
  ⟨isFinite_zero, isFinite_zero, isFinite_zero, isFinite_zero⟩

/-- The numbers of a shorthand text are finite. -/
theorem Edges.numbers_finite {input : String} {tokens : List (List Char)} {xs : List Float}
    (h : numbers input tokens = .ok xs) : ∀ x ∈ xs, Decimal.isFinite x = true := by
  induction tokens generalizing xs with
  | nil =>
    cases h
    exact fun x hx => absurd hx List.not_mem_nil
  | cons token tokens ih =>
    rw [numbers] at h
    split at h
    · cases h
    · rename_i x hx
      obtain ⟨rest, hrest, rfl⟩ := map_eq_ok.1 h
      have hfirst : Decimal.isFinite x = true := (Option.filter_eq_some_iff.1 hx).2
      exact List.forall_mem_cons.2 ⟨hfirst, ih hrest⟩

theorem Edges.ofShorthand?_finite {xs : List Float} {e : Edges} (h : ofShorthand? xs = some e)
    (hxs : ∀ x ∈ xs, Decimal.isFinite x = true) : e.Finite := by
  unfold ofShorthand? at h
  split at h <;> cases h <;> constructor <;> apply hxs <;> simp [uniform]

theorem Edges.parse_finite {input : String} {e : Edges} (h : parse input = .ok e) : e.Finite := by
  unfold parse at h
  obtain ⟨xs, hxs, h⟩ := bind_eq_ok.1 h
  split at h
  · rename_i found hfound
    cases h
    exact ofShorthand?_finite hfound (numbers_finite hxs)
  · cases h

/-- The numbers of the margin are finite; those of a text are looked at when it is read. -/
def Margin.Finite : Margin → Prop
  | .uniform x => Decimal.isFinite x = true
  | .shorthand _ => True
  | .edges top right bottom left =>
    ∀ edge ∈ [top, right, bottom, left], ∀ x, edge = some x → Decimal.isFinite x = true

/-- **A margin that is resolved is finite.** -/
theorem Margin.resolve_finite {m : Margin} {e : Edges} (hm : m.Finite) (h : m.resolve = .ok e) :
    e.Finite := by
  cases m with
  | uniform x =>
    cases h
    exact ⟨hm, hm, hm, hm⟩
  | shorthand text => exact Edges.parse_finite h
  | edges top right bottom left =>
    have hedge : ∀ edge ∈ [top, right, bottom, left],
        Decimal.isFinite (edge.getD 0.0) = true := by
      intro edge hedge
      cases edge with
      | none => exact isFinite_zero
      | some x => exact hm _ hedge x rfl
    cases h
    constructor <;> apply hedge <;> simp

end Page

/-! ## Reading -/

namespace Json

theorem decodeMember_eq_ok {α : Type} {name : String} {decode : Json → Decoded α} {ms : Fields Json}
    {a : α} (h : decodeMember name decode ms = .ok (some a)) :
    ∃ v, (name, v) ∈ ms ∧ decode v = .ok a := by
  unfold decodeMember at h
  split at h
  · cases h
  · rename_i key v hfilter
    obtain ⟨b, hb, hsome⟩ := map_eq_ok.1 h
    cases hsome
    have hmem := List.mem_filter.1 (hfilter ▸ List.mem_cons_self : (key, v) ∈ ms.filter _)
    have hkey : key = name := by simpa using hmem.2
    exact ⟨v, hkey ▸ hmem.1, hb⟩
  · cases h

theorem decodeItem_eq_ok {α : Type} {index : Nat} {decode : Json → Decoded α} {items : List Json}
    {a : α} (h : decodeItem index decode items = .ok (some a)) : ∃ v ∈ items, decode v = .ok a := by
  unfold decodeItem at h
  split at h
  · cases h
  · rename_i v hv
    obtain ⟨b, hb, hsome⟩ := map_eq_ok.1 h
    cases hsome
    exact ⟨v, List.mem_of_getElem? hv, hb⟩

/-- What holds of the default, and of all that is decoded, holds of the one or the other. -/
theorem decodeMember_getD {α : Type} {p : α → Prop} {default : α} {name : String}
    {decode : Json → Decoded α} {ms : Fields Json} {found : Option α} (hdefault : p default)
    (hdecode : ∀ v a, decode v = .ok a → p a) (h : decodeMember name decode ms = .ok found) :
    p (found.getD default) := by
  cases found with
  | none => exact hdefault
  | some a =>
    obtain ⟨v, -, hv⟩ := decodeMember_eq_ok h
    exact hdecode v a hv

theorem decodeItem_getD {α : Type} {p : α → Prop} {default : α} {index : Nat}
    {decode : Json → Decoded α} {items : List Json} {found : Option α} (hdefault : p default)
    (hdecode : ∀ v a, decode v = .ok a → p a) (h : decodeItem index decode items = .ok found) :
    p (found.getD default) := by
  cases found with
  | none => exact hdefault
  | some a =>
    obtain ⟨v, -, hv⟩ := decodeItem_eq_ok h
    exact hdecode v a hv

theorem decodeOption_eq_ok {α : Type} {decode : Json → Decoded α} {v : Json} {a : α}
    (h : decodeOption decode v = .ok (some a)) : decode v = .ok a := by
  unfold decodeOption at h
  split at h
  · cases h
  · obtain ⟨b, hb, hsome⟩ := map_eq_ok.1 h
    cases hsome
    exact hb

theorem decodeNumber_finite {v : Json} {x : Float} (h : decodeNumber v = .ok x) :
    Decimal.isFinite x = true := by
  unfold decodeNumber at h
  split at h
  · split at h
    · rename_i hfinite
      cases h
      exact hfinite
    · cases h
  · cases h

end Json

namespace Page

theorem Dimensions.decode_finite {v : Json} {d : Dimensions} (h : decode v = .ok d) : d.Finite := by
  unfold decode at h
  split at h
  · obtain ⟨height, hheight, h⟩ := bind_eq_ok.1 h
    obtain ⟨width, hwidth, h⟩ := bind_eq_ok.1 h
    split at h
    · cases h
      obtain ⟨_, -, hx⟩ := Json.decodeMember_eq_ok hwidth
      obtain ⟨_, -, hy⟩ := Json.decodeMember_eq_ok hheight
      exact ⟨Json.decodeNumber_finite hx, Json.decodeNumber_finite hy⟩
    · cases h
    · cases h
  · obtain ⟨width, hwidth, h⟩ := bind_eq_ok.1 h
    obtain ⟨height, hheight, h⟩ := bind_eq_ok.1 h
    split at h
    · obtain ⟨_, -, h⟩ := bind_eq_ok.1 h
      cases h
      obtain ⟨_, -, hx⟩ := Json.decodeItem_eq_ok hwidth
      obtain ⟨_, -, hy⟩ := Json.decodeItem_eq_ok hheight
      exact ⟨Json.decodeNumber_finite hx, Json.decodeNumber_finite hy⟩
    · cases h
  · cases h

theorem Size.decode_finite {v : Json} {size : Size} (h : decode v = .ok size) : size.Finite := by
  unfold decode at h
  split at h
  · cases h
    trivial
  · split at h
    · rename_i d hd
      cases h
      exact Dimensions.decode_finite hd
    · cases h

theorem decodeEdge_finite {name : String} {ms : Fields Json} {edge : Option Float}
    (h : decodeEdge name ms = .ok edge) {x : Float} (hx : edge = some x) :
    Decimal.isFinite x = true := by
  unfold decodeEdge at h
  obtain ⟨found, hfound, h⟩ := bind_eq_ok.1 h
  cases h
  cases found with
  | none => cases hx
  | some inner =>
    obtain rfl : inner = some x := hx
    obtain ⟨v, -, hv⟩ := Json.decodeMember_eq_ok hfound
    exact Json.decodeNumber_finite (Json.decodeOption_eq_ok hv)

theorem Margin.decode_finite {v : Json} {m : Margin} (hv : v.Finite) (h : decode v = .ok m) :
    m.Finite := by
  unfold decode at h
  split at h
  · cases h
    trivial
  · split at h
    · rename_i ms m' hm
      cases h
      unfold decodeEdges at hm
      obtain ⟨top, htop, hm⟩ := bind_eq_ok.1 hm
      obtain ⟨right, hright, hm⟩ := bind_eq_ok.1 hm
      obtain ⟨bottom, hbottom, hm⟩ := bind_eq_ok.1 hm
      obtain ⟨left, hleft, hm⟩ := bind_eq_ok.1 hm
      cases hm
      intro edge hedge x hx
      simp only [List.mem_cons, List.not_mem_nil, or_false] at hedge
      rcases hedge with rfl | rfl | rfl | rfl
      · exact decodeEdge_finite htop hx
      · exact decodeEdge_finite hright hx
      · exact decodeEdge_finite hbottom hx
      · exact decodeEdge_finite hleft hx
    · cases h
  · split at h
    · rename_i x hx
      cases h
      exact hv.number? hx
    · cases h

end Page

end Galley
