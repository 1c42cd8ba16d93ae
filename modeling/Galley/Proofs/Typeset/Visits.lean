import Galley.Proofs.Typeset.Success

/-!
# The elements that are visited

A tree is visited from its root on, each element before its children, the children in order, lists
in place and components as the elements that they expand to. Under a document only its pages are
visited.

A visit (`Visit`) remembers the styles of the element and of all elements around it, so that the
typography in effect (`Visit.typography`) is read off them without the settings that typesetting
hands down: each of family, weight and slant is what the nearest of the styles says.

**Theorem (`typeset_mentions`).** A document lists the fonts and the images that its visits mention,
in the order of the visits.
-/

namespace Galley.Typeset

open Document (Block Kind Sheet)
open Markup (Element Node Piece Rendering)

variable {δ : Type} {render : Rendering δ} {s : Settings.Typesetting}

/-! ## Typography by nearest styles -/

/-- The settings that styles lead to, nearest first: each is what the first of them says that says
anything about it. -/
def Typography.ofStyles (styles : List Style) : Typography :=
  ⟨styles.findSome? family?, (styles.findSome? weight?).getD Font.defaultWeight,
    (styles.findSome? slant?).getD .normal⟩

theorem Typography.ofStyles_nil : ofStyles [] = initial := rfl

/-- A nearer style is applied to what the ones around it lead to. -/
theorem Typography.ofStyles_cons (style : Style) (styles : List Style) :
    ofStyles (style :: styles) = (ofStyles styles).apply style := by
  simp only [ofStyles, apply, List.findSome?_cons]
  congr 1
  · cases family? style <;> rfl
  · cases weight? style <;> rfl
  · cases slant? style <;> rfl

/-- The face in effect, if there is a family. -/
def Typography.face? (t : Typography) : Option Mention :=
  t.family.map fun family => .face family t.weight t.slant

/-- A style that says nothing leaves everything as it is. -/
theorem Typography.apply_of_not_speaks {t : Typography} {style : Style}
    (h : ¬ speaks style = true) : t.apply style = t := by
  simp only [speaks, Bool.or_eq_true, not_or, Option.not_isSome_iff_eq_none] at h
  obtain ⟨⟨hfamily, hweight⟩, hslant⟩ := h
  rw [apply, hfamily, hweight, hslant]
  rfl

theorem Typography.mentions_eq (t : Typography) (style : Style) :
    t.mentions style = if speaks style then t.face?.toList else [] := by
  obtain ⟨family, weight, slant⟩ := t
  cases family <;> simp [mentions, face?]

/-! ## Visits -/

/-- An element, with its style and those of the elements around it, nearest first. -/
structure Visit (δ : Type) where
  element : Element δ
  styles : List Style

namespace Visit

/-- The settings in effect. -/
def typography (v : Visit δ) : Typography := .ofStyles v.styles

/-- The face in effect, if there is a family. -/
def face? (v : Visit δ) : Option Mention := v.typography.face?

/-- What the element of a visit mentions. -/
def mentions (v : Visit δ) : List Mention :=
  v.typography.mentions (elementStyle v.element) ++ images v.element

end Visit

/-- The elements that pieces expand to. -/
def expansions (expand : Node δ → Except Fault (Element δ)) (ps : List (Piece δ)) :
    List (Element δ) :=
  ps.filterMap fun
    | .node n => (expand n).toOption
    | .text _ => none

/-- The elements within an element. -/
def childElements (render : Rendering δ) (s : Settings.Typesetting) (e : Element δ) :
    List (Element δ) :=
  expansions (expand render s.componentLimit) (Markup.pieces e.children)

/-- The visits of an element within elements of given styles, as many levels deep as may be
entered. -/
def elementVisits (render : Rendering δ) (s : Settings.Typesetting) :
    Nat → List Style → Element δ → List (Visit δ)
  | 0, _, _ => []
  | levels + 1, around, e =>
    ⟨e, elementStyle e :: around⟩ ::
      (childElements render s e).flatMap
        (elementVisits render s levels (elementStyle e :: around))

/-- The pages of a document element. -/
def pageElements (render : Rendering δ) (s : Settings.Typesetting) (e : Element δ) :
    List (Element δ) :=
  (childElements render s e).filter fun p => kind p = .page

/-- The visits of a document element: itself and those of its pages. -/
def documentVisits (render : Rendering δ) (s : Settings.Typesetting) (e : Element δ) :
    List (Visit δ) :=
  ⟨e, [elementStyle e]⟩ ::
    (pageElements render s e).flatMap (elementVisits render s s.depthLimit [elementStyle e])

/-- The visits of a tree. -/
def visits (render : Rendering δ) (s : Settings.Typesetting) (root : Node δ) : List (Visit δ) :=
  match expand render s.componentLimit root with
  | .error _ => []
  | .ok e =>
    if kind e = .document then documentVisits render s e
    else elementVisits render s (s.depthLimit + 1) [] e

/-! ## What is mentioned -/

theorem expansions_node {expand : Node δ → Except Fault (Element δ)} {n : Node δ} {e : Element δ}
    (h : expand n = .ok e) (ps : List (Piece δ)) :
    expansions expand (.node n :: ps) = e :: expansions expand ps := by
  simp [expansions, h, Except.toOption]

theorem mem_expansions {expand : Node δ → Except Fault (Element δ)} {ps : List (Piece δ)}
    {e : Element δ} : e ∈ expansions expand ps ↔ ∃ n, .node n ∈ ps ∧ expand n = .ok e := by
  rw [expansions, List.mem_filterMap]
  constructor
  · rintro ⟨p, hp, he⟩
    cases p with
    | text t => cases he
    | node n => exact ⟨n, hp, toOption_eq_some.1 he⟩
  · rintro ⟨n, hn, he⟩
    exact ⟨.node n, hn, toOption_eq_some.2 he⟩

theorem expansions_of_characters {expand : Node δ → Except Fault (Element δ)} {ps : List (Piece δ)}
    {characters : String} (h : characters? ps = some characters) : expansions expand ps = [] := by
  induction ps generalizing characters with
  | nil => rfl
  | cons p ps ih =>
    cases p with
    | node n => cases h
    | text t =>
      obtain ⟨rest, hrest, -⟩ := Option.map_eq_some_iff.1 h
      exact ih hrest

theorem setPieces_mentions {expand : Node δ → Except Fault (Element δ)}
    {set : Element δ → Except Fault (Block × List Mention)} {f : Element δ → List Mention}
    (hset : ∀ e b ms, set e = .ok (b, ms) → ms = f e) {ps : List (Piece δ)} {bs : List Block}
    {ms : List Mention} (h : setPieces expand set ps = .ok (bs, ms)) :
    ms = (expansions expand ps).flatMap f := by
  induction ps generalizing bs ms with
  | nil =>
    cases h
    rfl
  | cons p ps ih =>
    cases p with
    | text t =>
      obtain ⟨rest, hrest, -⟩ := setPieces_text_eq_ok h
      exact ih hrest
    | node n =>
      obtain ⟨e, b, first, rest, ms', he, hb, hrest, -, rfl⟩ := setPieces_node_eq_ok h
      rw [expansions_node he, List.flatMap_cons, ← ih hrest, ← hset e b first hb]

theorem setElement_mentions {levels : Nat} {around : List Style} {e : Element δ} {b : Block}
    {ms : List Mention}
    (h : setElement render s levels (.ofStyles around) e = .ok (b, ms)) :
    ms = (elementVisits render s levels around e).flatMap Visit.mentions := by
  induction levels generalizing around e b ms with
  | zero => cases h
  | succ n ih =>
    obtain ⟨n', c, image, hn, hc, hcase⟩ := setElement_eq_ok h
    obtain rfl : n' = n := by omega
    obtain rfl : image = images e := (content_eq_ok hc).2.2
    rw [← Typography.ofStyles_cons] at hcase
    rw [elementVisits, List.flatMap_cons]
    rcases hcase with ⟨characters, -, hch, -, rfl⟩ | ⟨bs, rest, -, hbs, -, rfl⟩
    · have hnone : childElements render s e = [] := expansions_of_characters hch
      rw [hnone]
      simp [Visit.mentions, Visit.typography]
    · have hrest := setPieces_mentions (fun e b ms he => ih he) hbs
      rw [hrest, List.flatMap_assoc]
      rfl

theorem setSheets_mentions {expand : Node δ → Except Fault (Element δ)}
    {set : Element δ → Except Fault (Block × List Mention)} {f : Element δ → List Mention}
    {default : Page.Dimensions} (hset : ∀ e b ms, set e = .ok (b, ms) → ms = f e)
    {ps : List (Piece δ)} {sheets : List Sheet} {ms : List Mention}
    (h : setSheets expand set default ps = .ok (sheets, ms)) :
    ms = ((expansions expand ps).filter fun p => kind p = .page).flatMap f := by
  induction ps generalizing sheets ms with
  | nil =>
    cases h
    rfl
  | cons p ps ih =>
    cases p with
    | text t => exact ih h
    | node n =>
      obtain ⟨e, he, ⟨hpage, b, first, rest, ms', hb, hrest, -, rfl⟩ | ⟨hpage, hrest⟩⟩ :=
        setSheets_node_eq_ok h
      · rw [expansions_node he, List.filter_cons_of_pos (by simpa using hpage),
          List.flatMap_cons, ← ih hrest, ← hset e b first hb]
      · rw [expansions_node he, List.filter_cons_of_neg (by simpa using hpage), ← ih hrest]

/-- The sheets of pieces are those of the pages among them, one for one and in order. -/
theorem setSheets_forall₂ {expand : Node δ → Except Fault (Element δ)}
    {set : Element δ → Except Fault (Block × List Mention)} {default : Page.Dimensions}
    {R : Sheet → Element δ → Prop} {ps : List (Piece δ)} {sheets : List Sheet} {ms : List Mention}
    (hR : ∀ n e b ms, .node n ∈ ps → expand n = .ok e → kind e = .page → set e = .ok (b, ms) →
      R (.ofBlock default b) e)
    (h : setSheets expand set default ps = .ok (sheets, ms)) :
    List.Forall₂ R sheets ((expansions expand ps).filter fun p => kind p = .page) := by
  induction ps generalizing sheets ms with
  | nil =>
    cases h
    exact .nil
  | cons p ps ih =>
    have hlater : ∀ n e b ms, .node n ∈ ps → expand n = .ok e → kind e = .page →
        set e = .ok (b, ms) → R (.ofBlock default b) e :=
      fun n e b ms hn => hR n e b ms (List.mem_cons_of_mem _ hn)
    cases p with
    | text t => exact ih hlater h
    | node n =>
      obtain ⟨e, he, ⟨hpage, b, first, rest, ms', hb, hrest, rfl, -⟩ | ⟨hpage, hrest⟩⟩ :=
        setSheets_node_eq_ok h
      · rw [expansions_node he, List.filter_cons_of_pos (by simpa using hpage)]
        exact .cons (hR n e b first List.mem_cons_self he hpage hb) (ih hlater hrest)
      · rw [expansions_node he, List.filter_cons_of_neg (by simpa using hpage)]
        exact ih hlater hrest

/-- **A document lists what its visits mention.** -/
theorem typeset_mentions {root : Node δ} {d : Document} (h : typeset render s root = .ok d) :
    d.fonts = fontUsages ((visits render s root).flatMap Visit.mentions) ∧
      d.images = imageUsages ((visits render s root).flatMap Visit.mentions) := by
  obtain ⟨e, he, ⟨hdoc, hd⟩ | ⟨hdoc, b, ms, hb, rfl⟩⟩ := typeset_eq_ok h
  · obtain ⟨sheets, ms, hsheets, -, rfl⟩ := setDocument_eq_ok hd
    have hstep : Typography.initial.apply (elementStyle e) = .ofStyles [elementStyle e] := by
      rw [Typography.ofStyles_cons, Typography.ofStyles_nil]
    rw [hstep] at hsheets ⊢
    have hms := setSheets_mentions (fun e b ms he => setElement_mentions he) hsheets
    have himages : images e = [] := by simp [images, hdoc]
    have hvisits : (visits render s root).flatMap Visit.mentions =
        (Typography.ofStyles [elementStyle e]).mentions (elementStyle e) ++ ms := by
      rw [visits, he, hms]
      simp only [hdoc, if_true, documentVisits, List.flatMap_cons, List.flatMap_assoc,
        Visit.mentions, Visit.typography, himages, List.append_nil]
      rfl
    rw [hvisits]
    exact ⟨rfl, rfl⟩
  · rw [← Typography.ofStyles_nil] at hb
    have hms := setElement_mentions hb
    have hvisits : (visits render s root).flatMap Visit.mentions = ms := by
      rw [visits, he, hms]
      simp only [hdoc, if_false]
    rw [hvisits]
    exact ⟨rfl, rfl⟩

end Galley.Typeset
