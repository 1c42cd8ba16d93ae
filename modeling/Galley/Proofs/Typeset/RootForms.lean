import Galley.Proofs.Typeset.Expansion
import Galley.Proofs.Typeset.Pieces
import Galley.Proofs.Typeset.Success

/-!
# Roots of different forms

A root may be a document, a page, or anything else, and each form is typeset in its own way. The
three ways agree.

**Theorem (`typeset_rootForms`).** A page is typeset as a document with that page alone, and what is
neither a page nor a document is typeset as a page with that alone in it. In the larger tree
everything is one level deeper, so that one more level is allowed there.

Only successes are compared, because a fault of depth names the depth that is allowed
(`setElement_deeper`). A document or a page without properties sets no typography, and therefore
what is in it is set as it would be alone.
-/

namespace Galley

/-- The settings with one more level. -/
def Settings.Typesetting.deeper (s : Settings.Typesetting) : Settings.Typesetting :=
  { s with depthLimit := s.depthLimit + 1 }

namespace Typeset

open Document (Block Metadata Sheet)
open Markup (Element Node Piece Rendering)

variable {δ : Type} {render : Rendering δ} {s : Settings.Typesetting}

/-! ## Successes with one more level -/

theorem toOption_bind {α β : Type} (x : Except Fault α) (f : α → Except Fault β) :
    (x >>= f).toOption = x.toOption.bind fun a => (f a).toOption := by
  cases x <;> rfl

theorem toOption_map {α β : Type} (x : Except Fault α) (f : α → β) :
    (x.map f).toOption = x.toOption.map f := by
  cases x <;> rfl

/-- Pieces are set alike where their elements are. -/
theorem setPieces_toOption {expand : Node δ → Except Fault (Element δ)}
    {set set' : Element δ → Except Fault (Block × List Mention)}
    (hset : ∀ e, (set e).toOption = (set' e).toOption) (ps : List (Piece δ)) :
    (setPieces expand set ps).toOption = (setPieces expand set' ps).toOption := by
  induction ps with
  | nil => rfl
  | cons p ps ih =>
    cases p with
    | text t => simp only [setPieces, toOption_bind, ih]
    | node n => simp only [setPieces, toOption_bind, ih, hset]

/-- **The settings allow more, and change nothing else**, by induction on the levels. -/
theorem setElement_deeper (levels : Nat) (t : Typography) (e : Element δ) :
    (setElement render s.deeper levels t e).toOption = (setElement render s levels t e).toOption := by
  induction levels generalizing t e with
  | zero => rfl
  | succ levels ih =>
    have hcontent : content s.deeper.pageSize e = content s.pageSize e := rfl
    simp only [setElement, toOption_bind, hcontent]
    refine congrArg _ (funext fun a => ?_)
    split
    · rfl
    · simp only [toOption_bind]
      rw [setPieces_toOption fun e => ih _ e]
      rfl

/-! ## A page as a document -/

/-- A document element with one child, and nothing else. -/
def documentOnly (n : Node δ) : Element δ := ⟨"document", .empty, [.node n]⟩

/-- A page element with one child, and nothing else. -/
def pageOnly (n : Node δ) : Element δ := ⟨"page", .empty, [.node n]⟩

/-- Nothing said about a style changes no typography. -/
theorem apply_empty (t : Typography) : t.apply .empty = t := rfl

theorem mentions_empty (t : Typography) : t.mentions .empty = [] := by
  cases h : t.family <;> simp [Typography.mentions, h, speaks, family?, weight?, slant?,
    Dict.get?_empty]

theorem kind_documentOnly (n : Node δ) : kind (documentOnly n) = .document := by
  show Document.Kind.ofTag "document" = _
  decide

theorem kind_pageOnly (n : Node δ) : kind (pageOnly n) = .page := by
  show Document.Kind.ofTag "page" = _
  decide

/-- The only child of a document that is a page. -/
theorem setSheets_page {expand : Node δ → Except Fault (Element δ)}
    {set : Element δ → Except Fault (Block × List Mention)} {default : Page.Dimensions}
    {p : Node δ} {e : Element δ} (hp : expand p = .ok e) (hpage : kind e = .page) :
    setSheets expand set default [.node p] =
      (set e).map fun a => ([.ofBlock default a.1], a.2) := by
  simp only [setSheets, hp, hpage, bind, Except.bind, if_true]
  cases set e <;> simp [Except.map]

/-- **A page alone and a document of the page** differ in what is said about the document. -/
theorem typeset_documentOnly {p : Node δ} {e : Element δ}
    (hp : expand render s.componentLimit p = .ok e) (hpage : kind e = .page) :
    (typeset render s.deeper (documentOnly p).node).toOption =
      (typeset render s p).toOption.map fun d =>
        { d with metadata := some (metadata (documentOnly p)) } := by
  have hstyle : elementStyle (documentOnly p) = .empty := rfl
  have hpieces : Markup.pieces (documentOnly p).children = [.node p] := rfl
  have hnot : kind e ≠ .document := by simp [hpage]
  have hsheets : setSheets (expand render s.deeper.componentLimit)
      (setElement render s.deeper s.deeper.depthLimit .initial) s.deeper.pageSize [.node p] = _ :=
    setSheets_page hp hpage
  rw [typeset_of_document (expand_node _ _) (kind_documentOnly p), typeset_of_not_document hp hnot,
    toOption_map, ← setElement_deeper]
  simp only [setDocument, hstyle, apply_empty, mentions_empty, hpieces, hsheets, hpage]
  -- One level below the document is the top level of the page alone.
  show _ = ((setElement render s.deeper s.deeper.depthLimit .initial e).toOption.map _).map _
  cases setElement render s.deeper s.deeper.depthLimit .initial e <;> rfl

/-! ## An element as a page -/

theorem content_pageOnly (default : Page.Dimensions) (n : Node δ) :
    content default (pageOnly n) = .ok (.page default .zero, []) := by
  rw [content, kind_pageOnly]
  rfl

/-- What is on a page without properties is set as it would be alone. -/
theorem setElement_pageOnly (levels : Nat) {n : Node δ} {e : Element δ}
    (hn : expand render s.componentLimit n = .ok e) :
    setElement render s (levels + 1) .initial (pageOnly n) =
      (setElement render s levels .initial e).map fun a =>
        (⟨.page s.pageSize .zero, .empty, [a.1]⟩, a.2) := by
  have hstyle : elementStyle (pageOnly n) = .empty := rfl
  have hpieces : Markup.pieces (pageOnly n).children = [.node n] := rfl
  simp only [setElement, content_pageOnly, hstyle, apply_empty, mentions_empty, hpieces, setPieces,
    hn, bind, Except.bind]
  cases setElement render s levels .initial e <;> simp [Except.map]

/-- **An element alone and a page of the element** lead to the same document. -/
theorem typeset_pageOnly {n : Node δ} {e : Element δ}
    (hn : expand render s.componentLimit n = .ok e) (hpage : kind e ≠ .page)
    (hdoc : kind e ≠ .document) :
    (typeset render s.deeper (pageOnly n).node).toOption = (typeset render s n).toOption := by
  have hkind := kind_pageOnly n
  have hnot : kind (pageOnly n) ≠ .document := by simp [hkind]
  have hset : setElement render s.deeper (s.deeper.depthLimit + 1) .initial (pageOnly n) = _ :=
    setElement_pageOnly s.deeper.depthLimit hn
  rw [typeset_of_not_document (expand_node _ _) hnot, typeset_of_not_document hn hdoc, hset,
    toOption_map, toOption_map, toOption_map, setElement_deeper, Option.map_map]
  simp only [hkind, if_true, if_neg hpage]
  rfl

/-! ## The three forms -/

/-- Two ways to typeset succeed alike, and then with the same sheets, fonts and images. -/
structure SameOutcome (r r' : Except Fault Document) : Prop where
  succeeds : (∃ d, r = .ok d) ↔ ∃ d', r' = .ok d'
  sheets : ∀ d d', r = .ok d → r' = .ok d' → d'.sheets = d.sheets
  fonts : ∀ d d', r = .ok d → r' = .ok d' → d'.fonts = d.fonts
  images : ∀ d d', r = .ok d → r' = .ok d' → d'.images = d.images

namespace SameOutcome

variable {r r' : Except Fault Document}

/-- It is enough that the successes differ in what is said about the document. -/
theorem of_toOption {f : Document → Document} (h : r'.toOption = r.toOption.map f)
    (hsheets : ∀ d, (f d).sheets = d.sheets) (hfonts : ∀ d, (f d).fonts = d.fonts)
    (himages : ∀ d, (f d).images = d.images) : SameOutcome r r' := by
  have hsame : ∀ d d', r = .ok d → r' = .ok d' → d' = f d := by
    rintro d d' rfl rfl
    exact Option.some.inj h
  refine ⟨?_, ?_, ?_, ?_⟩
  · constructor
    · rintro ⟨d, rfl⟩
      exact ⟨f d, toOption_eq_some.1 h⟩
    · rintro ⟨d', rfl⟩
      obtain ⟨d, hd, -⟩ := Option.map_eq_some_iff.1 h.symm
      exact ⟨d, toOption_eq_some.1 hd⟩
  · intro d d' hd hd'
    rw [hsame d d' hd hd', hsheets]
  · intro d d' hd hd'
    rw [hsame d d' hd hd', hfonts]
  · intro d d' hd hd'
    rw [hsame d d' hd hd', himages]

end SameOutcome

/-- **The forms of a root agree.** A page is typeset as a document of it, and anything else that is
no document as a page of it, where one more level is allowed. -/
theorem typeset_rootForms (render : Rendering δ) (s : Settings.Typesetting) :
    (∀ (p : Node δ) (e : Element δ), expand render s.componentLimit p = .ok e → kind e = .page →
      SameOutcome (typeset render s p) (typeset render s.deeper (documentOnly p).node)) ∧
    ∀ (n : Node δ) (e : Element δ), expand render s.componentLimit n = .ok e → kind e ≠ .page →
      kind e ≠ .document →
        SameOutcome (typeset render s n) (typeset render s.deeper (pageOnly n).node) := by
  constructor
  · intro p e hp hpage
    exact .of_toOption (typeset_documentOnly hp hpage) (fun _ => rfl) (fun _ => rfl) fun _ => rfl
  · intro n e hn hpage hdoc
    have hsame : (typeset render s.deeper (pageOnly n).node).toOption =
        (typeset render s n).toOption.map id := by
      rw [typeset_pageOnly hn hpage hdoc, Option.map_id, id]
    exact .of_toOption hsame (fun _ => rfl) (fun _ => rfl) fun _ => rfl

/-! ## A folded card -/

/-- A component that renders a page in a script, with a picture in a text on it. -/
def card : Rendering Unit := fun _ _ =>
  .element "page"
    { Markup.Props.empty with
      style := .ofList [("fontFamily", .text "Caveat, cursive"), ("color", .text "navy")] }
    [.node (.element "text" .empty [.text "Greetings", .node (.element "img"
      { Markup.Props.empty with src := some (.deferred ⟨"stamp", 0⟩) } [])])]

/-- The settings in which a card is just deep enough. -/
def cardSettings : Settings.Typesetting := ⟨1, 2, .a4⟩

/-- A card, and a card in a view: the first is a page, and the second is put on one. -/
theorem card_rootForms :
    (∃ e, expand card 1 (.component "Card" .empty ()) = .ok e ∧ kind e = .page) ∧
    SameOutcome (typeset card cardSettings (.component "Card" .empty ()))
      (typeset card cardSettings.deeper (documentOnly (.component "Card" .empty ())).node) ∧
    (∃ d, typeset card cardSettings (.component "Card" .empty ()) = .ok d ∧
      d.images.map (·.id) = ["deferred:stamp"]) ∧
    SameOutcome
      (typeset card cardSettings (.element "view" .empty [.node (.component "Card" .empty ())]))
      (typeset card cardSettings.deeper
        (pageOnly (.element "view" .empty [.node (.component "Card" .empty ())])).node) ∧
    ∃ f, typeset card cardSettings (.element "view" .empty [.node (.component "Card" .empty ())]) =
      .error f := by
  obtain ⟨hpage, hother⟩ := typeset_rootForms card cardSettings
  refine ⟨⟨_, rfl, by decide⟩, hpage _ _ rfl (by decide), ⟨_, rfl, by decide⟩,
    hother _ ⟨"view", .empty, _⟩ rfl (by decide) (by decide), _, rfl⟩

end Typeset

end Galley
