import Galley.Proofs.Typeset.FontManifest

/-!
# The text of a document

The text of an element is defined on its tree alone (`ElementText`): the texts of its children in
order, lists in place, truth values and null without text, and a node by the element that it
reaches, however many components that takes. An element whose components never end has no text.

**Theorem (`typeset_sheetText`).** Each sheet of a document has the text of its element, and no
other, so that nothing is lost, repeated or moved.

A text element may collapse its pieces into characters of its own, and otherwise its pieces become
blocks. The two ways agree (`setPieces_of_characters`), and therefore the proof looks at blocks
only: pieces of each child become blocks with the text of the child, by induction on children
(`childText_of_setPieces`), and elements within elements by induction on the levels.
-/

namespace Galley.Typeset

open Document (Block Sheet)
open Markup (Child Element Node Piece Rendering)

variable {δ : Type} {render : Rendering δ} {s : Settings.Typesetting}

/-! ## The text of a tree -/

/-- Rendering a node, as often as it takes, leads to an element. -/
inductive Reaches (render : Rendering δ) : Node δ → Element δ → Prop
  | element (tag : String) (props : Markup.Props) (children : List (Child δ)) :
      Reaches render (.element tag props children) ⟨tag, props, children⟩
  | component {name : String} {props : Markup.Props} {definition : δ} {e : Element δ}
      (h : Reaches render (render definition props) e) :
      Reaches render (.component name props definition) e

/-- Children have a text together, each what it has before that of the rest. -/
inductive ChildrenText (render : Rendering δ) : List (Child δ) → String → Prop
  | nil : ChildrenText render [] ""
  | text (first : String) {cs : List (Child δ)} {rest : String} (hrest : ChildrenText render cs rest) :
      ChildrenText render (.text first :: cs) (first ++ rest)
  | number (x : Float) {cs : List (Child δ)} {rest : String} (hrest : ChildrenText render cs rest) :
      ChildrenText render (.number x :: cs) (Markup.numberText x ++ rest)
  | bool (b : Bool) {cs : List (Child δ)} {rest : String} (hrest : ChildrenText render cs rest) :
      ChildrenText render (.bool b :: cs) rest
  | null {cs : List (Child δ)} {rest : String} (hrest : ChildrenText render cs rest) :
      ChildrenText render (.null :: cs) rest
  | list {items cs : List (Child δ)} {first rest : String} (hfirst : ChildrenText render items first)
      (hrest : ChildrenText render cs rest) : ChildrenText render (.list items :: cs) (first ++ rest)
  | node {n : Node δ} {e : Element δ} {cs : List (Child δ)} {first rest : String}
      (hreaches : Reaches render n e) (hfirst : ChildrenText render e.children first)
      (hrest : ChildrenText render cs rest) : ChildrenText render (.node n :: cs) (first ++ rest)

/-- The text of an element is that of its children. -/
def ElementText (render : Rendering δ) (e : Element δ) (t : String) : Prop :=
  ChildrenText render e.children t

theorem Reaches.unique {n : Node δ} {e e' : Element δ} (h : Reaches render n e)
    (h' : Reaches render n e') : e = e' := by
  induction h with
  | element tag props children =>
    cases h'
    rfl
  | component _ ih =>
    cases h' with
    | component h' => exact ih h'

theorem ChildrenText.unique {cs : List (Child δ)} {t u : String} (h : ChildrenText render cs t)
    (h' : ChildrenText render cs u) : t = u := by
  induction h generalizing u with
  | nil =>
    cases h'
    rfl
  | text _ _ ih =>
    cases h' with
    | text _ hrest => rw [ih hrest]
  | number _ _ ih =>
    cases h' with
    | number _ hrest => rw [ih hrest]
  | bool _ _ ih =>
    cases h' with
    | bool _ hrest => exact ih hrest
  | null _ ih =>
    cases h' with
    | null hrest => exact ih hrest
  | list _ _ ihfirst ihrest =>
    cases h' with
    | list hfirst hrest => rw [ihfirst hfirst, ihrest hrest]
  | node hreaches _ _ ihfirst ihrest =>
    cases h' with
    | node hreaches' hfirst hrest =>
      obtain rfl := hreaches.unique hreaches'
      rw [ihfirst hfirst, ihrest hrest]

/-- An element that expansion finds within the limit is reached. -/
theorem reaches_of_expand {limit : Nat} {n : Node δ} {e : Element δ}
    (h : expand render limit n = .ok e) : Reaches render n e := by
  have hreach : ∀ (k : Nat) (n : Node δ), reach render k n = .ok e → Reaches render n e := by
    intro k
    induction k with
    | zero =>
      intro n hn
      cases n with
      | element tag props children =>
        cases hn
        exact .element tag props children
      | component name props definition => cases hn
    | succ k ih =>
      intro n hn
      cases n with
      | element tag props children =>
        cases hn
        exact .element tag props children
      | component name props definition => exact .component (ih _ hn)
  unfold expand at h
  split at h
  · rename_i e' he
    cases h
    exact hreach _ n he
  · cases h

/-! ## The text of pieces -/

section Pieces

variable {expand : Node δ → Except Fault (Element δ)}
  {set : Element δ → Except Fault (Block × List Mention)}

theorem textContent_plain (t : String) : (Block.plain t).textContent = t := by
  simp [Block.plain, Block.textContent, Document.Content.characters, Document.textContent]

/-- Collapsed pieces have the same text as their blocks would have. -/
theorem setPieces_of_characters {ps : List (Piece δ)} {t : String} (h : characters? ps = some t) :
    ∃ bs, setPieces expand set ps = .ok (bs, []) ∧ Document.textContent bs = t := by
  induction ps generalizing t with
  | nil =>
    cases h
    exact ⟨[], rfl, rfl⟩
  | cons p ps ih =>
    cases p with
    | node n => cases h
    | text first =>
      obtain ⟨rest, hrest, rfl⟩ := Option.map_eq_some_iff.1 h
      obtain ⟨bs, hbs, rfl⟩ := ih hrest
      refine ⟨.plain first :: bs, ?_, ?_⟩
      · rw [setPieces, hbs]
        rfl
      · rw [Document.textContent, textContent_plain]

theorem setPieces_append_eq_ok {ps qs : List (Piece δ)} {bs : List Block} {ms : List Mention}
    (h : setPieces expand set (ps ++ qs) = .ok (bs, ms)) :
    ∃ as ns cs os, setPieces expand set ps = .ok (as, ns) ∧
      setPieces expand set qs = .ok (cs, os) ∧ bs = as ++ cs := by
  induction ps generalizing bs ms with
  | nil => exact ⟨[], [], bs, ms, rfl, h, rfl⟩
  | cons p ps ih =>
    cases p with
    | text t =>
      obtain ⟨rest, hrest, rfl⟩ := setPieces_text_eq_ok h
      obtain ⟨as, ns, cs, os, has, hcs, rfl⟩ := ih hrest
      refine ⟨.plain t :: as, ns, cs, os, ?_, hcs, rfl⟩
      rw [setPieces, has]
      rfl
    | node n =>
      obtain ⟨e, b, first, rest, ms', he, hb, hrest, rfl, rfl⟩ := setPieces_node_eq_ok h
      obtain ⟨as, ns, cs, os, has, hcs, rfl⟩ := ih hrest
      refine ⟨b :: as, first ++ ns, cs, os, ?_, hcs, rfl⟩
      rw [setPieces, he]
      show (do let x ← set e; _) = _
      rw [hb]
      show (do let x ← setPieces expand set ps; _) = _
      rw [has]
      rfl

variable (hexpand : ∀ n e, expand n = .ok e → Reaches render n e)
  (hset : ∀ e b ms, set e = .ok (b, ms) → ElementText render e b.textContent)

include hexpand hset

/-- The blocks of children have their text, by induction on the children and on the lists among
them. -/
theorem childrenText_of_setPieces : ∀ (cs : List (Child δ)) {bs : List Block} {ms : List Mention},
    setPieces expand set (Markup.pieces cs) = .ok (bs, ms) →
      ChildrenText render cs (Document.textContent bs)
  | [], bs, ms, h => by
    cases h
    exact .nil
  | .text t :: cs, bs, ms, h => by
    obtain ⟨rest, hrest, rfl⟩ := setPieces_text_eq_ok h
    rw [Document.textContent, textContent_plain]
    exact .text t (childrenText_of_setPieces cs hrest)
  | .number x :: cs, bs, ms, h => by
    obtain ⟨rest, hrest, rfl⟩ := setPieces_text_eq_ok h
    rw [Document.textContent, textContent_plain]
    exact .number x (childrenText_of_setPieces cs hrest)
  | .bool b :: cs, bs, ms, h => .bool b (childrenText_of_setPieces cs h)
  | .null :: cs, bs, ms, h => .null (childrenText_of_setPieces cs h)
  | .list items :: cs, bs, ms, h => by
    rw [Markup.pieces, Child.pieces] at h
    obtain ⟨as, ns, cs', os, has, hcs, rfl⟩ := setPieces_append_eq_ok h
    rw [Document.textContent_append]
    exact .list (childrenText_of_setPieces items has) (childrenText_of_setPieces cs hcs)
  | .node n :: cs, bs, ms, h => by
    obtain ⟨e, b, first, rest, ms', he, hb, hrest, rfl, rfl⟩ := setPieces_node_eq_ok h
    rw [Document.textContent]
    exact .node (hexpand n e he) (hset e b first hb) (childrenText_of_setPieces cs hrest)

end Pieces

/-! ## The text of elements and sheets -/

/-- **The block of an element has its text.** -/
theorem elementText_of_setElement {levels : Nat} {t : Typography} {e : Element δ} {b : Block}
    {ms : List Mention} (h : setElement render s levels t e = .ok (b, ms)) :
    ElementText render e b.textContent := by
  induction levels generalizing t e b ms with
  | zero => cases h
  | succ n ih =>
    obtain ⟨n', c, image, hn, hc, hcase⟩ := setElement_eq_ok h
    obtain rfl : n' = n := by omega
    have hexpand : ∀ n e, expand render s.componentLimit n = .ok e → Reaches render n e :=
      fun n e he => reaches_of_expand he
    have hset : ∀ t e b ms, setElement render s n' t e = .ok (b, ms) →
        ElementText render e b.textContent := fun t e b ms he => ih he
    rcases hcase with ⟨characters, -, hch, rfl, -⟩ | ⟨bs, rest, -, hbs, rfl, -⟩
    · obtain ⟨bs, hbs, rfl⟩ := setPieces_of_characters hch
      have htext := childrenText_of_setPieces hexpand (hset t) e.children hbs
      simpa [ElementText, Block.textContent, Document.Content.characters, Document.textContent]
        using htext
    · have htext := childrenText_of_setPieces hexpand (hset _) e.children hbs
      simpa [ElementText, Block.textContent, (content_eq_ok hc).2.1] using htext

/-- A page loses nothing when it becomes a sheet. -/
theorem textContent_ofBlock {levels : Nat} {t : Typography} {default : Page.Dimensions}
    {e : Element δ} {b : Block} {ms : List Mention} (hpage : kind e = .page)
    (h : setElement render s levels t e = .ok (b, ms)) :
    (Sheet.ofBlock default b).textContent = b.textContent := by
  obtain ⟨n, c, image, -, hc, hcase⟩ := setElement_eq_ok h
  rcases hcase with ⟨characters, htext, -⟩ | ⟨bs, rest, -, -, rfl, -⟩
  · rw [hpage] at htext
    cases htext
  · have hkind := (content_eq_ok hc).1
    rw [hpage] at hkind
    cases c with
    | page size margin =>
      simp [Sheet.ofBlock, Sheet.textContent, Block.textContent, Document.Content.characters]
    | _ => cases hkind

/-- The sheet has the text of the element, and no other. -/
def SheetText (render : Rendering δ) (sheet : Sheet) (e : Element δ) : Prop :=
  ∀ t, ElementText render e t ↔ t = sheet.textContent

theorem sheetText_of_elementText {sheet : Sheet} {e : Element δ}
    (h : ElementText render e sheet.textContent) : SheetText render sheet e := by
  intro t
  constructor
  · exact fun ht => ht.unique h
  · rintro rfl
    exact h

theorem setSheets_text {t : Typography} {default : Page.Dimensions} {levels : Nat}
    {ps : List (Piece δ)} {sheets : List Sheet} {ms : List Mention}
    (h : setSheets (expand render s.componentLimit) (setElement render s levels t) default ps =
      .ok (sheets, ms)) :
    List.Forall₂ (SheetText render) sheets
      ((expansions (expand render s.componentLimit) ps).filter fun p => kind p = .page) := by
  refine setSheets_forall₂ (fun n e b ms _ _ hpage hb => ?_) h
  apply sheetText_of_elementText
  rw [textContent_ofBlock hpage hb]
  exact elementText_of_setElement hb

/-- The elements that the sheets of a tree stand for: the pages of a document, else the root. -/
def sheetElements (render : Rendering δ) (s : Settings.Typesetting) (root : Node δ) :
    List (Element δ) :=
  match expand render s.componentLimit root with
  | .error _ => []
  | .ok e => if kind e = .document then pageElements render s e else [e]

/-- **The sheets of a document have the texts of their elements, one for one and in order.** -/
theorem typeset_sheetText {root : Node δ} {d : Document} (h : typeset render s root = .ok d) :
    List.Forall₂ (SheetText render) d.sheets (sheetElements render s root) := by
  obtain ⟨e, he, ⟨hdoc, hd⟩ | ⟨hdoc, b, ms, hb, rfl⟩⟩ := typeset_eq_ok h
  · obtain ⟨sheets, ms, hsheets, -, rfl⟩ := setDocument_eq_ok hd
    have hpages : sheetElements render s root = pageElements render s e := by
      simp only [sheetElements, he, hdoc, if_true]
    rw [hpages]
    exact setSheets_text hsheets
  · have hroot : sheetElements render s root = [e] := by
      simp only [sheetElements, he, hdoc, if_false]
    rw [hroot]
    refine .cons (sheetText_of_elementText ?_) .nil
    have htext := elementText_of_setElement hb
    split
    · rename_i hpage
      rw [textContent_ofBlock hpage hb]
      exact htext
    · simpa [Sheet.textContent, Document.textContent] using htext

/-- A component says its definition. -/
def saying : Rendering String := fun words _ => .element "text" .empty [.text words]

/-- Two pages, with lists in lists, a component, and a word that is on no page. -/
def invitation : Node String :=
  .element "document" .empty [
    .list [.list [.node (.element "page" .empty [
      .node (.element "text" .empty [.text "Dear ", .list [.bool true, .text "reader"], .null]),
      .list [.text ", ", .list [.node (.component "Words" .empty "welcome")]]])]],
    .text "unbound",
    .node (.element "page" .empty [.node (.component "Words" .empty "Goodbye"), .text "!"])]

theorem invitation_sheetText :
    ∃ d, typeset saying .default invitation = .ok d ∧
      List.Forall₂ (SheetText saying) d.sheets (sheetElements saying .default invitation) ∧
      d.sheets.map Sheet.textContent = ["Dear reader, welcome", "Goodbye!"] :=
  ⟨_, rfl, typeset_sheetText rfl, by decide⟩

end Galley.Typeset
