import Galley.Proofs.Except
import Galley.Typeset.Tree
import Mathlib

/-!
# What typesetting succeeds with

Each stage of typesetting is taken apart once: `setElement_eq_ok`, `setSheets_node_eq_ok` and
`typeset_eq_ok` say all that a success of the stage can be, so that later proofs need not open it.
-/

namespace Galley.Typeset

open Document (Block Content Kind Sheet)
open Markup (Element Node Piece Rendering)

variable {δ : Type} {render : Rendering δ} {s : Settings.Typesetting}

/-! ## Contents -/

/-- The images that an element mentions. -/
def images (e : Element δ) : List Mention :=
  match kind e, e.props.src with
  | .image, some source => [.image source]
  | _, _ => []

/-- A content is of the kind of its element, has no characters yet, and comes with the image of
the element. -/
theorem content_eq_ok {default : Page.Dimensions} {e : Element δ} {c : Content}
    {ms : List Mention} (h : content default e = .ok (c, ms)) :
    c.kind = kind e ∧ c.characters = "" ∧ ms = images e := by
  unfold content at h
  unfold images
  cases hk : kind e with
  | page =>
    simp only [hk, bind_eq_ok] at h
    obtain ⟨size, -, margin, -, h⟩ := h
    cases h
    exact ⟨rfl, rfl, rfl⟩
  | image =>
    simp only [hk] at h
    cases hsrc : e.props.src with
    | none =>
      rw [hsrc] at h
      cases h
    | some source =>
      rw [hsrc] at h
      cases h
      exact ⟨rfl, rfl, rfl⟩
  | document | container | text | link =>
    simp only [hk] at h
    cases h
    exact ⟨rfl, rfl, rfl⟩

/-! ## Pieces -/

theorem setPieces_text_eq_ok {expand : Node δ → Except Fault (Element δ)}
    {set : Element δ → Except Fault (Block × List Mention)} {t : String} {ps : List (Piece δ)}
    {bs : List Block} {ms : List Mention} (h : setPieces expand set (.text t :: ps) = .ok (bs, ms)) :
    ∃ rest, setPieces expand set ps = .ok (rest, ms) ∧ bs = .plain t :: rest := by
  simp only [setPieces, bind_eq_ok] at h
  obtain ⟨⟨rest, ms'⟩, hrest, h⟩ := h
  cases h
  exact ⟨rest, hrest, rfl⟩

theorem setPieces_node_eq_ok {expand : Node δ → Except Fault (Element δ)}
    {set : Element δ → Except Fault (Block × List Mention)} {n : Node δ} {ps : List (Piece δ)}
    {bs : List Block} {ms : List Mention} (h : setPieces expand set (.node n :: ps) = .ok (bs, ms)) :
    ∃ e b first rest ms', expand n = .ok e ∧ set e = .ok (b, first) ∧
      setPieces expand set ps = .ok (rest, ms') ∧ bs = b :: rest ∧ ms = first ++ ms' := by
  simp only [setPieces, bind_eq_ok] at h
  obtain ⟨e, he, ⟨b, first⟩, hb, ⟨rest, ms'⟩, hrest, h⟩ := h
  cases h
  exact ⟨e, b, first, rest, ms', he, hb, hrest, rfl, rfl⟩

/-! ## Elements -/

/-- A success of an element: its content, and either characters in place of children, which only a
text can have, or the blocks of its pieces. -/
theorem setElement_eq_ok {levels : Nat} {t : Typography} {e : Element δ} {b : Block}
    {ms : List Mention} (h : setElement render s levels t e = .ok (b, ms)) :
    ∃ n c image, levels = n + 1 ∧ content s.pageSize e = .ok (c, image) ∧
      ((∃ characters, kind e = .text ∧ characters? (Markup.pieces e.children) = some characters ∧
          b = ⟨.text (some characters), elementStyle e, []⟩ ∧
          ms = (t.apply (elementStyle e)).mentions (elementStyle e) ++ image) ∨
        (∃ bs rest, (kind e = .text → characters? (Markup.pieces e.children) = none) ∧
          setPieces (expand render s.componentLimit)
            (setElement render s n (t.apply (elementStyle e))) (Markup.pieces e.children) =
              .ok (bs, rest) ∧
          b = ⟨c, elementStyle e, bs⟩ ∧
          ms = (t.apply (elementStyle e)).mentions (elementStyle e) ++ image ++ rest)) := by
  cases levels with
  | zero => cases h
  | succ n =>
    simp only [setElement, bind_eq_ok] at h
    obtain ⟨⟨c, image⟩, hc, h⟩ := h
    refine ⟨n, c, image, rfl, hc, ?_⟩
    have hkind := (content_eq_ok hc).1
    split at h
    · rename_i x characters htext hcharacters
      cases h
      exact .inl ⟨characters, hkind.symm.trans (congrArg Content.kind htext), hcharacters, rfl, rfl⟩
    · rename_i hno
      obtain ⟨⟨bs, rest⟩, hbs, h⟩ := bind_eq_ok.1 h
      cases h
      refine .inr ⟨bs, rest, fun htext => ?_, hbs, rfl, rfl⟩
      rw [htext] at hkind
      cases c with
      | text x =>
        cases hch : characters? (Markup.pieces e.children) with
        | none => rfl
        | some characters => exact (hno x characters rfl hch).elim
      | _ => cases hkind

/-! ## Sheets and documents -/

theorem setSheets_node_eq_ok {expand : Node δ → Except Fault (Element δ)}
    {set : Element δ → Except Fault (Block × List Mention)} {default : Page.Dimensions}
    {n : Node δ} {ps : List (Piece δ)} {sheets : List Sheet} {ms : List Mention}
    (h : setSheets expand set default (.node n :: ps) = .ok (sheets, ms)) :
    ∃ e, expand n = .ok e ∧
      ((kind e = .page ∧ ∃ b first rest ms', set e = .ok (b, first) ∧
          setSheets expand set default ps = .ok (rest, ms') ∧
          sheets = .ofBlock default b :: rest ∧ ms = first ++ ms') ∨
        (kind e ≠ .page ∧ setSheets expand set default ps = .ok (sheets, ms))) := by
  simp only [setSheets, bind_eq_ok] at h
  obtain ⟨e, he, h⟩ := h
  refine ⟨e, he, ?_⟩
  split at h
  · rename_i hpage
    simp only [bind_eq_ok] at h
    obtain ⟨⟨b, first⟩, hb, ⟨rest, ms'⟩, hrest, h⟩ := h
    cases h
    exact .inl ⟨hpage, b, first, rest, ms', hb, hrest, rfl, rfl⟩
  · rename_i hpage
    exact .inr ⟨hpage, h⟩

/-- There is no sheet exactly if there is no page. -/
theorem setSheets_eq_nil_iff {expand : Node δ → Except Fault (Element δ)}
    {set : Element δ → Except Fault (Block × List Mention)} {default : Page.Dimensions}
    {ps : List (Piece δ)} {sheets : List Sheet} {ms : List Mention}
    (h : setSheets expand set default ps = .ok (sheets, ms)) :
    sheets = [] ↔ ∀ n p, .node n ∈ ps → expand n = .ok p → kind p ≠ .page := by
  induction ps generalizing sheets ms with
  | nil =>
    cases h
    simp
  | cons p ps ih =>
    cases p with
    | text t => simpa using ih h
    | node n =>
      obtain ⟨e, he, ⟨hpage, b, first, rest, ms', -, -, rfl, -⟩ | ⟨hpage, hrest⟩⟩ :=
        setSheets_node_eq_ok h
      · simp only [reduceCtorEq, false_iff]
        intro hall
        exact hall n e List.mem_cons_self he hpage
      · rw [ih hrest]
        constructor
        · intro hall m p hm hp
          rcases List.mem_cons.1 hm with hm | hm
          · cases hm
            rw [he] at hp
            cases hp
            exact hpage
          · exact hall m p hm hp
        · intro hall m p hm
          exact hall m p (List.mem_cons_of_mem _ hm)

/-- A success of a document element: at least one sheet. -/
theorem setDocument_eq_ok {e : Element δ} {d : Document} (h : setDocument render s e = .ok d) :
    ∃ sheets ms, setSheets (expand render s.componentLimit)
        (setElement render s s.depthLimit (Typography.initial.apply (elementStyle e))) s.pageSize
        (Markup.pieces e.children) = .ok (sheets, ms) ∧ sheets ≠ [] ∧
      d = assemble sheets
        ((Typography.initial.apply (elementStyle e)).mentions (elementStyle e) ++ ms)
        (some (metadata e)) := by
  simp only [setDocument, bind_eq_ok] at h
  obtain ⟨⟨sheets, ms⟩, hsheets, h⟩ := h
  split at h
  · cases h
  · rename_i hne
    cases h
    exact ⟨sheets, ms, hsheets, by simpa using hne, rfl⟩

theorem typeset_eq_ok {root : Node δ} {d : Document} (h : typeset render s root = .ok d) :
    ∃ e, expand render s.componentLimit root = .ok e ∧
      ((kind e = .document ∧ setDocument render s e = .ok d) ∨
        (kind e ≠ .document ∧ ∃ b ms,
          setElement render s (s.depthLimit + 1) .initial e = .ok (b, ms) ∧
          d = assemble [if kind e = .page then .ofBlock s.pageSize b
            else ⟨s.pageSize, .zero, .empty, [b]⟩] ms none)) := by
  simp only [typeset, bind_eq_ok] at h
  obtain ⟨e, he, h⟩ := h
  refine ⟨e, he, ?_⟩
  cases hk : kind e with
  | document =>
    rw [hk] at h
    exact .inl ⟨rfl, h⟩
  | page | container | text | image | link =>
    rw [hk] at h
    obtain ⟨⟨b, ms⟩, hb, h⟩ := bind_eq_ok.1 h
    cases h
    exact .inr ⟨by simp, b, ms, hb, by simp⟩

end Galley.Typeset
