import Galley.Document.Measure
import Galley.Proofs.Typeset.Success

/-!
# The images that a document lists

The images on the sheets of a document are, in order, those that its elements mention
(`setElement_imageIds`).

**Theorem (`typeset_imageIds`).** A document lists exactly the images on its sheets, however deep
they are.
-/

namespace Galley.Document

/-- The id of a content that is an image. -/
def Content.imageId? : Content → Option String
  | image id => some id
  | _ => none

mutual

/-- The ids of the images in a block and all within it. -/
def Block.imageIds : Block → List String
  | ⟨content, _, children⟩ => content.imageId?.toList ++ imageIds children

/-- The ids of the images in blocks, one block after another. -/
def imageIds : List Block → List String
  | [] => []
  | b :: bs => b.imageIds ++ imageIds bs

end

/-- The ids of the images on a sheet. -/
def Sheet.imageIds (s : Sheet) : List String := Document.imageIds s.blocks

end Galley.Document

namespace Galley.Typeset

open Document (Block Content Sheet)
open Markup (Element Node Piece Rendering)

variable {δ : Type} {render : Rendering δ} {s : Settings.Typesetting}

/-- The ids of the images among mentions. -/
def mentionedIds (ms : List Mention) : List String :=
  ms.filterMap fun
    | .image source => some source.identity
    | .face .. => none

@[simp] theorem mentionedIds_append (ms ns : List Mention) :
    mentionedIds (ms ++ ns) = mentionedIds ms ++ mentionedIds ns := by
  simp [mentionedIds]

@[simp] theorem mentionedIds_typography (t : Typography) (style : Style) :
    mentionedIds (t.mentions style) = [] := by
  unfold Typography.mentions
  split
  · split <;> rfl
  · rfl

/-! ## Usages of images -/

theorem mem_recordImage {id : String} {u : Document.ImageUsage} {us : List Document.ImageUsage} :
    id ∈ (recordImage u us).map (·.id) ↔ id ∈ us.map (·.id) ∨ id = u.id := by
  unfold recordImage
  split
  · rename_i hany
    obtain ⟨v, hv, hid⟩ := List.any_eq_true.1 hany
    have hmem : u.id ∈ us.map (·.id) := List.mem_map.2 ⟨v, hv, by simpa using hid⟩
    refine ⟨.inl, fun h => h.elim (fun hold => hold) ?_⟩
    rintro rfl
    exact hmem
  · simp

/-- Exactly the images that are mentioned get usages. -/
theorem mem_imageUsages {id : String} {ms : List Mention} :
    id ∈ (imageUsages ms).map (·.id) ↔ id ∈ mentionedIds ms := by
  have hfold : ∀ us, id ∈ (ms.foldl addImage us).map (·.id) ↔
      id ∈ us.map (·.id) ∨ id ∈ mentionedIds ms := by
    induction ms with
    | nil => simp [mentionedIds]
    | cons m ms ih =>
      intro us
      rw [List.foldl_cons, ih]
      cases m with
      | face family weight slant => rfl
      | image source =>
        have hcons : mentionedIds (.image source :: ms) = source.identity :: mentionedIds ms := rfl
        show id ∈ (recordImage (.of source) us).map (·.id) ∨ _ ↔ _
        rw [mem_recordImage, hcons, List.mem_cons, or_assoc]
        rfl
  simpa [imageUsages] using hfold []

/-! ## Blocks and what they mention -/

/-- An image content has the identity of the source that it mentions. -/
theorem content_imageId {default : Page.Dimensions} {e : Element δ} {c : Content}
    {ms : List Mention} (h : content default e = .ok (c, ms)) :
    c.imageId?.toList = mentionedIds ms := by
  unfold content at h
  cases hk : kind e with
  | page =>
    simp only [hk, bind_eq_ok] at h
    obtain ⟨size, -, margin, -, h⟩ := h
    cases h
    rfl
  | image =>
    simp only [hk] at h
    cases hsrc : e.props.src with
    | none =>
      rw [hsrc] at h
      cases h
    | some source =>
      rw [hsrc] at h
      cases h
      rfl
  | document | container | text | link =>
    simp only [hk] at h
    cases h
    rfl

theorem setPieces_imageIds {expand : Node δ → Except Fault (Element δ)}
    {set : Element δ → Except Fault (Block × List Mention)}
    (hset : ∀ e b ms, set e = .ok (b, ms) → b.imageIds = mentionedIds ms) {ps : List (Piece δ)}
    {bs : List Block} {ms : List Mention} (h : setPieces expand set ps = .ok (bs, ms)) :
    Document.imageIds bs = mentionedIds ms := by
  induction ps generalizing bs ms with
  | nil =>
    cases h
    rfl
  | cons p ps ih =>
    cases p with
    | text t =>
      obtain ⟨rest, hrest, rfl⟩ := setPieces_text_eq_ok h
      rw [Document.imageIds, ih hrest]
      rfl
    | node n =>
      obtain ⟨e, b, first, rest, ms', -, hb, hrest, rfl, rfl⟩ := setPieces_node_eq_ok h
      rw [Document.imageIds, hset e b first hb, ih hrest, mentionedIds_append]

/-- **The images in a block** are those that are mentioned, by induction on the levels. -/
theorem setElement_imageIds {levels : Nat} {t : Typography} {e : Element δ} {b : Block}
    {ms : List Mention} (h : setElement render s levels t e = .ok (b, ms)) :
    b.imageIds = mentionedIds ms := by
  induction levels generalizing t e b ms with
  | zero => cases h
  | succ n ih =>
    obtain ⟨n', c, image, hn, hc, hcase⟩ := setElement_eq_ok h
    obtain rfl : n' = n := by omega
    have hcontent := content_imageId hc
    rcases hcase with ⟨characters, htext, -, rfl, rfl⟩ | ⟨bs, rest, -, hbs, rfl, rfl⟩
    · have hnone : images e = [] := by simp [images, htext]
      rw [(content_eq_ok hc).2.2, hnone, List.append_nil, mentionedIds_typography]
      rfl
    · have hrest := setPieces_imageIds (fun e b ms he => ih he) hbs
      simp [Block.imageIds, hcontent, hrest]

/-- A page keeps its images when it becomes a sheet. -/
theorem imageIds_ofBlock {default : Page.Dimensions} {levels : Nat} {t : Typography}
    {e : Element δ} {b : Block} {ms : List Mention} (hpage : kind e = .page)
    (h : setElement render s levels t e = .ok (b, ms)) :
    (Sheet.ofBlock default b).imageIds = mentionedIds ms := by
  rw [← setElement_imageIds h]
  obtain ⟨n, c, image, -, hc, hcase⟩ := setElement_eq_ok h
  rcases hcase with ⟨characters, htext, -⟩ | ⟨bs, rest, -, -, rfl, -⟩
  · rw [hpage] at htext
    cases htext
  · have hkind := (content_eq_ok hc).1
    rw [hpage] at hkind
    cases c with
    | page size margin => simp [Sheet.ofBlock, Sheet.imageIds, Block.imageIds, Content.imageId?]
    | document | container | text | image | link => cases hkind

theorem setSheets_imageIds {t : Typography} {default : Page.Dimensions} {levels : Nat}
    {expand : Node δ → Except Fault (Element δ)} {ps : List (Piece δ)} {sheets : List Sheet}
    {ms : List Mention}
    (h : setSheets expand (setElement render s levels t) default ps = .ok (sheets, ms)) :
    sheets.flatMap (·.imageIds) = mentionedIds ms := by
  induction ps generalizing sheets ms with
  | nil =>
    cases h
    rfl
  | cons p ps ih =>
    cases p with
    | text t => exact ih h
    | node n =>
      obtain ⟨e, -, ⟨hpage, b, first, rest, ms', hb, hrest, rfl, rfl⟩ | ⟨-, hrest⟩⟩ :=
        setSheets_node_eq_ok h
      · rw [List.flatMap_cons, imageIds_ofBlock hpage hb, ih hrest, mentionedIds_append]
      · exact ih hrest

/-- The images of a document are those of mentions that are, in order, the images on its sheets. -/
theorem typeset_mentionedIds {root : Node δ} {d : Document} (h : typeset render s root = .ok d) :
    ∃ ms, d.images = imageUsages ms ∧ d.sheets.flatMap (·.imageIds) = mentionedIds ms := by
  obtain ⟨e, -, ⟨-, hd⟩ | ⟨-, b, ms, hb, rfl⟩⟩ := typeset_eq_ok h
  · obtain ⟨sheets, ms, hsheets, -, rfl⟩ := setDocument_eq_ok hd
    refine ⟨_, rfl, ?_⟩
    rw [mentionedIds_append, mentionedIds_typography, List.nil_append]
    exact setSheets_imageIds hsheets
  · refine ⟨ms, rfl, ?_⟩
    split
    · rename_i hpage
      simp [assemble, imageIds_ofBlock hpage hb]
    · simp [assemble, Sheet.imageIds, Document.imageIds, setElement_imageIds hb]

/-- **A document lists exactly the images on its sheets.** -/
theorem typeset_imageIds {root : Node δ} {d : Document} (h : typeset render s root = .ok d)
    (id : String) :
    id ∈ d.images.map (·.id) ↔ ∃ sheet ∈ d.sheets, id ∈ sheet.imageIds := by
  obtain ⟨ms, himages, hsheets⟩ := typeset_mentionedIds h
  rw [himages, mem_imageUsages, ← hsheets, List.mem_flatMap]

end Galley.Typeset
