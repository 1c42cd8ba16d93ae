import Galley.Proofs.Image.Identity
import Galley.Proofs.Typeset.Expansion
import Galley.Proofs.Typeset.ImageManifest
import Galley.Proofs.Typeset.Origin
import Galley.Proofs.Typeset.UsageMerge
import Galley.Proofs.Typeset.Visits

/-!
# The order of images

While a tree is typeset, an image leaves its identity in its block and a usage in the list of the
document, unless the list has one with that identity. So two things grow along one walk, and must
agree in the end.

**Theorem (`typeset_listsImages`).** The list has each identity once, that of its usage's source.
The identities in it are those in the blocks of the document, in the order in which they first
appear there, and each comes from an image that was reached, so never from a child of a document
that is no page. If digests tell the sources of the tree apart, two image blocks have one identity
only if they show the same source.

Both sides are what the elements mention: the list by merging (`imageUsages_ids`), and the blocks in
the order of the walk (`imageIds_allBlocks`).
-/

namespace Galley

namespace Document

mutual

/-- The images in a block are those of all blocks within it, in order. -/
theorem Block.imageIds_eq :
    ∀ b : Block, b.imageIds = b.preorder.filterMap fun c => c.content.imageId?
  | ⟨content, style, children⟩ => by
    rw [Block.imageIds, Block.preorder, Document.imageIds_eq children]
    cases content <;> rfl

theorem imageIds_eq :
    ∀ bs : List Block, imageIds bs = (preorder bs).filterMap fun c => c.content.imageId?
  | [] => rfl
  | b :: bs => by
    rw [imageIds, preorder, List.filterMap_append, Block.imageIds_eq b, imageIds_eq bs]

end

end Document

/-- The identities in the blocks of a document, in order and with repetition. -/
def Document.shownIds (d : Document) : List String :=
  d.allBlocks.filterMap fun b => b.content.imageId?

theorem Document.imageIds_allBlocks (d : Document) :
    d.sheets.flatMap (·.imageIds) = d.shownIds := by
  rw [shownIds, allBlocks, List.filterMap_flatMap]
  simp only [Sheet.imageIds, imageIds_eq]

namespace Typeset

open Document (Block Content)
open Image (Source)
open Markup (Element Node Piece Rendering)

variable {δ : Type} {render : Rendering δ} {s : Settings.Typesetting} {root : Node δ}

/-! ## Sources in a tree -/

/-- An image that is reached has the source. -/
def Pictured (render : Rendering δ) (s : Settings.Typesetting) (root : Node δ) (source : Source) :
    Prop :=
  ∃ depth e, Reached render s root depth e ∧ kind e = .image ∧ e.props.src = some source

/-- The block is that of an image that is reached and has the source. -/
def Shows (render : Rendering δ) (s : Settings.Typesetting) (root : Node δ) (b : Block)
    (source : Source) : Prop :=
  ∃ depth e, Reached render s root depth e ∧ BlockOf render s depth e b ∧ kind e = .image ∧
    e.props.src = some source

theorem Shows.pictured {b : Block} {source : Source} (h : Shows render s root b source) :
    Pictured render s root source := by
  obtain ⟨depth, e, he, -, himage, hsrc⟩ := h
  exact ⟨depth, e, he, himage, hsrc⟩

theorem BlockOf.content_eq {depth : Nat} {e : Element δ} {b : Block}
    (h : BlockOf render s depth e b) (himage : kind e = .image) :
    ∃ source, e.props.src = some source ∧ b.content = .image source.identity := by
  obtain ⟨-, c, ms, hc, ⟨htext, -⟩ | ⟨hcontent, -⟩⟩ := h.parts
  · rw [himage] at htext
    cases htext
  · rw [content, himage] at hc
    cases hsrc : e.props.src with
    | none =>
      rw [hsrc] at hc
      cases hc
    | some source =>
      rw [hsrc] at hc
      cases hc
      exact ⟨source, rfl, hcontent⟩

theorem Shows.content_eq {b : Block} {source : Source} (h : Shows render s root b source) :
    b.content = .image source.identity := by
  obtain ⟨depth, e, -, hb, himage, hsrc⟩ := h
  obtain ⟨source', hsrc', hcontent⟩ := hb.content_eq himage
  rw [hsrc] at hsrc'
  cases hsrc'
  exact hcontent

/-- Every image block of a document shows a source. -/
theorem exists_shows {d : Document} (h : typeset render s root = .ok d) {b : Block}
    (hb : b ∈ d.allBlocks) {id : String} (hid : b.content = .image id) :
    ∃ source, Shows render s root b source := by
  cases typeset_origin h hb with
  | text => cases hid
  | @element depth e b he hblock =>
    have himage : kind e = .image := by
      rw [← hblock.kind_eq, hid]
      rfl
    obtain ⟨source, hsrc, -⟩ := hblock.content_eq himage
    exact ⟨source, depth, e, he, hblock, himage, hsrc⟩

/-! ## Visits are reached -/

theorem elementVisits_reached {levels depth : Nat} {around : List Style} {e : Element δ}
    (he : Reached render s root depth e) :
    ∀ v ∈ elementVisits render s levels around e, ∃ depth, Reached render s root depth v.element := by
  induction levels generalizing depth around e with
  | zero =>
    intro v hv
    exact absurd hv List.not_mem_nil
  | succ levels ih =>
    intro v hv
    rcases List.mem_cons.1 hv with rfl | hv
    · exact ⟨depth, he⟩
    · obtain ⟨c, hc, hv⟩ := List.mem_flatMap.1 hv
      obtain ⟨n, hn, hexpand⟩ := mem_expansions.1 hc
      exact ih (he.child hn hexpand) v hv

/-- Every element that is visited is reached, but for a document at the root. -/
theorem visits_reached :
    ∀ v ∈ visits render s root,
      kind v.element = .document ∨ ∃ depth, Reached render s root depth v.element := by
  intro v hv
  rw [visits] at hv
  cases he : expand render s.componentLimit root with
  | error f =>
    rw [he] at hv
    exact absurd hv List.not_mem_nil
  | ok e =>
    simp only [he] at hv
    split at hv
    · rename_i hdoc
      rcases List.mem_cons.1 hv with rfl | hv
      · exact .inl hdoc
      · obtain ⟨p, hp, hv⟩ := List.mem_flatMap.1 hv
        obtain ⟨hp, hpage⟩ := List.mem_filter.1 hp
        obtain ⟨n, hn, hexpand⟩ := mem_expansions.1 hp
        exact .inr (elementVisits_reached (.page he hdoc hn hexpand (by simpa using hpage)) v hv)
    · rename_i hdoc
      exact .inr (elementVisits_reached (.root he hdoc) v hv)

theorem image_mem_mentions {v : Visit δ} {source : Source} (h : .image source ∈ v.mentions) :
    kind v.element = .image ∧ v.element.props.src = some source := by
  rcases List.mem_append.1 h with h | h
  · unfold Typography.mentions at h
    split at h
    · split at h <;> simp at h
    · exact absurd h List.not_mem_nil
  · unfold images at h
    split at h
    · rename_i himage hsrc
      cases List.mem_singleton.1 h
      exact ⟨himage, hsrc⟩
    · exact absurd h List.not_mem_nil

/-- **The usages of a document** are those of sources in the tree. -/
theorem typeset_pictured {d : Document} (h : typeset render s root = .ok d) :
    ∀ u ∈ d.images, u.id = u.source.identity ∧ Pictured render s root u.source := by
  intro u hu
  rw [(typeset_mentions h).2, imageUsages_eq] at hu
  obtain ⟨m, hm, husage⟩ := List.mem_filterMap.1 (mem_of_mem_distinctBy hu)
  cases m with
  | face family weight slant => cases husage
  | image source =>
    cases husage
    refine ⟨rfl, ?_⟩
    obtain ⟨v, hv, hm⟩ := List.mem_flatMap.1 hm
    obtain ⟨himage, hsrc⟩ := image_mem_mentions hm
    rcases visits_reached v hv with hdoc | ⟨depth, hreached⟩
    · rw [himage] at hdoc
      cases hdoc
    · exact ⟨depth, v.element, hreached, himage, hsrc⟩

/-! ## The list -/

/-- The identities in a list of usages are the first ones among those that are mentioned. -/
theorem imageUsages_ids (ms : List Mention) :
    (imageUsages ms).map (·.id) = (mentionedIds ms).eraseDups := by
  have hids : mentionedIds ms = (ms.filterMap Mention.imageUsage?).map (·.id) := by
    rw [mentionedIds, List.map_filterMap]
    refine List.filterMap_congr fun m _ => ?_
    cases m <;> rfl
  have hfirst : ∀ ids : List String, ids.eraseDups = distinctBy id ids := fun _ => rfl
  rw [imageUsages_eq, hids, hfirst, distinctBy_map]
  rfl

/-- **The list of images** has the identities in the blocks once each, in their order. Where digests
tell sources apart, an identity stands for one source. -/
theorem typeset_listsImages {d : Document} (h : typeset render s root = .ok d) :
    (d.images.map (·.id)).Nodup ∧
    (∀ u ∈ d.images, u.id = u.source.identity ∧ Pictured render s root u.source) ∧
    d.images.map (·.id) = d.shownIds.eraseDups ∧
    (∀ b ∈ d.allBlocks, ∀ id, b.content = .image id →
      ∃ source, Shows render s root b source ∧ id = source.identity) ∧
    ∀ place, Source.ToldApart place (Pictured render s root) →
      ∀ b b' source source', Shows render s root b source → Shows render s root b' source' →
        (b.content.imageId? = b'.content.imageId? ↔ source = source') ∧
        (Source.digestName (source.tagged place) = Source.digestName (source'.tagged place) ↔
          source = source') := by
  obtain ⟨ms, himages, hshown⟩ := typeset_mentionedIds h
  refine ⟨?_, typeset_pictured h, ?_, ?_, ?_⟩
  · rw [himages, imageUsages_eq]
    exact nodup_distinctBy _
  · rw [himages, imageUsages_ids, ← hshown, Document.imageIds_allBlocks]
  · intro b hb id hid
    obtain ⟨source, hshows⟩ := exists_shows h hb hid
    have hcontent := hshows.content_eq
    rw [hid] at hcontent
    exact ⟨source, hshows, Content.image.inj hcontent⟩
  · intro place happart b b' source source' hb hb'
    refine ⟨?_, Source.digestName_tagged_eq_iff happart hb.pictured hb'.pictured⟩
    rw [hb.content_eq, hb'.content_eq, ← Source.identity_eq_iff happart hb.pictured hb'.pictured]
    exact Option.some_inj

/-! ## A gallery -/

/-- A picture of a source. -/
def picture (source : Source) : Element Empty :=
  ⟨"img", { Markup.Props.empty with src := some source }, []⟩

/-- A page with pictures on it. -/
def gallery (sources : List Source) : Element Empty :=
  ⟨"page", .empty, sources.map fun source => .node (picture source).node⟩

/-- There are no components. -/
def motionless : Rendering Empty := fun definition _ => nomatch definition

theorem mem_pieces_gallery {sources : List Source} {n : Node Empty} :
    .node n ∈ Markup.pieces (gallery sources).children ↔
      ∃ source ∈ sources, n = (picture source).node := by
  have hpieces : Markup.pieces (gallery sources).children =
      sources.map fun source => .node (picture source).node := by
    rw [gallery]
    induction sources with
    | nil => rfl
    | cons source sources ih =>
      rw [List.map_cons, List.map_cons, ← ih]
      rfl
  rw [hpieces, List.mem_map]
  constructor
  · rintro ⟨source, hsource, hn⟩
    cases hn
    exact ⟨source, hsource, rfl⟩
  · rintro ⟨source, hsource, rfl⟩
    exact ⟨source, hsource, rfl⟩

theorem kind_gallery (sources : List Source) : kind (gallery sources) = .page := by
  show Document.Kind.ofTag "page" = _
  decide

/-- Nothing but its pictures is in a gallery. -/
theorem reached_gallery {sources : List Source} {depth : Nat} {e : Element Empty}
    (h : Reached motionless .default (gallery sources).node depth e) :
    e = gallery sources ∨ ∃ source ∈ sources, e = picture source := by
  induction h with
  | root he hdoc =>
    rw [expand_node] at he
    cases he
    exact .inl rfl
  | page he hdoc hn hp hpage =>
    rw [expand_node] at he
    cases he
    rw [kind_gallery] at hdoc
    cases hdoc
  | child he hn hc ih =>
    rcases ih with rfl | ⟨source, hsource, rfl⟩
    · obtain ⟨source, hsource, rfl⟩ := mem_pieces_gallery.1 hn
      rw [expand_node] at hc
      cases hc
      exact .inr ⟨source, hsource, rfl⟩
    · exact absurd hn List.not_mem_nil

theorem pictured_gallery {sources : List Source} {source : Source}
    (h : Pictured motionless .default (gallery sources).node source) : source ∈ sources := by
  obtain ⟨depth, e, he, himage, hsrc⟩ := h
  rcases reached_gallery he with rfl | ⟨source', hsource', rfl⟩
  · rw [kind_gallery] at himage
    cases himage
  · cases hsrc
    exact hsource'

/-- Sources of all variants, two of them twice. -/
def exhibits : List Source :=
  [.url "cat.png", .deferred ⟨"cam", 0⟩, .dataUri "cat.png", .url "cat.png",
    .bytes (Bytes.ofText "cat.png"), .deferred ⟨"cam", 0⟩]

/-- The place of a producer, as if it were its name. -/
def placeOf (p : Image.Producer) : Bytes := Bytes.ofText p.name

theorem exhibits_toldApart :
    Source.ToldApart placeOf (Pictured motionless .default (gallery exhibits).node) := by
  have hdigests : ∀ a ∈ exhibits, ∀ b ∈ exhibits,
      Source.digestName (a.tagged placeOf) = Source.digestName (b.tagged placeOf) →
        a.tagged placeOf = b.tagged placeOf := by
    decide +kernel
  have hcam : ∀ p, .deferred p ∈ exhibits → p = ⟨"cam", 0⟩ := by
    intro p hp
    simpa [exhibits] using hp
  constructor
  · intro a b ha hb
    exact hdigests a (pictured_gallery ha) b (pictured_gallery hb)
  · intro p q hp hq _
    rw [hcam p (pictured_gallery hp), hcam q (pictured_gallery hq)]

theorem exhibits_listsImages :
    ∃ d, typeset motionless .default (gallery exhibits).node = .ok d ∧
      (d.images.map (·.id)).Nodup ∧ d.images.map (·.id) = d.shownIds.eraseDups ∧
      d.shownIds.length = 6 ∧ d.images.length = 4 ∧
      ∀ b b' source source',
        Shows motionless .default (gallery exhibits).node b source →
        Shows motionless .default (gallery exhibits).node b' source' →
          (b.content.imageId? = b'.content.imageId? ↔ source = source') := by
  have htypeset : ∃ d, typeset motionless .default (gallery exhibits).node = .ok d ∧
      d.shownIds.length = 6 ∧ d.images.length = 4 := ⟨_, rfl, by decide +kernel, by decide +kernel⟩
  obtain ⟨d, hd, hshown, hlisted⟩ := htypeset
  obtain ⟨hnodup, -, hids, -, happart⟩ := typeset_listsImages hd
  refine ⟨d, hd, hnodup, hids, hshown, hlisted, ?_⟩
  intro b b' source source' hb hb'
  exact (happart placeOf exhibits_toldApart b b' source source' hb hb').1

end Typeset

end Galley
