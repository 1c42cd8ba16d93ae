import Galley.Press.Renderer
import Galley.Proofs.Asset.FontResolution
import Galley.Proofs.Asset.ImageResolution
import Galley.Proofs.Typeset.FontManifest

/-!
# Assembly in any order

The fonts and the images of a document may be fetched side by side, with their questions in any
order (`resolutions`, `EveryAssembly`).

**Theorem (`everyAssembly_prepare`).** In a world that answers alike, every order comes to an end,
with the result of fetching one after another, and with the same contents of the caches, apart
from the names of kept images.

Each resolution ends with its value over the first store, whatever the others do. For fonts this
needs that no two requests of a document are for one face (`fontRequests_nodup`), since requests
for one face in different spellings may differ. Images may share addresses; there the image that is
kept depends on the order by its name only. In the end a cache has what it had at the start and
the values of the resolutions, no less and no more, so that it is the same for every order
(`Settled.sameContent`).
-/

namespace Galley.Press

open Asset
open Document (ImageUsage)
open Font (Face)
open Markup (Node Rendering)

variable {δ σ : Type} {render : Rendering δ} {A : Answers}

/-! ## Fetching side by side -/

/-- The outcome for a font or for an image. -/
abbrev Outcome := Except Fault LoadedFont ⊕ Except Fault LoadedImage

/-- What is resolved for a document: the requests for fonts, then the images. -/
abbrev Item := FontRequest ⊕ ImageUsage

/-- The items of a document. -/
def items (s : Settings.Fetching) (d : Document) : List Item :=
  (fontRequests s d.fonts).map .inl ++ d.images.map .inr

/-- The plan of an item. -/
def resolution (s : Settings.Fetching) : Item → Plan Outcome
  | .inl r => (r.resolve s).outcome.bind fun o => .done (.inl o)
  | .inr u => (resolveImage s u.id u.source).outcome.bind fun o => .done (.inr o)

/-- The plans that run side by side for a document. -/
def resolutions (s : Settings.Fetching) (d : Document) : List (Plan Outcome) :=
  (items s d).map (resolution s)

/-- What the outcomes make of a document. -/
def assembled (d : Document) (outcomes : List Outcome) : Except Fault Context :=
  (settle (outcomes.filterMap Sum.getLeft?)).map fun fonts =>
    ⟨d, fonts, collectImages ((d.images.map (·.id)).zip (outcomes.filterMap Sum.getRight?))⟩

/-- However the fetching for a tree is ordered, it ends, with a result and a store of a kind. A
fault of the tree is the result at once. -/
def EveryAssembly (w : World σ) (render : Rendering δ) (s : Settings) (root : Node δ)
    (state : Store × σ) (Q : Except Fault Context → Store → Prop) : Prop :=
  match Typeset.typeset render s.typesetting root with
  | .error fault => Q (.error fault) state.1
  | .ok d => Inevitably w (fun outcomes after => Q (assembled d outcomes) after.1)
      ⟨resolutions s.fetching d, state⟩

/-- The stores are the same, apart from the names of kept images. -/
structure SameContent (s t : Store) : Prop where
  fonts : ∀ face, s.fonts.get? face = t.fonts.get? face
  images : ∀ url, (s.images.get? url).map (fun image => { image with id := "" }) =
    (t.images.get? url).map fun image => { image with id := "" }
  registry : s.registry = t.registry

/-! ## What each item ends with -/

section Items

variable {s : Settings.Fetching} {d : Document} {st : Store}

/-- The value of an item over a store. -/
def itemValue (A : Answers) (s : Settings.Fetching) (st : Store) : Item → Outcome
  | .inl r => .inl (r.value A s st)
  | .inr u => .inr (sourceValue A st s.producerLimit u.id s.producerLimit u.source)

/-- What the caches hold because of an item. -/
def Entry (A : Answers) (s : Settings.Fetching) (st : Store) : Item → Store → Prop
  | .inl r, t => ∀ font, r.value A s st = .ok font → t.fonts.get? r.face = some font
  | .inr u, t => ∀ url, Leads A s.producerLimit u.source url → isRemote url = true →
      ∀ image, imageAt A u.id url = .ok image → ∃ kept, t.images.get? url = some kept

/-- A font is kept because a request of the document has it as its value. -/
def FontReason (A : Answers) (s : Settings.Fetching) (d : Document) (st : Store) (face : Face)
    (font : LoadedFont) : Prop :=
  ∃ r ∈ fontRequests s d.fonts, r.face = face ∧ r.value A s st = .ok font

/-- An image is kept because an image of the document leads to its address. -/
def ImageReason (A : Answers) (s : Settings.Fetching) (d : Document) (url : String)
    (image : LoadedImage) : Prop :=
  ∃ u ∈ d.images, Leads A s.producerLimit u.source url ∧ isRemote url = true ∧
    ∃ id, imageAt A id url = .ok image

/-- The changes that the items of a document make. -/
def changes (A : Answers) (s : Settings.Fetching) (d : Document) (st : Store) : Change :=
  growth (FontReason A s d st) (ImageReason A s d)

theorem entry_keeps {α : Type} (a : α) (i : Item) :
    (changes A s d st).Keeps fun o t => o = a ∧ Entry A s st i t := by
  rintro o t u htu ⟨ho, hentry⟩
  refine ⟨ho, ?_⟩
  cases i with
  | inl r => exact fun font hfont => htu.fonts.kept (hentry font hfont)
  | inr usage =>
    intro url hleads hremote image himage
    obtain ⟨kept, hkept⟩ := hentry url hleads hremote image himage
    exact ⟨kept, htu.images.kept hkept⟩

theorem font_ensures (hnodup : ((fontRequests s d.fonts).map FontRequest.face).Nodup)
    {r : FontRequest} (hr : r ∈ fontRequests s d.fonts) :
    (r.resolve s).outcome.Ensures A (changes A s d st)
      (fun o t => o = r.value A s st ∧ Entry A s st (.inl r) t) st := by
  -- No other request is for the face.
  have hreason : ∀ font, FontReason A s d st r.face font ↔ r.value A s st = .ok font := by
    intro font
    constructor
    · rintro ⟨q, hq, hface, hvalue⟩
      rwa [← List.inj_on_of_nodup_map hnodup hq hr hface]
    · exact fun hvalue => ⟨r, hr, rfl, hvalue⟩
  refine (FontRequest.resolve_ensures hreason).mono fun o t ho => ⟨ho.1, fun font hfont => ?_⟩
  exact ho.2 font (ho.1.trans hfont)

theorem image_ensures {u : ImageUsage} (hu : u ∈ d.images) :
    (resolveImage s u.id u.source).outcome.Ensures A (changes A s d st)
      (fun o t => o = sourceValue A st s.producerLimit u.id s.producerLimit u.source ∧
        Entry A s st (.inr u) t) st := by
  refine resolveSource_ensures ((changes A s d st).refl st) ?_ ?_
  · rintro url image ⟨_, _, _, _, hid⟩
    exact hid
  · exact fun url hleads hremote image himage => ⟨u, hu, hleads, hremote, u.id, himage⟩

theorem resolution_ensures (hnodup : ((fontRequests s d.fonts).map FontRequest.face).Nodup)
    {i : Item} (hi : i ∈ items s d) :
    (resolution s i).Ensures A (changes A s d st)
      (fun o t => o = itemValue A s st i ∧ Entry A s st i t) st := by
  rcases List.mem_append.1 hi with hi | hi
  · obtain ⟨r, hr, rfl⟩ := List.mem_map.1 hi
    exact .bind ((font_ensures hnodup hr).mono fun o t ho => ⟨congrArg Sum.inl ho.1, ho.2⟩)
  · obtain ⟨u, hu, rfl⟩ := List.mem_map.1 hi
    exact .bind ((image_ensures hu).mono fun o t ho => ⟨congrArg Sum.inr ho.1, ho.2⟩)

/-! ## What all items end with -/

/-- The store has grown from the first one, and every item has its entry. -/
def Settled (A : Answers) (s : Settings.Fetching) (d : Document) (st t : Store) : Prop :=
  (changes A s d st).Holds st t ∧ ∀ i ∈ items s d, Entry A s st i t

/-- The result of the values of all items. -/
def settledResult (A : Answers) (s : Settings.Fetching) (d : Document) (st : Store) :
    Except Fault Context :=
  assembled d ((items s d).map (itemValue A s st))

theorem forall₂_eq_map {α β : Type} {P : α → Prop} {f : α → β} {as : List α} {bs : List β}
    (h : List.Forall₂ (fun a b => b = f a ∧ P a) as bs) : bs = as.map f ∧ ∀ a ∈ as, P a := by
  induction h with
  | nil => exact ⟨rfl, fun a ha => nomatch ha⟩
  | cons hab _ ih =>
    obtain ⟨rfl, ha⟩ := hab
    obtain ⟨rfl, has⟩ := ih
    exact ⟨rfl, List.forall_mem_cons.2 ⟨ha, has⟩⟩

theorem settledResult_eq : settledResult A s d st =
    (settle ((fontRequests s d.fonts).map fun r => r.value A s st)).map fun fonts =>
      ⟨d, fonts, collectImages ((d.images.map (·.id)).zip (d.images.map fun u =>
        sourceValue A st s.producerLimit u.id s.producerLimit u.source))⟩ := by
  simp [settledResult, assembled, items, itemValue, List.filterMap_append, List.filterMap_map,
    Function.comp_def]

/-- Side by side, in every order. -/
theorem inevitably_settled {w : World σ} (hw : w.Gives A)
    (hnodup : ((fontRequests s d.fonts).map FontRequest.face).Nodup) (x : σ) :
    Inevitably w (fun outcomes after =>
      assembled d outcomes = settledResult A s d st ∧ Settled A s d st after.1)
      ⟨resolutions s d, (st, x)⟩ := by
  have hitems : List.Forall₂
      (fun i p => p.Ensures A (changes A s d st)
        (fun o t => o = itemValue A s st i ∧ Entry A s st i t) st)
      (items s d) (resolutions s d) :=
    List.forall₂_map_right_iff.2 (List.forall₂_same.2 fun i hi => resolution_ensures hnodup hi)
  refine (inevitably_of_ensures hw (fun i => entry_keeps _ i) hitems x).mono ?_
  rintro outcomes after ⟨houtcomes, hgrown⟩
  obtain ⟨rfl, hentries⟩ := forall₂_eq_map houtcomes
  exact ⟨rfl, hgrown, hentries⟩

/-- One after another. -/
theorem gather_ensures (hnodup : ((fontRequests s d.fonts).map FontRequest.face).Nodup) :
    (gather s d).Ensures A (changes A s d st)
      (fun result t => result = settledResult A s d st ∧ Settled A s d st t) st := by
  have hfonts : List.Forall₂
      (fun r p => p.Ensures A (changes A s d st)
        (fun o t => o = r.value A s st ∧ Entry A s st (.inl r) t) st)
      (fontRequests s d.fonts) ((fontRequests s d.fonts).map fun r => (r.resolve s).outcome) :=
    List.forall₂_map_right_iff.2 (List.forall₂_same.2 fun r hr => font_ensures hnodup hr)
  have himages : List.Forall₂
      (fun u p => p.Ensures A (changes A s d st)
        (fun o t => o = sourceValue A st s.producerLimit u.id s.producerLimit u.source ∧
          Entry A s st (.inr u) t) st)
      d.images (d.images.map fun u => (resolveImage s u.id u.source).outcome) :=
    List.forall₂_map_right_iff.2 (List.forall₂_same.2 fun u hu => image_ensures hu)
  have hfirst := Plan.Ensures.inTurn (fun r => entry_keeps _ (.inl r)) hfonts
  show (Plan.bind (Plan.bind (Plan.inTurn _) _) _).Ensures A (changes A s d st) _ st
  refine .bind (.bind (hfirst.holds.mono fun fonts t ⟨hvalues, hst⟩ => ?_))
  have hsecond := Plan.Ensures.inTurn (fun u => entry_keeps _ (.inr u))
    (himages.imp fun u p hp => hp.later (entry_keeps _ (.inr u)) hst)
  show (Plan.bind (Plan.bind (Plan.inTurn _) _) _).Ensures A (changes A s d st) _ t
  refine .bind (.bind (hsecond.holds.mono fun images t' ⟨hvalues', hst'⟩ => ?_))
  obtain ⟨rfl, hfontEntries⟩ := forall₂_eq_map hvalues
  obtain ⟨rfl, himageEntries⟩ := forall₂_eq_map hvalues'
  refine ⟨settledResult_eq.symm, (changes A s d st).trans hst hst', fun i hi => ?_⟩
  rcases List.mem_append.1 hi with hi | hi
  · obtain ⟨r, hr, rfl⟩ := List.mem_map.1 hi
    -- The images come later and leave the entries of the fonts.
    exact (entry_keeps () (.inl r) () t t' hst' ⟨rfl, hfontEntries r hr⟩).2
  · obtain ⟨u, hu, rfl⟩ := List.mem_map.1 hi
    exact himageEntries u hu

/-! ## One content for every order -/

namespace Settled

variable {t t' : Store}

theorem fonts (h : Settled A s d st t) (h' : Settled A s d st t') {face : Face}
    {font : LoadedFont} (hfont : t.fonts.get? face = some font) : t'.fonts.get? face = some font := by
  rcases h.1.fonts.new hfont with hst | ⟨r, hr, rfl, hvalue⟩
  · exact h'.1.fonts.kept hst
  · exact h'.2 (.inl r) (List.mem_append_left _ (List.mem_map_of_mem hr)) font hvalue

theorem images (h : Settled A s d st t) (h' : Settled A s d st t') {url : String}
    {image : LoadedImage} (himage : t.images.get? url = some image) :
    ∃ image', t'.images.get? url = some image' ∧
      { image' with id := "" } = { image with id := "" } := by
  rcases h.1.images.new himage with hst | ⟨u, hu, hleads, hremote, id, hid⟩
  · exact ⟨image, h'.1.images.kept hst, rfl⟩
  · obtain ⟨image', himage'⟩ := h'.2 (.inr u) (List.mem_append_right _ (List.mem_map_of_mem hu))
      url hleads hremote _ (imageAt_id hid _)
    refine ⟨image', himage', ?_⟩
    rcases h'.1.images.new himage' with hst | ⟨_, _, _, _, id', hid'⟩
    · -- What was there at the start is there in both stores.
      have hsame := h.1.images.kept hst
      rw [himage] at hsame
      cases hsame
      rfl
    · have hsame := (imageAt_id hid' "").symm.trans (imageAt_id hid "")
      exact Except.ok.inj hsame

theorem sameContent (h : Settled A s d st t) (h' : Settled A s d st t') : SameContent t t' := by
  refine ⟨fun face => ?_, fun url => ?_, h.1.registry.trans h'.1.registry.symm⟩
  · cases hfont : t.fonts.get? face with
    | some font => exact (h.fonts h' hfont).symm
    | none =>
      cases hfont' : t'.fonts.get? face with
      | none => rfl
      | some font =>
        rw [h'.fonts h hfont'] at hfont
        cases hfont
  · cases himage : t.images.get? url with
    | some image =>
      obtain ⟨image', himage', hsame⟩ := h.images h' himage
      rw [himage']
      exact congrArg some hsame.symm
    | none =>
      cases himage' : t'.images.get? url with
      | none => rfl
      | some image' =>
        obtain ⟨image, himage'', -⟩ := h'.images h himage'
        rw [himage''] at himage
        cases himage

end Settled

end Items

theorem typeset_fontRequests_nodup {s : Settings} {root : Node δ} {d : Document}
    (h : Typeset.typeset render s.typesetting root = .ok d) :
    ((fontRequests s.fetching d.fonts).map FontRequest.face).Nodup := by
  have hlists := Typeset.typeset_lists h
  refine fontRequests_nodup (fun u hu => ?_) hlists.nodup s.fetching
  simpa using List.find?_some (hlists.names u hu)

/-- **Every order of fetching agrees with fetching one after another.** -/
theorem everyAssembly_prepare {w : World σ} (hw : w.Gives A) (render : Rendering δ) (s : Settings)
    (root : Node δ) (state : Store × σ) :
    EveryAssembly w render s root state fun result after =>
      result = ((prepare render s root).run w state).1 ∧
        SameContent after ((prepare render s root).run w state).2.1 := by
  obtain ⟨st, x⟩ := state
  unfold EveryAssembly prepare
  cases htypeset : Typeset.typeset render s.typesetting root with
  | error fault => exact ⟨rfl, fun _ => rfl, fun _ => rfl, rfl⟩
  | ok d =>
    have hnodup := typeset_fontRequests_nodup htypeset
    have hgather : (gather s.fetching d).Ensures A (changes A s.fetching d st) _ st :=
      gather_ensures hnodup
    obtain ⟨hresult, hstore⟩ := hgather.run hw x
    refine (inevitably_settled hw hnodup x).mono ?_
    rintro outcomes after ⟨houtcomes, hsettled⟩
    exact ⟨houtcomes.trans hresult.symm, hsettled.sameContent hstore⟩

/-! ## Two pictures at one address -/

/-- A picture that a producer hands out. -/
def picture (name : String) : Node Empty :=
  .element "image" { Markup.Props.empty with src := some (.deferred ⟨name, 0⟩) } []

/-- A page with two pictures. -/
def album : Node Empty := .element "page" .empty [.node (picture "left"), .node (picture "right")]

/-- Every producer hands out one address, which has the head of an image. -/
def oneAddress : Answers where
  fetch _ _ := .ok ⟨200, Bytes.ofText "GIF89a"⟩
  produce _ := .ok (.url "https://pictures.example/cat")

/-- A store with a registered font of the default family. -/
def interStore : Store := Store.empty.register "Inter" ⟨400, .normal, .data [1]⟩

/-- Two pictures, one kept image, in every order. -/
theorem album_everyAssembly :
    EveryAssembly oneAddress.world Typeset.plain .default album (interStore, ()) (fun result after =>
      result = ((prepare Typeset.plain .default album).run oneAddress.world (interStore, ())).1 ∧
        SameContent after
          ((prepare Typeset.plain .default album).run oneAddress.world (interStore, ())).2.1) ∧
      (((prepare Typeset.plain .default album).run oneAddress.world
        (interStore, ())).1.toOption.map fun c => (c.fonts.length, c.images.keys)) =
          some (1, ["deferred:left", "deferred:right"]) ∧
      ((prepare Typeset.plain .default album).run oneAddress.world
        (interStore, ())).2.1.images.size = 1 :=
  ⟨everyAssembly_prepare oneAddress.world_gives _ _ _ _, rfl, rfl⟩

end Galley.Press
