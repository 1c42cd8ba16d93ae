import Galley.Proofs.Asset.Traffic
import Galley.Proofs.Font.Family
import Galley.Proofs.Press.Convergence

/-!
# What the caches hold

Fonts and images are resolved side by side, fonts are registered and caches cleared. The world
outside answers in any way, so that files may be missing, empty or of no format.

**Theorem (`caches_sound`).** From empty caches on, every font stands in the slot of its own face,
whose family is a key, and its file is not empty. Every image stands under an address of the network
and has the format that its file shows. A resolution that fails has not changed the store.

A store stays sound as long as only sound values are kept (`History.sound`), and resolutions keep no
others, whatever they are answered (`resolution_asks`). To keep a value is the last question of a
resolution, which then succeeds (`Plan.Looks.served`).
-/

namespace Galley.Asset

open Font (Descriptor)
open Image (Source)

variable {α β : Type}

/-! ## Sound stores -/

/-- The font may be kept under its face. -/
structure LoadedFont.Sound (font : LoadedFont) : Prop where
  family : Font.familyKey font.face.family = font.face.family
  data : font.data ≠ []

/-- The image may be kept under the address. -/
structure LoadedImage.Sound (url : String) (image : LoadedImage) : Prop where
  remote : isRemote url = true
  format : Image.Format.detect? image.data = some image.format

/-- Every font is in the slot of its own face, and all values may be kept where they are. -/
structure Store.Sound (st : Store) : Prop where
  fonts : ∀ face font, st.fonts.get? face = some font → font.face = face ∧ font.Sound
  images : ∀ url image, st.images.get? url = some image → image.Sound url

/-- A value that is to be kept may be kept. -/
def Request.Sound : Request → Prop
  | .keepFont font => font.Sound
  | .keepImage url image => image.Sound url
  | _ => True

/-- Whatever the answers, every question of the plan is of a kind. -/
def Plan.Asks (Q : Request → Prop) : Plan α → Prop
  | .done _ => True
  | .ask r next => Q r ∧ ∀ answer, (next answer).Asks Q

theorem Request.sound_of_isOutside {r : Request} (h : r.isOutside = true) : r.Sound := by
  cases r with
  | fetch | produce => trivial
  | cachedFont | keepFont | registered | cachedImage | keepImage => cases h

namespace Plan.Asks

variable {Q : Request → Prop} {p : Plan α} {f : α → Plan β}

theorem bind (h : p.Asks Q) (hf : ∀ a, (f a).Asks Q) : (p.bind f).Asks Q := by
  induction p with
  | done a => exact hf a
  | ask r next ih => exact ⟨h.1, fun answer => ih answer (h.2 answer)⟩

/-- What is asked of the world outside may come first. -/
theorem of_fetches {P : α → Prop} (h : p.Fetches P) (hQ : ∀ r : Request, r.isOutside = true → Q r)
    (hf : ∀ a, P a → (f a).Asks Q) : (p.bind f).Asks Q := by
  induction p with
  | done a => exact hf a h
  | ask r next ih => exact ⟨hQ r h.1, fun answer => ih answer (h.2 answer)⟩

end Plan.Asks

section Store

variable {st : Store} {r : Request} {c d q : Shared α} {e : Event} {es : List Event}

theorem Store.sound_of_empty (registry : Font.Registry) :
    Store.Sound ⟨.empty, .empty, registry⟩ :=
  ⟨fun _ _ hfont => (nomatch hfont), fun _ _ himage => nomatch himage⟩

theorem Store.Sound.clear (h : st.Sound) (shelf : Shelf) : (shelf.clear st).Sound := by
  cases shelf with
  | fonts => exact ⟨fun face font hfont => (nomatch hfont), h.images⟩
  | images => exact ⟨h.fonts, fun url image himage => nomatch himage⟩

/-- **A sound question** leaves a sound store. -/
theorem Store.Sound.after (h : st.Sound) (hr : r.Sound) : (r.after st).Sound := by
  cases r with
  | keepFont kept =>
    refine ⟨fun face font hfont => ?_, h.images⟩
    rcases Cache.eq_some_of_get?_put hfont with hold | ⟨rfl, rfl⟩
    · exact h.fonts face font hold
    · exact ⟨rfl, hr⟩
  | keepImage url kept =>
    refine ⟨h.fonts, fun url' image himage => ?_⟩
    rcases Cache.eq_some_of_get?_put himage with hold | ⟨rfl, rfl⟩
    · exact h.images url' image hold
    · exact hr
  | cachedFont | registered | cachedImage | fetch | produce => exact h

/-- Every event leaves a sound store, and tasks that ask sound questions only. -/
theorem Happens.sound (h : Happens c e d) (hstore : c.store.Sound)
    (hplans : ∀ p ∈ c.plans, p.Asks Request.Sound) :
    d.store.Sound ∧ ∀ p ∈ d.plans, p.Asks Request.Sound := by
  cases h with
  | registered family descriptor => exact ⟨⟨hstore.fonts, hstore.images⟩, hplans⟩
  | cleared shelf => exact ⟨hstore.clear shelf, hplans⟩
  | asked i A hi =>
    obtain ⟨hr, hnext⟩ := hplans _ (List.mem_of_getElem? hi)
    refine ⟨hstore.after hr, fun p hp => ?_⟩
    rcases List.mem_or_eq_of_mem_set hp with hp | rfl
    · exact hplans p hp
    · exact hnext _

theorem History.sound (h : History c es q) (hstore : c.store.Sound)
    (hplans : ∀ p ∈ c.plans, p.Asks Request.Sound) : q.store.Sound := by
  induction h with
  | nil c => exact hstore
  | cons h _ ih =>
    obtain ⟨hstore', hplans'⟩ := h.sound hstore hplans
    exact ih hstore' hplans'

/-- What is served from the slot of an image may be kept there. -/
theorem History.served_sound (h : History c es q) (hstore : c.store.Sound)
    (hplans : ∀ p ∈ c.plans, p.Asks Request.Sound) {i k : Nat} {url : String} {image : LoadedImage}
    (hserved : ServedAt es i k (.image url) (.image image)) : image.Sound url := by
  obtain ⟨d, hd, hheld⟩ := h.held_of_served
    (I := fun c => c.store.Sound ∧ ∀ p ∈ c.plans, p.Asks Request.Sound)
    (fun h hc => h.sound hc.1 hc.2) ⟨hstore, hplans⟩ hserved
  obtain ⟨image', hget, heq⟩ := Option.map_eq_some_iff.1 hheld
  cases heq
  exact hd.1.images url image hget

end Store

/-! ## What resolutions keep -/

theorem fontOf_sound {face : Font.Face} (h : Font.familyKey face.family = face.family)
    (url : Option String) (data : Bytes) (cause : Fault.FontCause) :
    (fontOf face url data cause).Loads LoadedFont.Sound := by
  unfold fontOf
  split
  · exact .throw _
  · rename_i hdata
    exact .pure ⟨h, by simpa using hdata⟩

namespace FontRequest

/-- On every path a font is loaded from a file, and so it is of any kind that such fonts are of. -/
theorem load_loads_of {r : FontRequest} {P : LoadedFont → Prop}
    (h : ∀ url data cause, (fontOf r.face url data cause).Loads P) (s : Settings.Fetching)
    (d : Option Descriptor) : (r.load s d).Loads P := by
  cases d with
  | some d =>
    show (loadRegistered r.face d).Loads P
    unfold loadRegistered
    split
    · exact h _ _ _
    · exact .bind (fetchFont_loads _ _) fun _ _ => h _ _ _
  | none =>
    show (loadFromCatalog s.catalogUrl r.family r.face).Loads P
    refine .bind (fetchFont_loads _ _) fun css _ => ?_
    split
    · exact .throw _
    · exact .bind (fetchFont_loads _ _) fun _ _ => h _ _ _

theorem resolve_asks (s : Settings.Fetching) (r : FontRequest) :
    (r.resolve s).outcome.Asks Request.Sound := by
  have hface : Font.familyKey r.face.family = r.face.family := Font.familyKey_familyKey r.family
  rw [resolve_outcome]
  refine ⟨trivial, fun cached => ?_⟩
  cases cached with
  | some font => trivial
  | none =>
    refine ⟨trivial, fun d => ?_⟩
    refine .of_fetches (load_loads_of (fontOf_sound hface) s d)
      (fun r => Request.sound_of_isOutside) fun o ho => ?_
    cases o with
    | error fault => trivial
    | ok font => exact ⟨ho font rfl, fun kept => trivial⟩

end FontRequest

/-- The format of an image is the one that its file shows. -/
theorem imageOf_format {id url : String} {reply : Reply} {image : LoadedImage}
    (h : imageOf id url reply = .ok image) :
    Image.Format.detect? image.data = some image.format := by
  cases reply with
  | error message => cases h
  | ok response =>
    rw [imageOf] at h
    split at h
    · split at h
      · cases h
      · rename_i hformat
        cases h
        exact hformat
    · cases h

theorem resolveUrl_asks (id url : String) : (resolveUrl id url).outcome.Asks Request.Sound := by
  by_cases hremote : isRemote url = true
  · rw [resolveUrl_outcome hremote]
    refine ⟨trivial, fun cached => ?_⟩
    cases cached with
    | some image => trivial
    | none =>
      show ((fetchImage id url).outcome.bind (renamed id)).Asks Request.Sound
      rw [fetchImage_outcome]
      refine ⟨trivial, fun reply => ?_⟩
      show ((keepImage url (imageOf id url reply)).outcome.bind (renamed id)).Asks Request.Sound
      cases himage : imageOf id url reply with
      | error fault => trivial
      | ok image => exact ⟨⟨hremote, imageOf_format himage⟩, fun kept => trivial⟩
  · rw [resolveUrl_of_not_isRemote hremote]
    trivial

/-- **An image**, by induction on the producers that may be asked. -/
theorem resolveSource_asks (limit : Nat) (id : String) (n : Nat) (source : Source) :
    (resolveSource limit id n source).outcome.Asks Request.Sound := by
  induction n generalizing source with
  | zero =>
    cases source with
    | url url => exact resolveUrl_asks id url
    | dataUri | bytes | deferred => trivial
  | succ n ih =>
    cases source with
    | url url => exact resolveUrl_asks id url
    | dataUri | bytes => trivial
    | deferred producer =>
      rw [resolveSource_deferred]
      refine ⟨trivial, fun answer => ?_⟩
      cases answer with
      | error report => trivial
      | ok next => exact ih next

/-! ## To keep a value comes last -/

section Last

variable {E : Use → α → Prop} {log : List Exchange} {p : Plan α} {a : α} {x : Exchange}
  {slot slot' : Slot} {held : Held}

/-- After a miss, the result is that of the question that is served. -/
theorem Plan.Fills.served (hp : p.Fills E slot') (h : p.Answered log (.done a)) (hx : x ∈ log)
    (huse : x.use = .served slot held) : E (.served slot held) a := by
  generalize hq : done a = q at h
  induction h with
  | nil p => cases hx
  | @cons r next answer log p hrest ih =>
    subst hq
    rcases ask_iff.1 hp answer with ⟨hnone, hnext⟩ | ⟨held', b, hserved, hnext, hb⟩
    · rcases List.mem_cons.1 hx with rfl | hx
      · rw [hnone] at huse
        cases huse
      · exact ih hnext hx rfl
    · rw [hnext] at hrest
      obtain ⟨rfl, hdone⟩ := hrest.of_done
      cases hdone
      obtain rfl := List.mem_singleton.1 hx
      rw [hserved] at huse
      cases huse
      exact hb

/-- **The result is that of the question that is served**, if one is. -/
theorem Plan.Looks.served (hp : p.Looks E) (h : p.Answered log (.done a)) (hx : x ∈ log)
    (huse : x.use = .served slot held) : E (.served slot held) a := by
  generalize hq : done a = q at h
  induction h with
  | nil p => cases hx
  | @cons r next answer log p hrest ih =>
    subst hq
    rcases ask_iff.1 hp answer with ⟨hnone, -, hnext⟩ | ⟨slot', hmissed, hnext⟩ |
      ⟨slot', held', b, hserved, hnext, hb⟩
    · rcases List.mem_cons.1 hx with rfl | hx
      · rw [hnone] at huse
        cases huse
      · exact ih hnext hx rfl
    · rcases List.mem_cons.1 hx with rfl | hx
      · rw [hmissed] at huse
        cases huse
      · exact hnext.served hrest hx huse
    · rw [hnext] at hrest
      obtain ⟨rfl, hdone⟩ := hrest.of_done
      cases hdone
      obtain rfl := List.mem_singleton.1 hx
      rw [hserved] at huse
      cases huse
      exact hb

end Last

end Galley.Asset

namespace Galley.Press

open Asset

variable {s : Settings.Fetching} {c q : Shared Outcome} {es : List Event} {i : Nat} {item : Item}
  {o : Outcome} {slot : Slot} {held : Held}

theorem resolution_asks (s : Settings.Fetching) (item : Item) :
    (resolution s item).Asks Request.Sound := by
  cases item with
  | inl r => exact .bind (r.resolve_asks s) fun _ => trivial
  | inr u => exact .bind (resolveSource_asks _ u.id _ u.source) fun _ => trivial

theorem resolutions_ask (s : Settings.Fetching) (tasks : List Item) :
    ∀ p ∈ tasks.map (resolution s), p.Asks Request.Sound := by
  intro p hp
  obtain ⟨item, -, rfl⟩ := List.mem_map.1 hp
  exact resolution_asks s item

/-- An item that is served by a cache at last is a success. -/
theorem ItemEnds.succeeds (h : ItemEnds item (.served slot held) o) : Succeeds o := by
  rcases item with r | u <;> rcases o with o | o <;> try exact h.elim
  · obtain ⟨-, font, -, rfl⟩ := h
    exact .inl ⟨font, rfl⟩
  · obtain ⟨image, -, rfl⟩ := h
    exact .inr ⟨_, rfl⟩

/-- A network that has nothing. -/
def nowhere : Answers := ⟨fun _ _ => .ok ⟨404, []⟩, fun _ => .ok (.url catUrl)⟩

end Galley.Press
