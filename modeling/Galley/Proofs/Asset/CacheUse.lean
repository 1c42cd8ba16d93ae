import Galley.Proofs.Asset.FontResolution
import Galley.Proofs.Asset.History
import Galley.Proofs.Asset.ImageResolution

/-!
# How resolutions use the caches

A resolution looks into one slot. What is there is its result; otherwise it asks the world outside
and at last keeps what it found in the same slot, and then the result is what the slot has
(`Plan.Looks`, `Plan.Fills`). Producers are asked before it, nothing else is.

Therefore its last use of a cache tells its result (`Plan.Looks.ends`), and one that was served at
its first look fetched nothing (`Plan.Looks.not_isFetch`).
-/

namespace Galley.Asset

open Font (Descriptor Face)
open Image (Source)

variable {α β : Type} {E : Use → α → Prop} {log : List Exchange} {p p' : Plan α} {a : α}
  {slot : Slot} {held : Held}

/-- Is it a question to the network? -/
def Request.isFetch : Request → Bool
  | .fetch _ _ => true
  | _ => false

namespace Plan

/-- The plan has missed in a slot. It uses no cache until it keeps a value there, which ends it. -/
def Fills (E : Use → α → Prop) (slot : Slot) : Plan α → Prop
  | .done a => E (.missed slot) a
  | .ask r next => ∀ answer,
    match Exchange.use ⟨r, answer⟩ with
    | .none => (next answer).Fills E slot
    | .missed _ => False
    | .served slot' held => slot' = slot ∧ ∃ a, next answer = .done a ∧ E (.served slot held) a

/-- The plan fetches nothing until it looks into a slot. If it is served there, this ends it. -/
def Looks (E : Use → α → Prop) : Plan α → Prop
  | .done a => E .none a
  | .ask r next => ∀ answer,
    match Exchange.use ⟨r, answer⟩ with
    | .none => r.isFetch = false ∧ (next answer).Looks E
    | .missed slot => (next answer).Fills E slot
    | .served slot held => ∃ a, next answer = .done a ∧ E (.served slot held) a

theorem Answered.of_done (h : (done a).Answered log p) : log = [] ∧ p = done a := by
  cases h
  exact ⟨rfl, rfl⟩

namespace Fills

/-- A question outside the caches goes on, and the one that keeps a value ends the plan. -/
theorem ask_iff {r : Request} {next : r.Answer → Plan α} :
    (ask r next).Fills E slot ↔ ∀ answer,
      Exchange.use ⟨r, answer⟩ = .none ∧ (next answer).Fills E slot ∨
      ∃ held a, Exchange.use ⟨r, answer⟩ = .served slot held ∧ next answer = .done a ∧
        E (.served slot held) a := by
  refine forall_congr' fun answer => ?_
  cases Exchange.use ⟨r, answer⟩ with
  | none => simp
  | missed => simp
  | served slot' held =>
    constructor
    · rintro ⟨rfl, a, hnext, ha⟩
      exact .inr ⟨held, a, rfl, hnext, ha⟩
    · rintro (⟨huse, -⟩ | ⟨held, a, huse, hnext, ha⟩)
      · cases huse
      · cases huse
        exact ⟨rfl, a, hnext, ha⟩

theorem ends (hp : p.Fills E slot) (h : p.Answered log (.done a)) :
    E ((Use.missed slot).orLater (lastUse log)) a := by
  generalize hq : done a = q at h
  induction h with
  | nil p =>
    subst hq
    exact hp
  | @cons r next answer log p hrest ih =>
    subst hq
    rcases ask_iff.1 hp answer with ⟨huse, hnext⟩ | ⟨held, b, huse, hnext, hb⟩
    · simpa [lastUse, huse] using ih hnext rfl
    · rw [hnext] at hrest
      obtain ⟨rfl, hdone⟩ := hrest.of_done
      cases hdone
      simpa [lastUse, huse, Use.orLater] using hb

/-- It does not look into a slot again. -/
theorem not_get (hp : p.Fills E slot) (h : p.Answered log p') (slot' : Slot)
    (answer : slot'.get.Answer) : ⟨slot'.get, answer⟩ ∉ log := by
  induction h with
  | nil p => exact List.not_mem_nil
  | @cons r next answer' log p hrest ih =>
    intro hmem
    rcases List.mem_cons.1 hmem with heq | hmem
    · cases heq
      -- The slot might be empty, and then there would be a second miss.
      cases slot' with
      | font face => exact hp none
      | image url => exact hp none
    · rcases ask_iff.1 hp answer' with ⟨-, hnext⟩ | ⟨-, b, -, hnext, -⟩
      · exact ih hnext hmem
      · rw [hnext] at hrest
        obtain ⟨rfl, -⟩ := hrest.of_done
        exact List.not_mem_nil hmem

theorem map {f : β → α} {p : Plan β} (h : p.Fills (fun use b => E use (f b)) slot) :
    (p.bind fun b => .done (f b)).Fills E slot := by
  induction p with
  | done b => exact h
  | ask r next ih =>
    refine ask_iff.2 fun answer => ?_
    rcases ask_iff.1 h answer with ⟨huse, hnext⟩ | ⟨held, b, huse, hnext, hb⟩
    · exact .inl ⟨huse, ih answer hnext⟩
    · exact .inr ⟨held, f b, huse, congrArg (·.bind fun b => .done (f b)) hnext, hb⟩

/-- What is asked of the world outside may come first. -/
theorem of_fetches {P : β → Prop} {p : Plan β} {f : β → Plan α} (h : p.Fetches P)
    (hf : ∀ b, P b → (f b).Fills E slot) : (p.bind f).Fills E slot := by
  induction p with
  | done b => exact hf b h
  | ask r next ih =>
    obtain ⟨houtside, hnext⟩ := h
    intro answer
    cases r with
    | fetch | produce => exact ih answer (hnext answer)
    | cachedFont | keepFont | registered | cachedImage | keepImage => cases houtside

end Fills

namespace Looks

/-- A question outside the caches goes on, and so does a miss. To be served ends the plan. -/
theorem ask_iff {r : Request} {next : r.Answer → Plan α} :
    (ask r next).Looks E ↔ ∀ answer,
      (Exchange.use ⟨r, answer⟩ = .none ∧ r.isFetch = false ∧ (next answer).Looks E) ∨
      (∃ slot, Exchange.use ⟨r, answer⟩ = .missed slot ∧ (next answer).Fills E slot) ∨
      ∃ slot held a, Exchange.use ⟨r, answer⟩ = .served slot held ∧ next answer = .done a ∧
        E (.served slot held) a := by
  refine forall_congr' fun answer => ?_
  cases Exchange.use ⟨r, answer⟩ <;> simp

/-- **The last use tells the result.** -/
theorem ends (hp : p.Looks E) (h : p.Answered log (.done a)) : E (lastUse log) a := by
  generalize hq : done a = q at h
  induction h with
  | nil p =>
    subst hq
    exact hp
  | @cons r next answer log p hrest ih =>
    subst hq
    rcases ask_iff.1 hp answer with ⟨huse, -, hnext⟩ | ⟨slot, huse, hnext⟩ |
      ⟨slot, held, b, huse, hnext, hb⟩
    · simpa [lastUse, huse] using ih hnext rfl
    · simpa [lastUse, huse] using hnext.ends hrest
    · rw [hnext] at hrest
      obtain ⟨rfl, hdone⟩ := hrest.of_done
      cases hdone
      simpa [lastUse, huse] using hb

/-- **Served at a look, a plan fetches nothing**, before it or later. -/
theorem not_isFetch (hp : p.Looks E) (h : p.Answered log p') {answer : slot.get.Answer}
    (hmem : ⟨slot.get, answer⟩ ∈ log)
    (hserved : Exchange.use ⟨slot.get, answer⟩ = .served slot held) :
    ∀ x ∈ log, x.1.isFetch = false := by
  induction h with
  | nil p => exact fun x hx => nomatch hx
  | @cons r next answer' log p hrest ih =>
    have hlater : ∀ {use}, Exchange.use ⟨r, answer'⟩ = use → use ≠ .served slot held →
        ⟨slot.get, answer⟩ ∈ log := by
      intro use huse hne
      rcases List.mem_cons.1 hmem with heq | hlater
      · cases heq
        exact absurd (huse.symm.trans hserved) hne
      · exact hlater
    rcases ask_iff.1 hp answer' with ⟨huse, hfetch, hnext⟩ | ⟨slot', huse, hnext⟩ |
      ⟨slot', held', b, huse, hnext, -⟩
    · exact List.forall_mem_cons.2 ⟨hfetch, ih hnext (hlater huse nofun)⟩
    · exact absurd (hlater huse nofun) (hnext.not_get hrest slot answer)
    · rw [hnext] at hrest
      obtain ⟨rfl, -⟩ := hrest.of_done
      refine List.forall_mem_singleton.2 ?_
      cases r with
      | fetch => cases huse
      | cachedFont | keepFont | registered | cachedImage | keepImage | produce => rfl

theorem map {f : β → α} {p : Plan β} (h : p.Looks fun use b => E use (f b)) :
    (p.bind fun b => .done (f b)).Looks E := by
  induction p with
  | done b => exact h
  | ask r next ih =>
    refine ask_iff.2 fun answer => ?_
    rcases ask_iff.1 h answer with ⟨huse, hfetch, hnext⟩ | ⟨slot, huse, hnext⟩ |
      ⟨slot, held, b, huse, hnext, hb⟩
    · exact .inl ⟨huse, hfetch, ih answer hnext⟩
    · exact .inr (.inl ⟨slot, huse, hnext.map⟩)
    · refine .inr (.inr ⟨slot, held, f b, huse, ?_, hb⟩)
      exact congrArg (·.bind fun b => .done (f b)) hnext

end Looks

end Plan

/-! ## Fonts -/

/-- What a request for a font ends with, by its last use of a cache. -/
def FontEnds (face : Face) : Use → Except Fault LoadedFont → Prop
  | .none, _ => False
  | .missed slot, o => slot = .font face ∧ ∃ fault, o = .error fault
  | .served slot held, o => slot = .font face ∧ ∃ font, held = .font font ∧ o = .ok font

theorem FontEnds.of_ok {face : Face} {use : Use} {font : LoadedFont}
    (h : FontEnds face use (.ok font)) : use = .served (.font face) (.font font) := by
  cases use with
  | none => exact h.elim
  | missed slot =>
    obtain ⟨-, fault, hfault⟩ := h
    cases hfault
  | served slot held =>
    obtain ⟨rfl, font', rfl, hfont⟩ := h
    cases hfont
    rfl

/-- **A request for a font** uses the slot of its face. -/
theorem FontRequest.resolve_looks (s : Settings.Fetching) (r : FontRequest) :
    (r.resolve s).outcome.Looks (FontEnds r.face) := by
  rw [resolve_outcome]
  rintro (_ | font)
  · show (r.afterCache s none).Fills (FontEnds r.face) (.font r.face)
    intro d
    refine .of_fetches (r.load_loads s d) fun o ho => ?_
    cases o with
    | error fault => exact ⟨rfl, fault, rfl⟩
    | ok font =>
      have hface : font.face = r.face := ho font rfl
      intro kept
      exact ⟨congrArg Slot.font hface, .ok kept, rfl, rfl, kept, rfl, rfl⟩
  · exact ⟨.ok font, rfl, rfl, font, rfl, rfl⟩

/-! ## Images -/

/-- What an image ends with under an id, by the last use of a cache. Without any, it came from
data. -/
def ImageEnds (id : String) : Use → Except Fault LoadedImage → Prop
  | .none, o => ∀ image, o = .ok image → image.id = id
  | .missed _, o => ∃ fault, o = .error fault
  | .served _ held, o => ∃ image, held = .image image ∧ o = .ok { image with id := id }

theorem ImageEnds.id_eq {id : String} {use : Use} {image : LoadedImage}
    (h : ImageEnds id use (.ok image)) : image.id = id := by
  cases use with
  | none => exact h image rfl
  | missed slot =>
    obtain ⟨fault, hfault⟩ := h
    cases hfault
  | served slot held =>
    obtain ⟨found, -, himage⟩ := h
    cases himage
    rfl

theorem resolveUrl_looks (id url : String) : (resolveUrl id url).outcome.Looks (ImageEnds id) := by
  by_cases hremote : isRemote url = true
  · rw [resolveUrl_outcome hremote]
    rintro (_ | image)
    · show ((fetchImage id url).outcome.bind (renamed id)).Fills (ImageEnds id) (.image url)
      rw [fetchImage_outcome]
      intro reply
      show ((keepImage url (imageOf id url reply)).outcome.bind (renamed id)).Fills _ _
      cases imageOf id url reply with
      | error fault => exact ⟨fault, rfl⟩
      | ok image =>
        intro kept
        exact ⟨rfl, _, rfl, kept, rfl, rfl⟩
    · exact ⟨_, rfl, image, rfl, rfl⟩
  · rw [resolveUrl_of_not_isRemote hremote]
    intro image himage
    cases himage

theorem resolveDataUri_id {id uri : String} {image : LoadedImage}
    (h : resolveDataUri id uri = .ok image) : image.id = id := by
  unfold resolveDataUri at h
  cases hdecode : Image.DataUri.decode id uri with
  | error fault =>
    rw [hdecode] at h
    cases h
  | ok decoded =>
    rw [hdecode] at h
    cases h
    rfl

theorem resolveBytes_id {id : String} {bytes : Bytes} {image : LoadedImage}
    (h : resolveBytes id bytes = .ok image) : image.id = id := by
  unfold resolveBytes at h
  split at h
  · cases h
    rfl
  · cases h

/-- **An image**, by induction on the producers that may be asked. -/
theorem resolveSource_looks (limit : Nat) (id : String) (n : Nat) (source : Source) :
    (resolveSource limit id n source).outcome.Looks (ImageEnds id) := by
  induction n generalizing source with
  | zero =>
    cases source with
    | url url => exact resolveUrl_looks id url
    | dataUri uri => exact fun image himage => resolveDataUri_id himage
    | bytes bytes => exact fun image himage => resolveBytes_id himage
    | deferred producer =>
      intro image himage
      cases himage
  | succ n ih =>
    cases source with
    | url url => exact resolveUrl_looks id url
    | dataUri uri => exact fun image himage => resolveDataUri_id himage
    | bytes bytes => exact fun image himage => resolveBytes_id himage
    | deferred producer =>
      rw [resolveSource_deferred]
      rintro (report | next)
      · refine ⟨rfl, fun image himage => ?_⟩
        cases himage
      · exact ⟨rfl, ih next⟩

end Galley.Asset
