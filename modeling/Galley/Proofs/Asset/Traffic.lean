import Galley.Proofs.Asset.CacheUse
import Galley.Proofs.Asset.Registrations

/-!
# What resolutions fetch

For an image its address is fetched; for a font the file that is registered, or a stylesheet of the
catalog and then a file that it names. Each is fetched once at most, and none if the cache has the
image or the font.

**Theorems (`History.font_traffic`, `History.image_traffic`).** While fonts are not registered and
caches not cleared, this is what a task fetches in a history, by the store at the start.

What a plan fetches is read off the plan, whatever the answers (`Plan.Sends`). That it found a
cache empty, or a font registered, goes back to the first store, because what is in a slot stays
there (`History.held?_quiet`).
-/

namespace Galley.Font

/-- The file of a registered font, if it is to be fetched. -/
def Descriptor.file? (d : Descriptor) : Option String :=
  match d.origin with
  | .data _ => none
  | .url url => some url

end Galley.Font

namespace Galley.Asset

open Font (Descriptor Face)
open Image (Source)

variable {α β : Type}

/-! ## Addresses -/

/-- The address that is fetched. -/
def Request.address? : Request → Option String
  | .fetch url _ => some url
  | _ => none

/-- The addresses that are fetched, in order. -/
def fetched (log : List Exchange) : List String := log.filterMap fun x => x.1.address?

theorem mem_exchanges {i : Nat} {es : List Event} {r : Request} {answer : r.Answer} :
    ⟨r, answer⟩ ∈ exchanges i es ↔ .asked i r answer ∈ es := by
  constructor
  · intro h
    obtain ⟨e, he, hx⟩ := List.mem_filterMap.1 h
    cases e with
    | registered | cleared => cases hx
    | asked task r' answer' =>
      by_cases htask : task = i
      · simp only [Event.exchange?, htask, if_true, Option.some.injEq] at hx
        cases hx
        exact htask ▸ he
      · simp [Event.exchange?, htask] at hx
  · intro h
    exact List.mem_filterMap.2 ⟨_, h, by simp [Event.exchange?]⟩

namespace Plan

/-- Whatever the answers, the addresses that the plan has fetched at any time are of a kind. -/
def Sends : Plan α → (List String → Prop) → Prop
  | done _, T => T []
  | ask r next, T => T [] ∧ ∀ answer, (next answer).Sends fun urls => T (r.address?.toList ++ urls)

namespace Sends

variable {T T' : List String → Prop} {p : Plan α}

theorem fetched (h : p.Sends T) {log : List Exchange} {p' : Plan α} (hp : p.Answered log p') :
    T (fetched log) := by
  induction hp generalizing T with
  | nil p =>
    cases p with
    | done a => exact h
    | ask r next => exact h.1
  | @cons r next answer log p hrest ih =>
    have hnext := ih (h.2 answer)
    cases haddress : r.address? <;> simpa [Asset.fetched, haddress] using hnext

/-- One plan after another. -/
theorem bind {f : α → Plan β} (h : p.Sends T) (hmono : ∀ us, T us → T' us)
    (hf : ∀ us, T us → ∀ a, (f a).Sends fun vs => T' (us ++ vs)) : (p.bind f).Sends T' := by
  induction p generalizing T T' with
  | done a => exact hf [] h a
  | ask r next ih =>
    refine ⟨hmono [] h.1, fun answer => ih answer (h.2 answer) (fun us hus => hmono _ hus) ?_⟩
    intro us hus a
    have hsends := hf _ hus a
    simpa only [List.append_assoc] using hsends

end Sends

/-- A plan whose result is changed asks the same. -/
theorem Answered.of_map {f : α → β} {p : Plan α} {log : List Exchange} {p' : Plan β}
    (h : (p.bind fun a => done (f a)).Answered log p') :
    ∃ p'', p.Answered log p'' ∧ p' = p''.bind fun a => done (f a) := by
  induction p generalizing log with
  | done a =>
    obtain ⟨rfl, rfl⟩ := Answered.of_done h
    exact ⟨_, .nil _, rfl⟩
  | ask r next ih =>
    cases h with
    | nil => exact ⟨_, .nil _, rfl⟩
    | cons hrest =>
      obtain ⟨p'', hp, heq⟩ := ih _ hrest
      exact ⟨p'', .cons hp, heq⟩

theorem Answered.of_map_done {f : α → β} {p : Plan α} {log : List Exchange} {b : β}
    (h : (p.bind fun a => done (f a)).Answered log (done b)) :
    ∃ a, p.Answered log (done a) ∧ f a = b := by
  obtain ⟨p', hp, heq⟩ := h.of_map
  cases p' with
  | done a => exact ⟨a, hp, (done.inj heq).symm⟩
  | ask r next => cases heq

/-- One plan after another is done when the second one is. -/
theorem Answered.of_bind_done {p : Plan α} {f : α → Plan β} {log : List Exchange} {b : β}
    (h : (p.bind f).Answered log (done b)) :
    ∃ first last a, log = first ++ last ∧ p.Answered first (done a) ∧
      (f a).Answered last (done b) := by
  induction p generalizing log with
  | done a => exact ⟨[], log, a, rfl, .nil _, h⟩
  | ask r next ih =>
    cases h with
    | @cons _ _ answer log _ hrest =>
      obtain ⟨first, last, a, rfl, hfirst, hlast⟩ := ih answer hrest
      exact ⟨⟨r, answer⟩ :: first, last, a, rfl, .cons hfirst, hlast⟩

end Plan

/-- One task after another. -/
theorem Task.sends_bind {T T' : List String → Prop} {t : Task α} {f : α → Task β}
    (h : t.outcome.Sends T) (hmono : ∀ us, T us → T' us)
    (hf : ∀ us, T us → ∀ a, (f a).outcome.Sends fun vs => T' (us ++ vs)) :
    Plan.Sends (t >>= f).outcome T' := by
  refine Plan.Sends.bind h hmono fun us hus o => ?_
  cases o with
  | error fault =>
    show T' (us ++ [])
    rw [List.append_nil]
    exact hmono us hus
  | ok a => exact hf us hus a

theorem Task.sends_throw {T : List String → Prop} (fault : Fault) (h : T []) :
    (throw fault : Task α).outcome.Sends T := h

/-! ## Fonts -/

theorem fetchFont_sends (face : Face) (url : String) :
    (fetchFont face url).outcome.Sends fun us => us.Sublist [url] := by
  refine ⟨List.nil_sublist _, fun reply => ?_⟩
  cases reply with
  | error message => exact .refl _
  | ok response =>
    show Plan.Sends (if response.isSuccess = true then pure response.body
      else throw (Fault.font face (some url) (.status response.status)) : Task Bytes).outcome _
    by_cases h : response.isSuccess = true
    · rw [if_pos h]
      exact .refl _
    · rw [if_neg h]
      exact .refl _

theorem fontOf_sends (face : Face) (url : Option String) (data : Bytes) (cause : Fault.FontCause)
    {T : List String → Prop} (h : T []) : (fontOf face url data cause).outcome.Sends T := by
  unfold fontOf
  split <;> exact h

theorem loadRegistered_sends (face : Face) (d : Descriptor) :
    (loadRegistered face d).outcome.Sends fun us => us.Sublist d.file?.toList := by
  unfold loadRegistered Descriptor.file?
  cases d.origin with
  | data data => exact fontOf_sends _ _ _ _ (.refl _)
  | url url =>
    refine Task.sends_bind (fetchFont_sends face url) (fun us hus => hus) fun us hus data => ?_
    refine fontOf_sends _ _ _ _ ?_
    rw [List.append_nil]
    exact hus

theorem loadFromCatalog_sends (catalogUrl family : String) (face : Face) :
    (loadFromCatalog catalogUrl family face).outcome.Sends fun us => ∃ file, us.Sublist
      [Font.stylesheetUrl catalogUrl (Font.catalogName family) face.weight face.slant, file] := by
  have hsheet : ∀ {sheet : String} {us : List String}, us.Sublist [sheet] →
      ∃ file, us.Sublist [sheet, file] := by
    intro sheet us hus
    exact ⟨"", hus.trans (List.sublist_append_left [sheet] [""])⟩
  refine Task.sends_bind (fetchFont_sends face _) (fun us hus => hsheet hus) fun us hus css => ?_
  split
  · refine Task.sends_throw _ ?_
    rw [List.append_nil]
    exact hsheet hus
  · rename_i url _
    refine Task.sends_bind (fetchFont_sends face url)
      (fun vs hvs => ⟨url, hus.append hvs⟩) fun vs hvs data => ?_
    refine fontOf_sends _ _ _ _ ⟨url, ?_⟩
    rw [List.append_nil]
    exact hus.append hvs

namespace FontRequest

/-- What may be fetched for a face that is not in the cache, where a font is registered for it or
not: the file of that font, or a stylesheet and a file, each once at most. -/
def Calls (s : Settings.Fetching) (r : FontRequest) : Option Descriptor → List String → Prop
  | some d, us => us.Sublist d.file?.toList
  | none, us => ∃ file, us.Sublist
      [Font.stylesheetUrl s.catalogUrl (Font.catalogName r.family) r.weight r.slant, file]

theorem Calls.nil (s : Settings.Fetching) (r : FontRequest) (d : Option Descriptor) :
    r.Calls s d [] := by
  cases d with
  | some d => exact List.nil_sublist _
  | none => exact ⟨"", List.nil_sublist _⟩

theorem load_sends (s : Settings.Fetching) (r : FontRequest) (d : Option Descriptor) :
    (r.load s d).outcome.Sends (r.Calls s d) := by
  cases d with
  | some d => exact loadRegistered_sends r.face d
  | none => exact loadFromCatalog_sends s.catalogUrl r.family r.face

theorem keep_sends (s : Settings.Fetching) (r : FontRequest) (d : Option Descriptor) :
    ((r.load s d).outcome.bind keep).Sends (r.Calls s d) := by
  refine .bind (r.load_sends s d) (fun us hus => hus) fun us hus o => ?_
  have hus' : r.Calls s d (us ++ []) := by rwa [List.append_nil]
  cases o with
  | error fault => exact hus'
  | ok font => exact ⟨hus', fun _ => hus'⟩

/-- What a request fetches, by what it was told of the cache and the registered fonts. -/
theorem resolve_fetched {s : Settings.Fetching} {r : FontRequest} {log : List Exchange}
    {p : Plan (Except Fault LoadedFont)} (h : (r.resolve s).outcome.Answered log p) :
    fetched log = [] ∨ ∃ d, ⟨.cachedFont r.face, none⟩ ∈ log ∧ ⟨.registered r.face, d⟩ ∈ log ∧
      r.Calls s d (fetched log) := by
  rw [resolve_outcome] at h
  cases h with
  | nil => exact .inl rfl
  | @cons _ _ cached log _ h =>
    cases cached with
    | some font =>
      obtain ⟨rfl, -⟩ := h.of_done
      exact .inl rfl
    | none =>
      cases h with
      | nil => exact .inl rfl
      | @cons _ _ d log _ h =>
        refine .inr ⟨d, List.mem_cons_self, List.mem_cons_of_mem _ List.mem_cons_self, ?_⟩
        show r.Calls s d (fetched log)
        exact (r.keep_sends s d).fetched h

end FontRequest

/-! ## Images -/

theorem afterImageCache_sends (id url : String) :
    (afterImageCache id url none).Sends fun us => us.Sublist [url] := by
  show ((fetchImage id url).outcome.bind (renamed id)).Sends _
  rw [fetchImage_outcome]
  refine ⟨List.nil_sublist _, fun reply => ?_⟩
  show ((keepImage url (imageOf id url reply)).outcome.bind (renamed id)).Sends _
  cases imageOf id url reply with
  | error fault => exact .refl _
  | ok image => exact ⟨.refl _, fun _ => .refl _⟩

/-- What an image fetches, unless it is a producer's, by what it was told of the cache. -/
theorem resolveSource_fetched {limit n : Nat} {id : String} {source : Source} {log : List Exchange}
    {p : Plan (Except Fault LoadedImage)} (hsource : ∀ producer, source ≠ .deferred producer)
    (h : (resolveSource limit id n source).outcome.Answered log p) :
    fetched log = [] ∨ ∃ url, source = .url url ∧ isRemote url = true ∧
      ⟨.cachedImage url, none⟩ ∈ log ∧ (fetched log).Sublist [url] := by
  have hdone : ∀ {o : Except Fault LoadedImage}, (Plan.done o).Answered log p → fetched log = [] := by
    intro o h
    obtain ⟨rfl, -⟩ := h.of_done
    rfl
  cases source with
  | deferred producer => exact absurd rfl (hsource producer)
  | dataUri uri => cases n <;> exact .inl (hdone h)
  | bytes bytes => cases n <;> exact .inl (hdone h)
  | url url =>
    have hurl : (resolveUrl id url).outcome.Answered log p := by cases n <;> exact h
    by_cases hremote : isRemote url = true
    · rw [resolveUrl_outcome hremote] at hurl
      cases hurl with
      | nil => exact .inl rfl
      | @cons _ _ cached log _ h =>
        cases cached with
        | some image =>
          obtain ⟨rfl, -⟩ := h.of_done
          exact .inl rfl
        | none =>
          refine .inr ⟨url, rfl, hremote, List.mem_cons_self, ?_⟩
          show (fetched log).Sublist [url]
          exact (afterImageCache_sends id url).fetched h
    · rw [resolveUrl_of_not_isRemote hremote] at hurl
      exact .inl (hdone hurl)

/-- An address that is resolved was served from its slot at last. -/
theorem resolveUrl_served {id url : String} {log : List Exchange} {image : LoadedImage}
    (h : (resolveUrl id url).outcome.Answered log (.done (.ok image))) :
    ∃ held, lastUse log = .served (.image url) held := by
  have hlooks : (resolveUrl id url).outcome.Looks fun use o =>
      ∀ image, o = .ok image → ∃ held, use = .served (.image url) held := by
    by_cases hremote : isRemote url = true
    · rw [resolveUrl_outcome hremote]
      rintro (_ | found)
      · show ((fetchImage id url).outcome.bind (renamed id)).Fills _ (.image url)
        rw [fetchImage_outcome]
        intro reply
        show ((keepImage url (imageOf id url reply)).outcome.bind (renamed id)).Fills _ _
        cases imageOf id url reply with
        | error fault => exact fun image himage => nomatch himage
        | ok image =>
          intro kept
          exact ⟨rfl, _, rfl, fun _ _ => ⟨_, rfl⟩⟩
      · exact ⟨_, rfl, fun _ _ => ⟨_, rfl⟩⟩
    · rw [resolveUrl_of_not_isRemote hremote]
      exact fun image himage => nomatch himage
  exact hlooks.ends h image rfl

/-! ## Histories without registrations and clears -/

/-- Is it a question? -/
def Event.isAsked : Event → Bool
  | asked .. => true
  | registered .. | cleared _ => false

/-- Only questions are asked; no font is registered and no cache cleared. -/
def Quiet (es : List Event) : Prop := ∀ e ∈ es, e.isAsked = true

instance (es : List Event) : Decidable (Quiet es) :=
  inferInstanceAs (Decidable (∀ e ∈ es, e.isAsked = true))

theorem Quiet.head {e : Event} {es : List Event} (h : Quiet (e :: es)) : e.isAsked = true :=
  h e List.mem_cons_self

theorem Quiet.tail {e : Event} {es : List Event} (h : Quiet (e :: es)) : Quiet es :=
  fun e he => h e (List.mem_cons_of_mem _ he)

section Quiet

variable {c q : Shared α} {es : List Event} {i : Nat} {slot : Slot} {held : Held}

theorem Event.clears_of_isAsked {e : Event} {shelf : Shelf} (h : e.isAsked = true) :
    e.clears shelf = false := by
  cases e with
  | asked => rfl
  | registered | cleared => cases h

namespace History

/-- **What is in a slot stays there.** -/
theorem held?_quiet (h : History c es q) (hquiet : Quiet es)
    (hheld : c.store.held? slot = some held) : q.store.held? slot = some held := by
  induction h with
  | nil c => exact hheld
  | cons h _ ih =>
    exact ih hquiet.tail (h.kept (Event.clears_of_isAsked hquiet.head) hheld)

/-- What was served from a slot is in it at the end. -/
theorem held?_of_servedAt (h : History c es q) (hquiet : Quiet es) {k : Nat}
    (hserved : ServedAt es i k slot held) : q.store.held? slot = some held := by
  induction h generalizing k with
  | nil c => simp [ServedAt] at hserved
  | cons h hrest ih =>
    cases k with
    | zero =>
      exact hrest.held?_quiet hquiet.tail (h.held?_of_served (by simpa [ServedAt] using hserved))
    | succ k => exact ih hquiet.tail (by simpa [ServedAt] using hserved)

/-- A slot from which a task was served at last has what it was served. -/
theorem held?_of_lastUse (h : History c es q) (hquiet : Quiet es)
    (huse : lastUse (exchanges i es) = .served slot held) : q.store.held? slot = some held := by
  obtain ⟨k, -, hserved⟩ := exists_finalUse_of_served huse
  exact h.held?_of_servedAt hquiet hserved

/-- A slot in which a look finds nothing was empty at the start. -/
theorem held?_of_missed (h : History c es q) (hquiet : Quiet es) {answer : slot.get.Answer}
    (hmem : .asked i slot.get answer ∈ es)
    (hmissed : Exchange.use ⟨slot.get, answer⟩ = .missed slot) : c.store.held? slot = none := by
  cases hheld : c.store.held? slot with
  | none => rfl
  | some held =>
    exfalso
    induction h with
    | nil c => exact absurd hmem List.not_mem_nil
    | @cons c d q e es h _ ih =>
      rcases List.mem_cons.1 hmem with rfl | hmem
      · have huse : Event.use i (.asked i slot.get answer) = Exchange.use ⟨slot.get, answer⟩ := by
          simp [Event.use, Event.exchange?]
        have hserved := h.served_of_held? (i := i) (by rw [huse, hmissed]; rfl) hheld
        rw [huse, hmissed] at hserved
        cases hserved
      · exact ih hquiet.tail hmem (h.kept (Event.clears_of_isAsked hquiet.head) hheld)

/-- Whoever asks for a registered font is told of the one at the start. -/
theorem lookup?_of_asked (h : History c es q) (hquiet : Quiet es) {face : Face}
    {d : Option Descriptor} (hmem : .asked i (.registered face) d ∈ es) :
    c.store.registry.lookup? face = d := by
  obtain ⟨k, hk⟩ := List.getElem?_of_mem hmem
  have hnone : registrations (es.take k) = [] := by
    refine List.filterMap_eq_nil_iff.2 fun e he => ?_
    have hasked := hquiet e (List.mem_of_mem_take he)
    cases e with
    | asked => rfl
    | registered | cleared => cases hasked
  have hlookup := h.lookup?_of_asked_at hk
  rwa [hnone] at hlookup

/-- Only a task that there is asks something. -/
theorem lt_of_asked (h : History c es q) {r : Request} {answer : r.Answer}
    (hmem : .asked i r answer ∈ es) : i < c.plans.length := by
  induction h with
  | nil c => exact absurd hmem List.not_mem_nil
  | cons h _ ih =>
    rcases List.mem_cons.1 hmem with heq | hmem
    · subst heq
      cases h with
      | asked _ A hr => exact (List.getElem?_eq_some_iff.1 hr).1
    · have hlt := ih hmem
      cases h with
      | registered | cleared => exact hlt
      | asked => simpa using hlt

section Tasks

variable {s : Settings.Fetching} (h : History c es q) (hquiet : Quiet es)

include h hquiet

/-- **What is fetched for a font**, by the store at the start: nothing if it is in the cache, and
otherwise what its request calls for. -/
theorem font_traffic {r : FontRequest} {f : Except Fault LoadedFont → α}
    (hplan : c.plans[i]? = some ((r.resolve s).outcome.bind fun o => .done (f o))) :
    fetched (exchanges i es) = [] ∨ c.store.fonts.get? r.face = none ∧
      r.Calls s (c.store.registry.lookup? r.face) (fetched (exchanges i es)) := by
  obtain ⟨p, -, hanswered⟩ := h.answered hplan
  obtain ⟨p', hanswered, -⟩ := hanswered.of_map
  rcases FontRequest.resolve_fetched hanswered with hnone | ⟨d, hmissed, hregistered, hcalls⟩
  · exact .inl hnone
  · have hempty : c.store.held? (.font r.face) = none :=
      h.held?_of_missed hquiet (mem_exchanges.1 hmissed) rfl
    rw [h.lookup?_of_asked hquiet (mem_exchanges.1 hregistered)]
    exact .inr ⟨Option.map_eq_none_iff.1 hempty, hcalls⟩

/-- **What is fetched for an image** that is no producer's, by the store at the start: its address
once at most, if it is one of the network that is not in the cache. -/
theorem image_traffic {limit n : Nat} {id : String} {source : Source}
    {f : Except Fault LoadedImage → α} (hsource : ∀ producer, source ≠ .deferred producer)
    (hplan : c.plans[i]? =
      some ((resolveSource limit id n source).outcome.bind fun o => .done (f o))) :
    fetched (exchanges i es) = [] ∨ ∃ url, source = .url url ∧ isRemote url = true ∧
      c.store.images.get? url = none ∧ (fetched (exchanges i es)).Sublist [url] := by
  obtain ⟨p, -, hanswered⟩ := h.answered hplan
  obtain ⟨p', hanswered, -⟩ := hanswered.of_map
  rcases resolveSource_fetched hsource hanswered with hnone | ⟨url, hurl, hremote, hmissed, hsub⟩
  · exact .inl hnone
  · have hempty : c.store.held? (.image url) = none :=
      h.held?_of_missed hquiet (mem_exchanges.1 hmissed) rfl
    exact .inr ⟨url, hurl, hremote, Option.map_eq_none_iff.1 hempty, hsub⟩

end Tasks

end History

end Quiet

end Galley.Asset
