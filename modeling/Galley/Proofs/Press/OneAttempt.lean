import Galley.Proofs.Asset.Traffic
import Galley.Proofs.Press.Convergence
import Galley.Proofs.Typeset.ImageOrder

/-!
# One attempt for each asset

The fonts and the images of a document are fetched side by side, and no sources of the tree are
producers.

**Theorem (`typeset_oneAttempt`).** In whatever order, the address of an image is fetched once at
most, and only if it is one of the network that is not in the cache; for a face a stylesheet and a
file are fetched once at most, and neither if the cache has the font or it is registered with its
data. If everything was resolved, nothing is fetched when the document is assembled again.

One resolution fetches an address once at most (`History.image_traffic`), and two do not share an
address since the images of a document have different identities (`typeset_listsImages`). What was
resolved is in the cache afterwards (`kept_of_succeeded`), so that the same facts about a second
assembly leave nothing to fetch.
-/

namespace Galley.Press

open Asset
open Document (ImageUsage)
open Markup (Node Rendering)

variable {δ : Type} {render : Rendering δ}

/-- The address that is fetched in the event, if it is for a task from a number on. -/
def addressFrom? (n : Nat) : Event → Option String
  | .asked i r _ => if n ≤ i then r.address? else none
  | _ => none

/-- The addresses that are fetched for tasks from a number on, in order. -/
def fetchedFrom (n : Nat) (es : List Event) : List String := es.filterMap (addressFrom? n)

/-- What is fetched while a document is assembled, from a store: each asset once at most. -/
structure OneAttempt (s : Settings.Fetching) (d : Document) (st : Store) (es : List Event) :
    Prop where
  /-- Images come after the fonts. -/
  images : (fetchedFrom (fontRequests s d.fonts).length es).Nodup
  remote : ∀ url ∈ fetchedFrom (fontRequests s d.fonts).length es,
    isRemote url = true ∧ st.images.get? url = none ∧ ∃ u ∈ d.images, u.source = .url url
  /-- No two tasks request one face. -/
  faces : ((fontRequests s d.fonts).map FontRequest.face).Nodup
  fonts : ∀ (i : Nat) (r : FontRequest), (fontRequests s d.fonts)[i]? = some r →
    r.Calls s (st.registry.lookup? r.face) (fetched (exchanges i es))
  spared : ∀ (i : Nat) (r : FontRequest), (fontRequests s d.fonts)[i]? = some r →
    ((∃ font, st.fonts.get? r.face = some font) ∨
      ∃ f bytes, st.registry.lookup? r.face = some f ∧ f.origin = .data bytes) →
    fetched (exchanges i es) = []

section Assembly

variable {s : Settings.Fetching} {d : Document} {st : Store} {es : List Event}
  {q : Shared Outcome} {i j : Nat}

theorem items_font {r : FontRequest} (h : (fontRequests s d.fonts)[i]? = some r) :
    (items s d)[i]? = some (.inl r) := by
  obtain ⟨hi, -⟩ := List.getElem?_eq_some_iff.1 h
  rw [items, List.getElem?_append_left (by simpa using hi), List.getElem?_map, h]
  rfl

theorem items_image (hi : (fontRequests s d.fonts).length ≤ i) :
    (items s d)[i]? = (d.images[i - (fontRequests s d.fonts).length]?).map .inr := by
  rw [items, List.getElem?_append_right (by simpa using hi), List.getElem?_map, List.length_map]

theorem resolutions_getElem? {item : Item} (h : (items s d)[i]? = some item) :
    (resolutions s d)[i]? = some (resolution s item) := by
  rw [resolutions, List.getElem?_map, h]
  rfl

theorem mem_fetched {url : String} {mode : Mode} {reply : Reply}
    (h : .asked i (.fetch url mode) reply ∈ es) : url ∈ fetched (exchanges i es) :=
  List.mem_filterMap.2 ⟨_, mem_exchanges.2 h, rfl⟩

theorem addressFrom?_eq_some {n : Nat} {e : Event} {url : String} :
    addressFrom? n e = some url ↔
      ∃ i mode reply, n ≤ i ∧ e = .asked i (.fetch url mode) reply := by
  constructor
  · intro h
    cases e with
    | registered | cleared => cases h
    | asked i r answer =>
      by_cases hi : n ≤ i
      · simp only [addressFrom?, hi, if_true] at h
        cases r with
        | fetch url' mode =>
          cases h
          exact ⟨i, mode, answer, hi, rfl⟩
        | cachedFont | keepFont | registered | cachedImage | keepImage | produce => cases h
      · simp [addressFrom?, hi] at h
  · rintro ⟨i, mode, reply, hi, rfl⟩
    simp [addressFrom?, hi, Request.address?]

theorem mem_fetchedFrom {n : Nat} {url : String} :
    url ∈ fetchedFrom n es ↔ ∃ i mode reply, n ≤ i ∧ .asked i (.fetch url mode) reply ∈ es := by
  constructor
  · intro h
    obtain ⟨e, he, hurl⟩ := List.mem_filterMap.1 h
    obtain ⟨i, mode, reply, hi, rfl⟩ := addressFrom?_eq_some.1 hurl
    exact ⟨i, mode, reply, hi, he⟩
  · intro ⟨i, mode, reply, hi, he⟩
    exact List.mem_filterMap.2 ⟨_, he, addressFrom?_eq_some.2 ⟨i, mode, reply, hi, rfl⟩⟩

section Tasks

variable (h : History ⟨resolutions s d, st⟩ es q) (hquiet : Quiet es)
  (hplain : ∀ u ∈ d.images, ∀ producer, u.source ≠ .deferred producer)

include h hquiet hplain

/-- An address that is fetched for an image is its own. -/
theorem image_of_fetched (hi : (fontRequests s d.fonts).length ≤ i) {url : String} {mode : Mode}
    {reply : Reply} (hfetch : .asked i (.fetch url mode) reply ∈ es) :
    ∃ u, d.images[i - (fontRequests s d.fonts).length]? = some u ∧ u.source = .url url ∧
      isRemote url = true ∧ st.images.get? url = none ∧
      (fetched (exchanges i es)).Sublist [url] := by
  have hlt : i < (resolutions s d).length := h.lt_of_asked hfetch
  have hitem := items_image (s := s) (d := d) hi
  cases hu : d.images[i - (fontRequests s d.fonts).length]? with
  | none =>
    rw [hu] at hitem
    have hge := List.getElem?_eq_none_iff.1 hitem
    simp only [resolutions, List.length_map] at hlt
    omega
  | some u =>
    rw [hu] at hitem
    have hplan := resolutions_getElem? (s := s) hitem
    have hsource := hplain u (List.mem_of_getElem? hu)
    have hmem := mem_fetched hfetch
    rcases h.image_traffic hquiet hsource hplan with hnone | ⟨url', hurl, hremote, hcache, hsub⟩
    · rw [hnone] at hmem
      exact absurd hmem List.not_mem_nil
    · obtain rfl := List.mem_singleton.1 (hsub.subset hmem)
      exact ⟨u, rfl, hurl, hremote, hcache, hsub⟩

/-- **No address is fetched twice for images.** -/
theorem nodup_fetchedFrom (hids : (d.images.map (·.id)).Nodup)
    (hid : ∀ u ∈ d.images, u.id = u.source.identity) :
    (fetchedFrom (fontRequests s d.fonts).length es).Nodup := by
  refine List.pairwise_filterMap.2 (List.pairwise_iff_forall_sublist.2 ?_)
  intro a b hab url ha url' hb heq
  subst heq
  obtain ⟨i, mode, reply, hi, rfl⟩ := addressFrom?_eq_some.1 ha
  obtain ⟨j, mode', reply', hj, rfl⟩ := addressFrom?_eq_some.1 hb
  have hi' := hab.subset List.mem_cons_self
  have hj' := hab.subset (List.mem_cons_of_mem _ List.mem_cons_self)
  obtain ⟨u, hu, hsource, -, -, hsub⟩ := image_of_fetched h hquiet hplain hi hi'
  obtain ⟨v, hv, hsource', -⟩ := image_of_fetched h hquiet hplain hj hj'
  -- Both are one task, since two have different identities.
  have hsame : u.id = v.id := by
    rw [hid u (List.mem_of_getElem? hu), hid v (List.mem_of_getElem? hv), hsource, hsource']
  have hget : (d.images.map (·.id))[i - (fontRequests s d.fonts).length]? =
      (d.images.map (·.id))[j - (fontRequests s d.fonts).length]? := by
    simp [hu, hv, hsame]
  have hlt : i - (fontRequests s d.fonts).length < (d.images.map (·.id)).length := by
    simpa using (List.getElem?_eq_some_iff.1 hu).1
  have hindex := (List.getElem?_inj hlt hids).1 hget
  obtain rfl : i = j := by omega
  have htwice : [url, url].Sublist (fetched (exchanges i es)) := by
    have hmap := (hab.filterMap (Event.exchange? i)).filterMap fun x => x.1.address?
    simp only [List.filterMap_cons, List.filterMap_nil, Event.exchange?, if_true] at hmap
    exact hmap
  have hlength := (htwice.trans hsub).length_le
  simp at hlength

theorem oneAttempt_of_history (hfaces : ((fontRequests s d.fonts).map FontRequest.face).Nodup)
    (hids : (d.images.map (·.id)).Nodup) (hid : ∀ u ∈ d.images, u.id = u.source.identity) :
    OneAttempt s d st es := by
  have hfont : ∀ (i : Nat) (r : FontRequest), (fontRequests s d.fonts)[i]? = some r →
      fetched (exchanges i es) = [] ∨ st.fonts.get? r.face = none ∧
        r.Calls s (st.registry.lookup? r.face) (fetched (exchanges i es)) :=
    fun i r hr => h.font_traffic hquiet (resolutions_getElem? (items_font hr))
  constructor
  case images => exact nodup_fetchedFrom h hquiet hplain hids hid
  case remote =>
    intro url hurl
    obtain ⟨i, mode, reply, hi, hfetch⟩ := mem_fetchedFrom.1 hurl
    obtain ⟨u, hu, hsource, hremote, hcache, -⟩ := image_of_fetched h hquiet hplain hi hfetch
    exact ⟨hremote, hcache, u, List.mem_of_getElem? hu, hsource⟩
  case faces => exact hfaces
  case fonts =>
    intro i r hr
    rcases hfont i r hr with hnone | ⟨-, hcalls⟩
    · rw [hnone]
      exact .nil s r _
    · exact hcalls
  case spared =>
    intro i r hr hspared
    rcases hfont i r hr with hnone | ⟨hcache, hcalls⟩
    · exact hnone
    · rcases hspared with ⟨font, hkept⟩ | ⟨f, bytes, hlookup, horigin⟩
      · rw [hcache] at hkept
        cases hkept
      · rw [hlookup] at hcalls
        have hsub : (fetched (exchanges i es)).Sublist f.file?.toList := hcalls
        rw [Font.Descriptor.file?, horigin] at hsub
        exact List.sublist_nil.1 hsub

end Tasks

/-! ## What was resolved is kept -/

/-- What a successful assembly leaves in the caches. -/
structure Kept (s : Settings.Fetching) (d : Document) (st : Store) : Prop where
  fonts : ∀ r ∈ fontRequests s d.fonts, ∃ font, st.fonts.get? r.face = some font
  images : ∀ u ∈ d.images, ∀ url, u.source = .url url → ∃ image, st.images.get? url = some image

section Kept

variable {outcomes : List Outcome} (h : History ⟨resolutions s d, st⟩ es q) (hquiet : Quiet es)
  (hplans : q.plans = outcomes.map .done) (hsucceeds : ∀ o ∈ outcomes, Succeeds o)

include h hplans hsucceeds

theorem exists_success {item : Item} (hitem : (items s d)[i]? = some item) :
    ∃ o, Succeeds o ∧ q.plans[i]? = some (.done o) ∧
      (resolution s item).Answered (exchanges i es) (.done o) := by
  obtain ⟨p, hp, hanswered⟩ := h.answered (resolutions_getElem? hitem)
  have hdone := hp
  rw [hplans, List.getElem?_map, Option.map_eq_some_iff] at hdone
  obtain ⟨o, ho, rfl⟩ := hdone
  exact ⟨o, hsucceeds o (List.mem_of_getElem? ho), hp, hanswered⟩

include hquiet

/-- **What was resolved is in the cache**, if everything was. -/
theorem kept_of_succeeded : Kept s d q.store := by
  constructor
  · intro r hr
    obtain ⟨i, hi⟩ := List.mem_iff_getElem?.1 hr
    obtain ⟨o, ho, hdone, -⟩ := exists_success h hplans hsucceeds (items_font hi)
    have hends := item_ends h (resolutions_getElem? (items_font hi)) hdone
    rcases ho with ⟨font, rfl⟩ | ⟨image, rfl⟩
    · have hheld := h.held?_of_lastUse hquiet (FontEnds.of_ok hends)
      obtain ⟨font', hfont, -⟩ := Option.map_eq_some_iff.1 hheld
      exact ⟨font', hfont⟩
    · exact hends.elim
  · intro u hu url hsource
    obtain ⟨k, hk⟩ := List.mem_iff_getElem?.1 hu
    have hitem : (items s d)[(fontRequests s d.fonts).length + k]? = some (.inr u) := by
      rw [items_image (Nat.le_add_right _ _), Nat.add_sub_cancel_left, hk]
      rfl
    obtain ⟨o, ho, hdone, hanswered⟩ := exists_success h hplans hsucceeds hitem
    obtain ⟨outcome, hurl, rfl⟩ := hanswered.of_map_done
    rcases ho with ⟨font, hfont⟩ | ⟨image, himage⟩
    · cases hfont
    · cases himage
      rw [resolveImage, hsource] at hurl
      have hresolve : (resolveUrl u.id url).outcome.Answered
          (exchanges ((fontRequests s d.fonts).length + k) es) (.done (.ok image)) := by
        cases hlimit : s.producerLimit <;> rw [hlimit] at hurl <;> exact hurl
      obtain ⟨held, hserved⟩ := resolveUrl_served hresolve
      have hheld := h.held?_of_lastUse hquiet hserved
      obtain ⟨image', himage, -⟩ := Option.map_eq_some_iff.1 hheld
      exact ⟨image', himage⟩

end Kept

/-- With everything in the caches, nothing is fetched. -/
theorem OneAttempt.not_fetched (h : OneAttempt s d st es) (hkept : Kept s d st)
    (url : String) (mode : Mode) (reply : Reply) : .asked i (.fetch url mode) reply ∉ es := by
  intro hfetch
  by_cases hi : i < (fontRequests s d.fonts).length
  · have hr : (fontRequests s d.fonts)[i]? = some (fontRequests s d.fonts)[i] :=
      List.getElem?_eq_getElem hi
    have hfont := hkept.fonts _ (List.mem_of_getElem? hr)
    have hmem := mem_fetched hfetch
    rw [h.spared i _ hr (.inl hfont)] at hmem
    exact List.not_mem_nil hmem
  · have hmem : url ∈ fetchedFrom (fontRequests s d.fonts).length es :=
      mem_fetchedFrom.2 ⟨i, mode, reply, by omega, hfetch⟩
    obtain ⟨-, hcache, u, hu, hsource⟩ := h.remote url hmem
    obtain ⟨image, himage⟩ := hkept.images u hu url hsource
    rw [hcache] at himage
    cases himage

end Assembly

/-- **One attempt for each asset** of a document, in every order, if no source of the tree is a
producer; and none after everything was resolved. -/
theorem typeset_oneAttempt {s : Settings} {root : Node δ} {d : Document} {st : Store}
    {es : List Event} {q : Shared Outcome}
    (htypeset : Typeset.typeset render s.typesetting root = .ok d)
    (hplain : ∀ producer, ¬ Typeset.Pictured render s.typesetting root (.deferred producer))
    (h : History ⟨resolutions s.fetching d, st⟩ es q) (hquiet : Quiet es) :
    OneAttempt s.fetching d st es ∧
      ∀ outcomes : List Outcome, q.plans = outcomes.map .done → (∀ o ∈ outcomes, Succeeds o) →
        ∀ es' q', History ⟨resolutions s.fetching d, q.store⟩ es' q' → Quiet es' →
          ∀ i url mode reply, .asked i (.fetch url mode) reply ∉ es' := by
  obtain ⟨hids, hpictured, -⟩ := Typeset.typeset_listsImages htypeset
  have hsources : ∀ u ∈ d.images, ∀ producer, u.source ≠ .deferred producer := by
    intro u hu producer hsource
    exact hplain producer (hsource ▸ (hpictured u hu).2)
  have hattempt : ∀ {st : Store} {es : List Event} {q : Shared Outcome},
      History ⟨resolutions s.fetching d, st⟩ es q → Quiet es → OneAttempt s.fetching d st es :=
    fun h hquiet => oneAttempt_of_history h hquiet hsources (typeset_fontRequests_nodup htypeset)
      hids fun u hu => (hpictured u hu).1
  refine ⟨hattempt h hquiet, fun outcomes hplans hsucceeds es' q' h' hquiet' i url mode reply => ?_⟩
  have hkept := kept_of_succeeded h hquiet hplans hsucceeds
  exact (hattempt h' hquiet').not_fetched hkept url mode reply

/-! ## One picture twice -/

/-- A page with one picture twice. -/
def pair : Node Empty := (Typeset.gallery [.url catUrl, .url catUrl]).node

/-- The font of the default family and the picture, under its identity. -/
def pairItems : List Item :=
  [.inl ⟨"Inter", 400, .normal⟩, .inr ⟨"img_e894a7baca35a675", .url catUrl⟩]

/-- The picture under that identity. -/
def pairCat : LoadedImage := cat "img_e894a7baca35a675" "89a"

/-- Both are fetched, in turns. -/
def pairEvents : List Event := [
  .asked 0 (.cachedFont interFace) none, .asked 1 (.cachedImage catUrl) none,
  .asked 0 (.registered interFace) (some interFile),
  .asked 1 (.fetch catUrl .preferCache) (.ok ⟨200, Bytes.ofText "GIF89a"⟩),
  .asked 0 (.fetch "inter.ttf" .default) (.ok ⟨200, Bytes.ofText "one"⟩),
  .asked 1 (.keepImage catUrl pairCat) pairCat,
  .asked 0 (.keepFont (interFont "one")) (interFont "one")]

/-- What there is in the end. -/
def pairOutcomes : List Outcome := [.inl (.ok (interFont "one")), .inr (.ok pairCat)]

theorem pair_history :
    ∃ st, History ⟨pairItems.map (resolution .default), raceStore⟩ pairEvents
      ⟨pairOutcomes.map .done, st⟩ :=
  ⟨_, .cons (.asked 0 (server "") rfl) <| .cons (.asked 1 (server "") rfl) <|
    .cons (.asked 0 (server "") rfl) <| .cons (.asked 1 (server "GIF89a") rfl) <|
    .cons (.asked 0 (server "one") rfl) <| .cons (.asked 1 (server "") rfl) <|
    .cons (.asked 0 (server "") rfl) <| .nil _⟩

theorem pair_plain (producer : Image.Producer) :
    ¬ Typeset.Pictured Typeset.motionless .default pair (.deferred producer) := by
  intro h
  have hmem : .deferred producer ∈ [Image.Source.url catUrl, .url catUrl] :=
    Typeset.pictured_gallery h
  simp at hmem

/-- The picture is fetched once and the font once, and then neither. -/
theorem pair_oneAttempt :
    ∃ d st, Typeset.typeset Typeset.motionless .default pair = .ok d ∧
      History ⟨resolutions .default d, raceStore⟩ pairEvents ⟨pairOutcomes.map .done, st⟩ ∧
      OneAttempt .default d raceStore pairEvents ∧
      fetchedFrom 1 pairEvents = [catUrl] ∧
      fetched (exchanges 0 pairEvents) = ["inter.ttf"] ∧
      ∀ es' q', History ⟨resolutions .default d, st⟩ es' q' → Quiet es' →
        ∀ i url mode reply, .asked i (.fetch url mode) reply ∉ es' := by
  have htypeset : ∃ d, Typeset.typeset Typeset.motionless .default pair = .ok d ∧
      items .default d = pairItems := ⟨_, rfl, by decide +kernel⟩
  obtain ⟨d, hd, hitems⟩ := htypeset
  obtain ⟨st, hst⟩ := pair_history
  have hhistory : History ⟨resolutions .default d, raceStore⟩ pairEvents
      ⟨pairOutcomes.map .done, st⟩ := by
    rw [resolutions, hitems]
    exact hst
  have hsucceeds : ∀ o ∈ pairOutcomes, Succeeds o := by
    intro o ho
    simp only [pairOutcomes, List.mem_cons, List.not_mem_nil, or_false] at ho
    rcases ho with rfl | rfl
    · exact .inl ⟨_, rfl⟩
    · exact .inr ⟨_, rfl⟩
  obtain ⟨hattempt, hagain⟩ := typeset_oneAttempt (s := .default) hd pair_plain hhistory (by decide)
  exact ⟨d, st, hd, hhistory, hattempt, by decide, by decide, hagain pairOutcomes rfl hsucceeds⟩

end Galley.Press
