import Galley.Proofs.Asset.FontCache
import Galley.Proofs.Asset.InTurn
import Galley.Proofs.Press.CacheContents

/-!
# Registered families shadow the catalog

Fonts are registered for families in any spelling, while fonts and images are resolved and caches
cleared.

**Theorem (`registered_shadow`).** A lookup gives what the registrations so far say, the first one
first. Once a family is registered, a request for it in any spelling that starts later is never
told that nothing is registered, and so it never turns to the catalog: it ends with the font in the
cache, or with what comes of loading the font that the lookup gives, also if that fails.

A lookup is answered by the registrations before it (`History.lookup?_of_asked_at`), and what a
request asks is read off its plan (`FontRequest.fromRegistered`).
-/

namespace Galley.Asset

open Font (Descriptor Face Found Registration)

variable {α σ : Type}

/-! ## Requests for registered fonts -/

/-- A plan that asks only the world outside leaves the store as it is. -/
theorem Plan.Fetches.run {P : α → Prop} {p : Plan α} (h : p.Fetches P) (w : World σ) (st : Store)
    (x : σ) : ∃ a x', p.run w (st, x) = (a, st, x') ∧ P a := by
  induction p generalizing x with
  | done a => exact ⟨a, x, rfl, h⟩
  | ask r next ih =>
    obtain ⟨x', hrun⟩ := run_ask (w := w) r next st x
    rw [hrun, Request.after_of_isOutside h.1]
    exact ih _ (h.2 _) x'

namespace FontRequest

variable {w : World σ} {s : Settings.Fetching} {r : FontRequest} {D : Descriptor → Prop}
  {log : List Exchange} {p : Plan (Except Fault LoadedFont)}

/-- What a request has asked, and what is left of it, where descriptors of a kind are registered
for its face. It does not turn to the catalog. -/
inductive FromRegistered (s : Settings.Fetching) (r : FontRequest) (D : Descriptor → Prop) :
    List Exchange → Plan (Except Fault LoadedFont) → Prop
  | start : FromRegistered s r D [] (r.resolve s).outcome
  | cached (font : LoadedFont) :
      FromRegistered s r D [⟨.cachedFont r.face, some font⟩] (.done (.ok font))
  | missed : FromRegistered s r D [⟨.cachedFont r.face, none⟩] (r.afterCache s none)
  | loading {d : Descriptor} {log : List Exchange} {p : Plan (Except Fault LoadedFont)} (hd : D d)
      (h : ((loadRegistered r.face d).outcome.bind keep).Answered log p) :
      FromRegistered s r D
        (⟨.cachedFont r.face, none⟩ :: ⟨.registered r.face, some d⟩ :: log) p

/-- **A request that is told of a font whenever it looks one up.** -/
theorem fromRegistered (h : (r.resolve s).outcome.Answered log p)
    (hfound : ∀ found, ⟨.registered r.face, found⟩ ∈ log → ∃ d, found = some d ∧ D d) :
    FromRegistered s r D log p := by
  rw [resolve_outcome] at h
  cases h with
  | nil =>
    rw [← resolve_outcome]
    exact .start
  | @cons _ _ cached log _ h =>
    cases cached with
    | some font =>
      obtain ⟨rfl, rfl⟩ := h.of_done
      exact .cached font
    | none =>
      cases h with
      | nil => exact .missed
      | @cons _ _ found log _ h =>
        obtain ⟨d, rfl, hd⟩ := hfound found (List.mem_cons_of_mem _ List.mem_cons_self)
        exact .loading hd h

/-- The outcome of a request: the font in the cache, or what comes of loading a registered font,
which is kept. -/
inductive EndsFromRegistered (r : FontRequest) (D : Descriptor → Prop) (log : List Exchange) :
    Except Fault LoadedFont → Prop
  | cached {font : LoadedFont} (h : ⟨.cachedFont r.face, some font⟩ ∈ log) :
      EndsFromRegistered r D log (.ok font)
  | failed {d : Descriptor} {part : List Exchange} {fault : Fault} (hd : D d)
      (hpart : part <:+: log)
      (h : (loadRegistered r.face d).outcome.Answered part (.done (.error fault))) :
      EndsFromRegistered r D log (.error fault)
  | loaded {d : Descriptor} {part : List Exchange} {font kept : LoadedFont} (hd : D d)
      (hpart : part <:+: log)
      (h : (loadRegistered r.face d).outcome.Answered part (.done (.ok font)))
      (hkept : ⟨.keepFont font, kept⟩ ∈ log) : EndsFromRegistered r D log (.ok kept)

theorem FromRegistered.ends {o : Except Fault LoadedFont}
    (h : FromRegistered s r D log (.done o)) : EndsFromRegistered r D log o := by
  generalize hp : Plan.done o = p at h
  cases h with
  | start =>
    rw [resolve_outcome] at hp
    cases hp
  | cached font =>
    cases hp
    exact .cached List.mem_cons_self
  | missed => cases hp
  | @loading d log _ hd h =>
    subst hp
    obtain ⟨part, last, loaded, rfl, hpart, hlast⟩ := h.of_bind_done
    have hinfix : part <:+: ⟨.cachedFont r.face, none⟩ :: ⟨.registered r.face, some d⟩ ::
        (part ++ last) :=
      ⟨[⟨.cachedFont r.face, none⟩, ⟨.registered r.face, some d⟩], last, by simp⟩
    cases loaded with
    | error fault =>
      obtain ⟨-, hdone⟩ := hlast.of_done
      cases hdone
      exact .failed hd hinfix hpart
    | ok font =>
      cases hlast with
      | @cons _ _ kept log _ hlast =>
        obtain ⟨rfl, hdone⟩ := hlast.of_done
        cases hdone
        exact .loaded hd hinfix hpart (by simp)

/-- What is fetched is a file of such a font. -/
theorem FromRegistered.fetched (h : FromRegistered s r D log p) {url : String}
    (hurl : url ∈ fetched log) : ∃ d, D d ∧ d.file? = some url := by
  cases h with
  | start | cached | missed => cases hurl
  | @loading d log _ hd h =>
    have hsub : (Asset.fetched log).Sublist d.file?.toList := (r.keep_sends s (some d)).fetched h
    exact ⟨d, hd, by simpa using hsub.subset hurl⟩

/-- A request alone, with a descriptor for its face. -/
theorem run_fromRegistered (w : World σ) {st : Store} {d : Descriptor}
    (hd : st.registry.lookup? r.face = some d) (x : σ) :
    ((r.resolve s).outcome.run w (st, x)).1 = match st.fonts.get? r.face with
      | some font => .ok font
      | none => ((loadRegistered r.face d).outcome.run w (st, x)).1 := by
  rw [resolve_outcome]
  show ((r.afterCache s (st.fonts.get? r.face)).run w (st, x)).1 = _
  cases hcached : st.fonts.get? r.face with
  | some font => rfl
  | none =>
    show (((r.load s (st.registry.lookup? r.face)).outcome.bind keep).run w (st, x)).1 = _
    rw [hd]
    refine (congrArg Prod.fst (Plan.run_bind w _ keep (st, x))).trans ?_
    obtain ⟨o, x', hrun, hface⟩ := (loadRegistered_loads r.face d).run w st x
    show ((keep ((loadRegistered r.face d).outcome.run w (st, x)).1).run w
      ((loadRegistered r.face d).outcome.run w (st, x)).2).1 = _
    rw [hrun]
    cases o with
    | error fault => rfl
    | ok font =>
      show Except.ok (((st.fonts.put font.face font).get? font.face).getD font) = _
      rw [Cache.getD_get?_put, hface font rfl, hcached]
      rfl

end FontRequest

end Galley.Asset

namespace Galley.Press

open Asset
open Font (Descriptor Face Found Registration)

variable {c q : Shared Outcome} {es : List Event}

/-- A task has looked a face up and was told of a descriptor, by the registrations before. -/
def LookedUp (es es' : List Event) (i : Nat) (face : Face) (d : Descriptor) : Prop :=
  ∃ k, es'[k]? = some (.asked i (.registered face) (some d)) ∧
    Found (registrations (es ++ es'.take k)) face (some d)

/-- A request that is resolved after a history and among other tasks does without the catalog. -/
structure ShadowedAmong (s : Settings.Fetching) (r : FontRequest) (es es' : List Event) (i : Nat)
    (left : Shared Outcome) : Prop where
  asks : ∃ p, left.plans[i]? = some (p.bind fun o => .done (.inl o)) ∧
    r.FromRegistered s (LookedUp es es' i r.face) (exchanges i es') p
  found : .asked i (.registered r.face) none ∉ es'
  fetched : ∀ url ∈ fetched (exchanges i es'),
    ∃ d, LookedUp es es' i r.face d ∧ d.file? = some url
  ends : ∀ o, left.plans[i]? = some (.done (.inl o)) →
    r.EndsFromRegistered (LookedUp es es' i r.face) (exchanges i es') o

/-- After a history, a request does without the catalog, alone and among other tasks. -/
structure Shadowed (s : Settings.Fetching) (r : FontRequest) (es : List Event) (st : Store) :
    Prop where
  alone : ∀ {σ : Type} (w : World σ) (x : σ), ∃ d, st.registry.lookup? r.face = some d ∧
    ((r.resolve s).outcome.run w (st, x)).1 = match st.fonts.get? r.face with
      | some font => .ok font
      | none => ((loadRegistered r.face d).outcome.run w (st, x)).1
  among : ∀ {plans : List (Plan Outcome)} {es' : List Event} {left : Shared Outcome} {i : Nat},
    History ⟨plans, st⟩ es' left → plans[i]? = some (resolution s (.inl r)) →
      ShadowedAmong s r es es' i left

/-- The registry that a history leaves behind. -/
theorem registry_eq (h : History c es q) (hempty : c.store.registry = .empty) :
    q.store.registry = Font.Registry.empty.registerAll (registrations es) := by
  rw [h.registry, hempty]

theorem shadowedAmong {s : Settings.Fetching} {r : FontRequest} (h : History c es q)
    (hempty : c.store.registry = .empty)
    (hfamily : ∃ e ∈ registrations es, e.ForFamily (Font.familyKey r.family))
    {plans : List (Plan Outcome)} {es' : List Event} {left : Shared Outcome} {i : Nat}
    (h' : History ⟨plans, q.store⟩ es' left) (hplan : plans[i]? = some (resolution s (.inl r))) :
    ShadowedAmong s r es es' i left := by
  have hfound : ∀ found, .asked i (.registered r.face) found ∈ es' →
      ∃ d, found = some d ∧ LookedUp es es' i r.face d := by
    intro found hasked
    obtain ⟨k, hk⟩ := List.getElem?_of_mem hasked
    have hlookup := h'.lookup?_of_asked_at hk
    rw [registry_eq h hempty, ← Font.Registry.registerAll_append] at hlookup
    have hregistered : Found (registrations (es ++ es'.take k)) r.face found := by
      rw [← hlookup, registrations, List.filterMap_append]
      exact Font.Registry.lookup?_found _ _
    cases found with
    | some d => exact ⟨d, rfl, k, hk, hregistered⟩
    | none =>
      -- The registration of the first history is among those before the lookup.
      obtain ⟨e, he, hkey⟩ := hfamily
      cases hregistered with
      | missing hnone =>
        have hmem : e ∈ registrations (es ++ es'.take k) := by
          rw [registrations, List.filterMap_append]
          exact List.mem_append_left _ he
        exact absurd hkey (hnone e hmem)
  obtain ⟨_, hleft, hplanAnswered⟩ := h'.answered hplan
  obtain ⟨p, hanswered, rfl⟩ := hplanAnswered.of_map
  have hfrom : r.FromRegistered s (LookedUp es es' i r.face) (exchanges i es') p :=
    FontRequest.fromRegistered hanswered fun found hmem => hfound found (mem_exchanges.1 hmem)
  refine ⟨⟨p, hleft, hfrom⟩, fun hnone => ?_, fun url => hfrom.fetched, fun o ho => ?_⟩
  · obtain ⟨d, hd, -⟩ := hfound none hnone
    cases hd
  · cases p with
    | done o' =>
      cases hleft.symm.trans ho
      exact hfrom.ends
    | ask r next => cases hleft.symm.trans ho

/-- **Registered families shadow the catalog**, the first registration first, whatever happens. -/
theorem registered_shadow (h : History c es q) (hempty : c.store.registry = .empty) :
    (∀ face, Found (registrations es) face (q.store.registry.lookup? face)) ∧
    (∀ face, q.store.registry.lookup? face = none ↔
      ∀ e ∈ registrations es, ¬ e.ForFamily face.family) ∧
    (∀ face family, Font.familyKey family = face.family →
      (q.store.registry.lookup? face = none ↔ q.store.registry.contains family = false)) ∧
    ∀ (s : Settings.Fetching) (r : FontRequest),
      (∃ e ∈ registrations es, e.ForFamily (Font.familyKey r.family)) →
        Shadowed s r es q.store := by
  have hregistry := registry_eq h hempty
  have hnone : ∀ face, q.store.registry.lookup? face = none ↔
      ∀ e ∈ registrations es, ¬ e.ForFamily face.family := fun face => by
    rw [hregistry, Font.Registry.lookup?_eq_none_iff]
  have hcontains : ∀ family, q.store.registry.contains family = true ↔
      ∃ e ∈ registrations es, e.ForFamily (Font.familyKey family) := fun family => by
    rw [hregistry, Font.Registry.contains_iff]
  refine ⟨fun face => ?_, hnone, fun face family hface => ?_, fun s r hfamily => ⟨?_, ?_⟩⟩
  · rw [hregistry]
    exact Font.Registry.lookup?_found _ face
  · rw [hnone, ← Bool.not_eq_true, hcontains, hface]
    simp
  · intro σ w x
    obtain ⟨d, hd⟩ :=
      Font.Registry.lookup?_of_contains ((hcontains r.family).2 hfamily) r.weight r.slant
    exact ⟨d, hd, r.run_fromRegistered w hd x⟩
  · exact shadowedAmong h hempty hfamily

/-! ## A family of three files -/

/-- Two upright fonts of one family and before them a bold one, in three spellings. -/
def interFamily : List Event := [
  .registered "'INTER', serif" ⟨700, .normal, .data [1]⟩, .registered "Inter" interFile,
  .cleared .fonts, .registered "inter" ⟨400, .normal, .data [2]⟩]

/-- A request in a spelling of its own. -/
def interRequest : FontRequest := ⟨"INTER", 400, .normal⟩

/-- The first upright font is looked up; its file is not there. -/
def interSearch : List Event := [
  .asked 0 (.cachedFont interFace) none, .asked 0 (.registered interFace) (some interFile),
  .asked 0 (.fetch "inter.ttf" .default) (.ok ⟨404, []⟩)]

/-- The store with these fonts. -/
def interRegistered : Store :=
  ((Store.empty.register "'INTER', serif" ⟨700, .normal, .data [1]⟩).register "Inter"
    interFile).register "inter" ⟨400, .normal, .data [2]⟩

/-- The request fails with that file; a light italic would get the bold font. -/
theorem interFamily_shadow : ∃ q left,
    History (α := Outcome) ⟨[], .empty⟩ interFamily q ∧
    History ⟨[resolution .default (.inl interRequest)], q.store⟩ interSearch left ∧
    ShadowedAmong .default interRequest interFamily interSearch 0 left ∧
    left.plans =
      [.done (.inl (.error (.font interFace (some "inter.ttf") (.status 404))))] ∧
    q.store.registry.lookup? (.of "Inter" 300 .italic) = some ⟨700, .normal, .data [1]⟩ ∧
    q.store.registry.lookup? (.of "Void" 400 .normal) = none := by
  have hfamily : ∃ q, History (α := Outcome) ⟨[], .empty⟩ interFamily q ∧
      q.store = interRegistered :=
    ⟨_, .cons (.registered _ _) <| .cons (.registered _ _) <| .cons (.cleared _) <|
      .cons (.registered _ _) (.nil _), rfl⟩
  obtain ⟨q, hq, hstore⟩ := hfamily
  have hsearch : ∃ left,
      History ⟨[resolution .default (.inl interRequest)], interRegistered⟩ interSearch left ∧
      left.plans =
        [.done (.inl (.error (.font interFace (some "inter.ttf") (.status 404))))] :=
    ⟨_, .cons (.asked 0 nowhere rfl) <| .cons (.asked 0 nowhere rfl) <|
      .cons (.asked 0 nowhere rfl) (.nil _), rfl⟩
  obtain ⟨left, hleft, hdone⟩ := hsearch
  obtain ⟨-, -, -, hshadowed⟩ := registered_shadow hq rfl
  rw [← hstore] at hleft
  have hinter : ∃ e ∈ registrations interFamily, e.ForFamily (Font.familyKey "INTER") :=
    ⟨_, List.mem_cons_self, by decide⟩
  have hamong : ShadowedAmong .default interRequest interFamily interSearch 0 left :=
    (hshadowed .default interRequest hinter).among hleft rfl
  exact ⟨q, left, hq, hleft, hamong, hdone, by rw [hstore]; rfl, by rw [hstore]; rfl⟩

end Galley.Press
