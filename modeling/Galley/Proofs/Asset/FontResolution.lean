import Galley.Asset.Fonts
import Galley.Proofs.Asset.Growth

/-!
# Resolving a font among others

**Theorem (`FontRequest.resolve_ensures`).** While stores only grow, and by no other font of its
face than its value over the first store, a request ends with that value and keeps it.

Loading a font, from where it is registered or from the catalog, asks only the world outside
(`fontLoad_fetches`), and therefore nothing that happens to the store changes what is loaded.
-/

namespace Galley.Asset

open Font (Descriptor Face Usage)

variable {α β : Type} {A : Answers} {c : Change}

/-! ## Plans that ask the world outside -/

/-- Is it a question to the world outside? -/
def Request.isOutside : Request → Bool
  | .fetch _ _ | .produce _ => true
  | _ => false

theorem Request.after_of_isOutside {r : Request} (h : r.isOutside = true) (s : Store) :
    r.after s = s := by
  cases r <;> first | rfl | cases h

theorem Answers.answer_of_isOutside {r : Request} (h : r.isOutside = true) (s t : Store) :
    A.answer s r = A.answer t r := by
  cases r <;> first | rfl | cases h

namespace Plan

/-- The plan asks only the world outside, and every result is of a kind. -/
def Fetches (P : α → Prop) : Plan α → Prop
  | .done a => P a
  | .ask r next => r.isOutside = true ∧ ∀ answer, (next answer).Fetches P

namespace Fetches

variable {P P' : α → Prop} {p : Plan α}

theorem bind {P : β → Prop} {f : α → Plan β} (h : p.Fetches P')
    (hf : ∀ a, P' a → (f a).Fetches P) : (p.bind f).Fetches P := by
  induction p with
  | done a => exact hf a h
  | ask r next ih => exact ⟨h.1, fun answer => ih answer (h.2 answer)⟩

theorem against (h : p.Fetches P) (s : Store) : P (p.against A s) := by
  induction p with
  | done a => exact h
  | ask r next ih => exact ih _ (h.2 _)

/-- **What a store holds does not matter** to such a plan, nor what happens to it. -/
theorem ensures (h : p.Fetches P) (s t : Store) :
    p.Ensures A c (fun a _ => a = p.against A s) t := by
  induction p generalizing t with
  | done a => rfl
  | ask r next ih =>
    intro u hu
    rw [Request.after_of_isOutside h.1, Answers.answer_of_isOutside h.1 u s]
    exact ⟨c.refl u, ih _ (h.2 _) u⟩

end Fetches

end Plan

/-- A task that asks only the world outside, and whose successes are of a kind. -/
def Task.Loads (P : α → Prop) (t : Task α) : Prop :=
  t.outcome.Fetches fun o => ∀ a, o = .ok a → P a

namespace Task.Loads

variable {P : α → Prop} {Q : β → Prop}

theorem pure {a : α} (h : P a) : Task.Loads P (Pure.pure a) := fun b hb => by
  cases hb
  exact h

theorem throw (fault : Fault) : Task.Loads P (throw fault) := fun _ hb => nomatch hb

theorem bind {t : Task α} {f : α → Task β} (h : t.Loads P) (hf : ∀ a, P a → (f a).Loads Q) :
    Task.Loads Q (t >>= f) := by
  refine Plan.Fetches.bind h fun o ho => ?_
  cases o with
  | error fault => exact throw fault
  | ok a => exact hf a (ho a rfl)

theorem ask_fetch (url : String) (mode : Mode) :
    Task.Loads (fun _ => True) (Task.ask (.fetch url mode)) :=
  ⟨rfl, fun _ _ _ => trivial⟩

end Task.Loads

/-! ## Loading a font -/

theorem fetchFont_loads (face : Face) (url : String) :
    (fetchFont face url).Loads fun _ => True := by
  refine .bind (.ask_fetch url .default) fun reply _ => ?_
  split
  · exact .throw _
  · split
    · exact .pure trivial
    · exact .throw _

theorem fontOf_loads (face : Face) (url : Option String) (data : Bytes) (cause : Fault.FontCause) :
    (fontOf face url data cause).Loads fun font => font.face = face := by
  unfold fontOf
  split
  · exact .throw _
  · exact .pure rfl

theorem loadRegistered_loads (face : Face) (d : Descriptor) :
    (loadRegistered face d).Loads fun font => font.face = face := by
  unfold loadRegistered
  split
  · exact fontOf_loads _ _ _ _
  · exact .bind (fetchFont_loads _ _) fun _ _ => fontOf_loads _ _ _ _

theorem loadFromCatalog_loads (catalogUrl family : String) (face : Face) :
    (loadFromCatalog catalogUrl family face).Loads fun font => font.face = face := by
  refine .bind (fetchFont_loads _ _) fun css _ => ?_
  split
  · exact .throw _
  · exact .bind (fetchFont_loads _ _) fun _ _ => fontOf_loads _ _ _ _

/-! ## Resolving a font -/

namespace FontRequest

/-- The face of a request. -/
def face (r : FontRequest) : Face := .of r.family r.weight r.slant

/-- What a request loads that is not in the cache, where a font is registered for its face or not. -/
def load (s : Settings.Fetching) (r : FontRequest) : Option Descriptor → Task LoadedFont
  | some d => loadRegistered r.face d
  | none => loadFromCatalog s.catalogUrl r.family r.face

theorem load_loads (s : Settings.Fetching) (r : FontRequest) (d : Option Descriptor) :
    (r.load s d).Loads fun font => font.face = r.face := by
  cases d with
  | some d => exact loadRegistered_loads _ d
  | none => exact loadFromCatalog_loads _ _ _

/-- A loaded font is kept. -/
def keep : Except Fault LoadedFont → Plan (Except Fault LoadedFont)
  | .error fault => .done (.error fault)
  | .ok font => .ask (.keepFont font) fun kept => .done (.ok kept)

/-- What follows on the answer of the cache. -/
def afterCache (s : Settings.Fetching) (r : FontRequest) :
    Option LoadedFont → Plan (Except Fault LoadedFont)
  | some font => .done (.ok font)
  | none => .ask (.registered r.face) fun d => (r.load s d).outcome.bind keep

/-- The questions of a request: the cache, the registered fonts, what is loaded, the cache. -/
theorem resolve_outcome (s : Settings.Fetching) (r : FontRequest) :
    (r.resolve s).outcome = .ask (.cachedFont r.face) (r.afterCache s) := by
  show Plan.ask _ _ = _
  congr 1
  funext cached
  cases cached with
  | some font => rfl
  | none =>
    show Plan.ask _ _ = Plan.ask _ _
    congr 1
    funext d
    have hkeep : ∀ o, ExceptT.bindCont (fun font => Task.ask (.keepFont font)) o = keep o := by
      intro o
      cases o <;> rfl
    cases d with
    | some d => exact congrArg ((loadRegistered r.face d).outcome.bind) (funext hkeep)
    | none =>
      exact congrArg ((loadFromCatalog s.catalogUrl r.family r.face).outcome.bind) (funext hkeep)

/-- The value of a request over a store. -/
def value (A : Answers) (s : Settings.Fetching) (st : Store) (r : FontRequest) :
    Except Fault LoadedFont :=
  (r.resolve s).outcome.against A st

variable {s : Settings.Fetching} {st : Store} {r : FontRequest}

theorem value_eq : r.value A s st = (r.afterCache s (st.fonts.get? r.face)).against A st := by
  rw [value, resolve_outcome]
  rfl

theorem value_of_cached {font : LoadedFont} (h : st.fonts.get? r.face = some font) :
    r.value A s st = .ok font := by
  rw [value_eq, h]
  rfl

/-- Where the cache has nothing, the value is what is loaded. -/
theorem value_of_not_cached (h : st.fonts.get? r.face = none) :
    r.value A s st = (r.load s (st.registry.lookup? r.face)).outcome.against A st := by
  rw [value_eq, h]
  show Plan.against A st ((r.load s (st.registry.lookup? r.face)).outcome.bind keep) = _
  rw [Plan.against_bind]
  have hface := (r.load_loads s (st.registry.lookup? r.face)).against (A := A) st
  generalize Plan.against A st (r.load s (st.registry.lookup? r.face)).outcome = o at hface
  cases o with
  | error fault => rfl
  | ok font =>
    show Except.ok ((st.fonts.get? font.face).getD font) = _
    rw [hface font rfl, h]
    rfl

/-- **A request among others.** -/
theorem resolve_ensures {J : Face → LoadedFont → Prop} {K : String → LoadedImage → Prop}
    (hJ : ∀ font, J r.face font ↔ r.value A s st = .ok font) :
    (r.resolve s).outcome.Ensures A (growth J K)
      (fun o t => o = r.value A s st ∧ ∀ font, o = .ok font → t.fonts.get? r.face = some font)
      st := by
  rw [resolve_outcome]
  intro t ht
  refine ⟨(growth J K).refl t, ?_⟩
  show (r.afterCache s (t.fonts.get? r.face)).Ensures A (growth J K) _ t
  cases hcached : t.fonts.get? r.face with
  | some font =>
    -- The font was there at the start, or it is there for another request of the face.
    have hvalue : r.value A s st = .ok font :=
      (ht.fonts.new hcached).elim value_of_cached (hJ font).1
    refine ⟨hvalue.symm, fun font' hfont => ?_⟩
    cases hfont
    exact hcached
  | none =>
    have hstart : st.fonts.get? r.face = none := ht.fonts.get?_eq_none hcached
    intro u hu
    refine ⟨(growth J K).refl u, ?_⟩
    have hregistry : u.registry = st.registry := hu.registry.trans ht.registry
    have hloads := r.load_loads s (st.registry.lookup? r.face)
    show ((r.load s (u.registry.lookup? r.face)).outcome.bind keep).Ensures A (growth J K) _ u
    rw [hregistry]
    refine .bind ((hloads.ensures st u).holds.mono ?_)
    rintro o v ⟨ho, huv⟩
    rw [← value_of_not_cached hstart] at ho
    cases o with
    | error fault =>
      refine ⟨ho, fun font hfont => ?_⟩
      cases hfont
    | ok font =>
      have hface : font.face = r.face :=
        hloads.against (A := A) st font ((value_of_not_cached hstart).symm.trans ho.symm)
      intro x hx
      have hgrows : Store.Grows J K st x :=
        (growth J K).trans ht ((growth J K).trans hu ((growth J K).trans huv hx))
      -- Whoever kept a font of the face before kept the same one.
      have hsame : ∀ other, x.fonts.get? font.face = some other → other = font := by
        intro other hother
        rw [hface] at hother
        have hj : J r.face other := hgrows.fonts.justified hstart hother
        exact Except.ok.inj (((hJ other).1 hj).symm.trans ho.symm)
      have hkept : (x.fonts.get? font.face).getD font = font := by
        cases hx' : x.fonts.get? font.face with
        | none => rfl
        | some other => exact hsame other hx'
      refine ⟨⟨.put _ (hface ▸ (hJ font).2 ho.symm), .refl _, rfl⟩, ?_, ?_⟩
      · show Except.ok ((x.fonts.get? font.face).getD font) = _
        rw [hkept]
        exact ho
      · intro font' hfont
        obtain rfl : font = font' := hkept.symm.trans (Except.ok.inj hfont)
        show (x.fonts.put font.face font).get? r.face = some font
        rw [← hface, Cache.get?_put]
        cases hx' : x.fonts.get? font.face with
        | none => simp
        | some other => simp [hsame other hx']

end FontRequest

/-! ## The requests of a document -/

theorem usageRequests_face {u : Usage} (h : Font.familyKey u.name = u.family) :
    (usageRequests [u]).map FontRequest.face =
      (u.weights.toList.product u.slants.toList).map fun p => ⟨u.family, p.1, p.2⟩ := by
  have hface : ∀ weight slant,
      FontRequest.face ⟨u.name, weight, slant⟩ = ⟨u.family, weight, slant⟩ := by
    intro weight slant
    rw [FontRequest.face, Face.of, h]
  simp [usageRequests, Usage.faces, Face.of, List.product, List.map_flatMap, hface,
    Function.comp_def]

theorem usageRequests_face_nodup {u : Usage} (h : Font.familyKey u.name = u.family) :
    ((usageRequests [u]).map FontRequest.face).Nodup := by
  have hweights : u.weights.toList.Nodup := u.weights.ascending.imp fun hlt => Nat.ne_of_lt hlt
  have hslants : u.slants.toList.Nodup := by
    obtain ⟨hasNormal, hasItalic⟩ := u.slants
    cases hasNormal <;> cases hasItalic <;> decide
  rw [usageRequests_face h]
  refine (hweights.product hslants).map fun p q hpq => ?_
  obtain ⟨-, hweight, hslant⟩ := Face.mk.inj hpq
  exact Prod.ext hweight hslant

/-- **Usages of distinct families lead to requests for distinct faces.** -/
theorem usageRequests_nodup {us : List Usage} (hnames : ∀ u ∈ us, Font.familyKey u.name = u.family)
    (hnodup : (us.map (·.family)).Nodup) : ((usageRequests us).map FontRequest.face).Nodup := by
  have hfamily : ∀ u ∈ us, ∀ f ∈ (usageRequests [u]).map FontRequest.face, f.family = u.family := by
    intro u hu f hf
    rw [usageRequests_face (hnames u hu)] at hf
    obtain ⟨p, -, rfl⟩ := List.mem_map.1 hf
    rfl
  have hsplit : (usageRequests us).map FontRequest.face =
      us.flatMap fun u => (usageRequests [u]).map FontRequest.face := by
    simp [usageRequests, List.map_flatMap]
  rw [hsplit, List.nodup_flatMap]
  refine ⟨fun u hu => usageRequests_face_nodup (hnames u hu), ?_⟩
  refine (List.pairwise_map.1 hnodup).imp_of_mem fun {u v} hu hv hne => ?_
  exact List.disjoint_left.2 fun f hf hf' => hne ((hfamily u hu f hf).symm.trans (hfamily v hv f hf'))

theorem fontRequests_nodup {us : List Usage} (hnames : ∀ u ∈ us, Font.familyKey u.name = u.family)
    (hnodup : (us.map (·.family)).Nodup) (s : Settings.Fetching) :
    ((fontRequests s us).map FontRequest.face).Nodup := by
  unfold fontRequests
  split
  · exact List.nodup_singleton _
  · exact usageRequests_nodup hnames hnodup

end Galley.Asset
