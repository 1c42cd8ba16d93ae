import Galley.Proofs.Press.CacheContents
import Galley.Proofs.Typeset.UsageMerge

/-!
# One key for a family, wherever it is computed

The key of a family is computed again and again: when a face is recorded, when the faces of a usage
are listed, and when a font is requested under the name of its usage.

**Theorem (`familyKeys_agree`).** The key of a family is the one of its key and of its display name,
and a display name is its own; both are empty together. The faces of a usage therefore have its key,
and are the faces of its name. Under them, and no others, a request for the name reads and writes the
cache of fonts.

For usages all of this rests on one property, that the key of the name is the family
(`Usage.Named`). A usage that is made has it by `familyKey_displayName`, and recording a face keeps
it (`recordFace_named`).
-/

namespace Galley.Font

/-- How the key and the display name of a family go together. -/
structure FamilyLaws (raw : String) : Prop where
  key_key : familyKey (familyKey raw) = familyKey raw
  key_name : familyKey (displayName raw) = familyKey raw
  name_name : displayName (displayName raw) = displayName raw
  empty : familyKey raw = "" ↔ displayName raw = ""

theorem familyLaws (raw : String) : FamilyLaws raw :=
  ⟨familyKey_familyKey raw, familyKey_displayName raw, displayName_displayName raw,
    familyKey_eq_empty_iff⟩

end Galley.Font

namespace Galley.Typeset

open Font (Usage)

/-- **To record a face** of a family leaves every usage under the key of its name. -/
theorem recordFace_named {us : List Usage} (h : ∀ u ∈ us, u.Named) (family : String) (weight : Nat)
    (slant : Font.Slant) :
    ∀ u ∈ recordFace (Font.familyKey family) family weight slant us, u.Named := by
  induction us with
  | nil =>
    intro u hu
    rw [List.mem_singleton.1 hu]
    rfl
  | cons v us ih =>
    obtain ⟨hv, hus⟩ := List.forall_mem_cons.1 h
    rw [recordFace]
    split
    · exact List.forall_mem_cons.2 ⟨hv.insert weight slant, hus⟩
    · exact List.forall_mem_cons.2 ⟨hv, ih hus⟩

theorem fontUsages_named (ms : List Mention) : ∀ u ∈ fontUsages ms, u.Named := by
  induction ms using List.reverseRecOn with
  | nil => exact fun u hu => absurd hu List.not_mem_nil
  | append_singleton ms m ih =>
    rw [fontUsages_append_singleton]
    cases m with
    | image source => exact ih
    | face family weight slant => exact recordFace_named ih family weight slant

end Galley.Typeset

namespace Galley.Press

open Asset (FontEnds FontRequest LoadedFont Plan lastUse resolveFont)
open Font (Face FamilyLaws Slants Usage Weights)
open Typeset (Mention fontUsages)

/-! ## The slot of a request -/

/-- The plan looks for a font under a face first, uses the caches under no other, and ends by what it
was served there. -/
structure UsesFace (face : Face) (p : Plan (Except Fault LoadedFont)) : Prop where
  reads : ∃ next, p = .ask (.cachedFont face) next
  only : p.Asks fun r => ∀ slot, r.slot? = some slot → slot = .font face
  ends : ∀ log o, p.Answered log (.done o) → FontEnds face (lastUse log) o

theorem resolve_asks_slot (s : Settings.Fetching) (r : FontRequest) :
    (r.resolve s).outcome.Asks fun q => ∀ slot, q.slot? = some slot → slot = .font r.face := by
  have hsame : ∀ slot, some (Asset.Slot.font r.face) = some slot → slot = .font r.face :=
    fun slot hslot => (Option.some.inj hslot).symm
  rw [FontRequest.resolve_outcome]
  refine ⟨hsame, fun cached => ?_⟩
  cases cached with
  | some font => trivial
  | none =>
    refine ⟨fun slot hslot => (nomatch hslot), fun d => ?_⟩
    refine .of_fetches (r.load_loads s d) (fun q hq slot hslot => ?_) fun o ho => ?_
    · cases q with
      | fetch | produce => cases hslot
      | cachedFont | keepFont | registered | cachedImage | keepImage => cases hq
    · cases o with
      | error fault => trivial
      | ok font =>
        have hface : font.face = r.face := ho font rfl
        exact ⟨hface ▸ hsame, fun kept => trivial⟩

theorem resolve_usesFace (s : Settings.Fetching) (r : FontRequest) :
    UsesFace r.face (r.resolve s).outcome where
  reads := ⟨_, r.resolve_outcome s⟩
  only := resolve_asks_slot s r
  ends := fun _ _ h => (r.resolve_looks s).ends h

/-! ## The faces of a usage -/

/-- The usage is made for a family in some spelling, or it comes of mentions. -/
inductive Arises : Usage → Prop
  | made (family : String) (weights : Weights) (slants : Slants) :
      Arises (.of family weights slants)
  | recorded {ms : List Mention} {u : Usage} (h : u ∈ fontUsages ms) : Arises u

theorem Arises.named {u : Usage} (h : Arises u) : u.Named := by
  cases h with
  | made family weights slants => exact Usage.named_of family weights slants
  | @recorded ms _ h => exact Typeset.fontUsages_named ms u h

/-- The faces of a usage go by the key of its name. -/
structure KeyedFaces (u : Usage) : Prop where
  /-- Every weight in every slant, under the family of the usage. -/
  faces : ∀ face, face ∈ u.faces ↔
    face.family = u.family ∧ face.weight ∈ u.weights ∧ face.slant ∈ u.slants.toList
  /-- They are the faces of the name. -/
  named : ∀ face ∈ u.faces, face = .of u.name face.weight face.slant
  /-- Under them a request for the name uses the cache. -/
  slots : ∀ face ∈ u.faces, ∀ s,
    UsesFace face (resolveFont s u.name face.weight face.slant).outcome

theorem keyedFaces_of_named {u : Usage} (h : u.Named) : KeyedFaces u where
  faces := fun _ => h.mem_faces_iff
  named := fun _ hface => h.face_eq hface
  slots := by
    intro face hface s
    have huses := resolve_usesFace s ⟨u.name, face.weight, face.slant⟩
    rwa [FontRequest.face, ← h.face_eq hface] at huses

/-- **The keys of a family agree**, and with them the faces of its usages and the places of its fonts
in the cache. -/
theorem familyKeys_agree :
    (∀ raw, FamilyLaws raw) ∧ ∀ u, Arises u → KeyedFaces u :=
  ⟨Font.familyLaws, fun _ h => keyedFaces_of_named h.named⟩

/-- Two spellings of a family, one of them a key, with a face of their usage that was not mentioned. -/
theorem garamond_keyed :
    ∃ u, fontUsages [.face "EB Garamond" 400 .normal, .face "eb-garamond" 700 .italic] = [u] ∧
      u.name = "EB Garamond" ∧ KeyedFaces u ∧
      ⟨"eb-garamond", 700, .normal⟩ ∈ u.faces ∧
      (⟨"eb-garamond", 700, .normal⟩ : Face) = .of "EB Garamond" 700 .normal := by
  have husages : fontUsages [.face "EB Garamond" 400 .normal, .face "eb-garamond" 700 .italic] =
      [⟨"eb-garamond", "EB Garamond", .ofList [400, 700], .ofList [.normal, .italic]⟩] := by
    decide +kernel
  have hkeyed := familyKeys_agree.2 _ (.recorded (husages ▸ List.mem_cons_self))
  have hface := (hkeyed.faces ⟨"eb-garamond", 700, .normal⟩).2
    ⟨rfl, Weights.mem_ofList.2 (by decide), by decide⟩
  exact ⟨_, husages, rfl, hkeyed, hface, hkeyed.named _ hface⟩

end Galley.Press
