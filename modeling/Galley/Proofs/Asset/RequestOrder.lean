import Galley.Asset.Fonts
import Mathlib

/-!
# The order of font requests

A request stands for a place: a usage by its number, one of its weights and one of its slants.
Places are ordered by usage, then by weight, then upright before italic.

**Theorem (`fontRequests_requested`).** The requests for usages are those of their places, each
place once and in order; a usage without weights or without slants has no place. If there is no
place at all, there is one request, for the family of documents that name none.
-/

namespace Galley.Asset

open Font (Slant Usage)

/-- A weight and a slant of a usage, by the number of the usage. -/
structure Place where
  usage : Nat
  weight : Nat
  slant : Slant

namespace Place

/-- By usage, then by weight, then upright before italic. -/
def Before (p q : Place) : Prop :=
  p.usage < q.usage ∨ p.usage = q.usage ∧
    (p.weight < q.weight ∨ p.weight = q.weight ∧ p.slant = .normal ∧ q.slant = .italic)

/-- The usage has the weight and the slant. -/
def In (us : List Usage) (p : Place) : Prop :=
  ∃ u, us[p.usage]? = some u ∧ p.weight ∈ u.weights ∧ p.slant ∈ u.slants.toList

/-- The request for a place: the usage's name, with the weight and the slant. -/
def request? (us : List Usage) (p : Place) : Option FontRequest :=
  us[p.usage]?.map fun u => ⟨u.name, p.weight, p.slant⟩

end Place

/-- The requests are those of all places, each place once and in order. -/
def InOrder (us : List Usage) (rs : List FontRequest) : Prop :=
  ∃ ps : List Place, ps.Pairwise Place.Before ∧ (∀ p, p ∈ ps ↔ p.In us) ∧
    ps.map (Place.request? us) = rs.map some

/-- What is requested for usages. -/
structure Requested (s : Settings.Fetching) (us : List Usage) (rs : List FontRequest) : Prop where
  listed : (∃ p : Place, p.In us) → InOrder us rs
  default : (∀ p : Place, ¬ p.In us) → rs = [⟨s.family, Font.defaultWeight, .normal⟩]

/-- The places of a usage with a number. -/
def placesOf (u : Usage) (i : Nat) : List Place :=
  u.weights.toList.flatMap fun weight => u.slants.toList.map fun slant => ⟨i, weight, slant⟩

/-- The places of usages. -/
def places (us : List Usage) : List Place := us.zipIdx.flatMap fun (u, i) => placesOf u i

section Places

variable {us : List Usage} {u : Usage} {i : Nat} {p : Place}

theorem mem_placesOf :
    p ∈ placesOf u i ↔ p.usage = i ∧ p.weight ∈ u.weights ∧ p.slant ∈ u.slants.toList := by
  obtain ⟨usage, weight, slant⟩ := p
  simp only [placesOf, List.mem_flatMap, List.mem_map, Place.mk.injEq]
  constructor
  · rintro ⟨_, hweight, _, hslant, rfl, rfl, rfl⟩
    exact ⟨rfl, hweight, hslant⟩
  · rintro ⟨rfl, hweight, hslant⟩
    exact ⟨weight, hweight, slant, hslant, rfl, rfl, rfl⟩

theorem mem_places : p ∈ places us ↔ p.In us := by
  simp only [places, List.mem_flatMap, mem_placesOf]
  constructor
  · rintro ⟨⟨u, i⟩, hu, rfl, hweight, hslant⟩
    exact ⟨u, List.mem_zipIdx_iff_getElem?.1 hu, hweight, hslant⟩
  · rintro ⟨u, hu, hweight, hslant⟩
    exact ⟨(u, p.usage), List.mem_zipIdx_iff_getElem?.2 hu, rfl, hweight, hslant⟩

theorem slants_pairwise (slants : Font.Slants) :
    slants.toList.Pairwise fun a b => a = .normal ∧ b = .italic := by
  obtain ⟨hasNormal, hasItalic⟩ := slants
  cases hasNormal <;> cases hasItalic <;> simp [Font.Slants.toList]

theorem placesOf_pairwise (u : Usage) (i : Nat) : (placesOf u i).Pairwise Place.Before := by
  refine List.pairwise_flatMap.2 ⟨fun weight _ => ?_, u.weights.ascending.imp ?_⟩
  · refine List.pairwise_map.2 ((slants_pairwise u.slants).imp ?_)
    exact fun hslants => .inr ⟨rfl, .inr ⟨rfl, hslants⟩⟩
  · intro weight weight' hlt p hp q hq
    obtain ⟨_, -, rfl⟩ := List.mem_map.1 hp
    obtain ⟨_, -, rfl⟩ := List.mem_map.1 hq
    exact .inr ⟨rfl, .inl hlt⟩

theorem zipIdx_pairwise (us : List Usage) : us.zipIdx.Pairwise fun a b => a.2 < b.2 := by
  rw [← List.pairwise_map, List.zipIdx_map_snd]
  exact List.pairwise_lt_range'

theorem places_pairwise (us : List Usage) : (places us).Pairwise Place.Before := by
  refine List.pairwise_flatMap.2 ⟨fun a _ => placesOf_pairwise a.1 a.2, ?_⟩
  refine (zipIdx_pairwise us).imp fun hlt p hp q hq => .inl ?_
  rw [(mem_placesOf.1 hp).1, (mem_placesOf.1 hq).1]
  exact hlt

theorem map_request?_placesOf (h : us[i]? = some u) :
    (placesOf u i).map (Place.request? us) =
      (u.faces.map fun face => (⟨u.name, face.weight, face.slant⟩ : FontRequest)).map some := by
  simp [placesOf, Usage.faces, List.map_flatMap, Place.request?, h, Font.Face.of,
    Function.comp_def]

theorem map_request?_places (us : List Usage) :
    (places us).map (Place.request? us) = (usageRequests us).map some := by
  have husages : usageRequests us = us.zipIdx.flatMap fun a =>
      a.1.faces.map fun face => ⟨a.1.name, face.weight, face.slant⟩ := by
    conv_lhs => rw [usageRequests, ← List.zipIdx_map_fst 0 us, List.flatMap_map]
  rw [husages, places, List.map_flatMap, List.map_flatMap]
  exact List.flatMap_congr fun a ha => map_request?_placesOf (List.mem_zipIdx_iff_getElem?.1 ha)

end Places

theorem usageRequests_inOrder (us : List Usage) : InOrder us (usageRequests us) :=
  ⟨places us, places_pairwise us, fun _ => mem_places, map_request?_places us⟩

/-- **What is requested for usages**: their places in order, or the default. -/
theorem fontRequests_requested (s : Settings.Fetching) (us : List Usage) :
    Requested s us (fontRequests s us) := by
  have hplaces := map_request?_places us
  have hinOrder := usageRequests_inOrder us
  unfold fontRequests
  cases husage : usageRequests us with
  | nil =>
    refine ⟨fun ⟨p, hp⟩ => ?_, fun _ => rfl⟩
    rw [husage, List.map_nil, List.map_eq_nil_iff] at hplaces
    rw [← mem_places, hplaces] at hp
    cases hp
  | cons r rs =>
    rw [husage] at hplaces hinOrder
    refine ⟨fun _ => hinOrder, fun hnone => ?_⟩
    have hempty : places us = [] :=
      List.eq_nil_iff_forall_not_mem.2 fun p hp => hnone p (mem_places.1 hp)
    rw [hempty] at hplaces
    cases hplaces

end Galley.Asset
