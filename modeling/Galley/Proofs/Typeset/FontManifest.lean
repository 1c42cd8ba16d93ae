import Galley.Proofs.Font.Family
import Galley.Proofs.Typeset.Visits

/-!
# The fonts that a document lists

**Theorem (`typeset_listsFonts`).** The fonts of a document are exactly the faces in effect at its
visits: a usage for each family, in the order in which the families are first in effect, with the
name first written, and with the weights and slants in effect together with the family.

Typesetting records a face only where a style says something about typography. That is enough,
because an element whose style says nothing has the face in effect around it, and that face is
recorded already. The proof keeps two lists side by side: the usages recorded so far, and the
faces in effect at all visits so far (`Lists`). A visit that says something adds its face to both
(`Lists.add`), and a silent one repeats a face of the second list (`Lists.repeat`).
-/

namespace Galley.Font

/-! ## Sets of slants -/

theorem Slants.mem_toList_insert {s : Slants} {slant x : Slant} :
    x ∈ (s.insert slant).toList ↔ x = slant ∨ x ∈ s.toList := by
  obtain ⟨n, i⟩ := s
  cases slant <;> cases n <;> cases i <;> cases x <;> decide

end Galley.Font

namespace Galley.Typeset

open Markup (Element Node Rendering)

variable {δ : Type} {render : Rendering δ} {s : Settings.Typesetting}

/-! ## Recording a face -/

theorem recordFace_of_not_mem {key name : String} {weight : Nat} {slant : Font.Slant}
    {us : List Font.Usage} (h : key ∉ us.map (·.family)) :
    recordFace key name weight slant us =
      us ++ [⟨key, name, Font.Weights.empty.insert weight, Font.Slants.empty.insert slant⟩] := by
  induction us with
  | nil => rfl
  | cons u us ih =>
    have hu : u.family ≠ key := fun he => h (he ▸ List.mem_cons_self)
    have hus : key ∉ us.map (·.family) := fun hm => h (List.mem_cons_of_mem _ hm)
    rw [recordFace, if_neg hu, ih hus]
    rfl

/-- The usage of a family that is listed once gets the weight and the slant. -/
theorem recordFace_of_mem {key name : String} {weight : Nat} {slant : Font.Slant}
    {us : List Font.Usage} (hnodup : (us.map (·.family)).Nodup) (h : key ∈ us.map (·.family)) :
    recordFace key name weight slant us =
      us.map fun u => if u.family = key then u.insert weight slant else u := by
  induction us with
  | nil => exact absurd h List.not_mem_nil
  | cons u us ih =>
    obtain ⟨hfirst, hrest⟩ := List.nodup_cons.1 hnodup
    rw [recordFace, List.map_cons]
    by_cases hu : u.family = key
    · have hsame : us.map (fun u => if u.family = key then u.insert weight slant else u) = us := by
        conv_rhs => rw [← List.map_id us]
        refine List.map_congr_left fun v hv => if_neg fun he => hfirst ?_
        exact List.mem_map.2 ⟨v, hv, he.trans hu.symm⟩
      rw [if_pos hu, if_pos hu, hsame]
    · have hmem : key ∈ us.map (·.family) := (List.mem_cons.1 h).resolve_left (Ne.symm hu)
      rw [if_neg hu, if_neg hu, ih hrest hmem]

/-! ## Usages and mentions side by side -/

/-- The families of mentions, as written. -/
def spellings (ms : List Mention) : List String :=
  ms.filterMap fun
    | .face family _ _ => some family
    | .image _ => none

/-- A face of the family with a key is among mentions. -/
def Among (ms : List Mention) (key : String) (weight : Nat) (slant : Font.Slant) : Prop :=
  ∃ family, .face family weight slant ∈ ms ∧ Font.familyKey family = key

theorem among_append_face {ms : List Mention} {family key : String} {weight w : Nat}
    {slant sl : Font.Slant} :
    Among (ms ++ [.face family weight slant]) key w sl ↔
      Among ms key w sl ∨ (Font.familyKey family = key ∧ w = weight ∧ sl = slant) := by
  constructor
  · rintro ⟨f, hf, hkey⟩
    rcases List.mem_append.1 hf with hf | hf
    · exact .inl ⟨f, hf, hkey⟩
    · cases List.mem_singleton.1 hf
      exact .inr ⟨hkey, rfl, rfl⟩
  · rintro (⟨f, hf, hkey⟩ | ⟨hkey, rfl, rfl⟩)
    · exact ⟨f, List.mem_append_left _ hf, hkey⟩
    · exact ⟨family, List.mem_append_right _ List.mem_cons_self, hkey⟩

theorem Among.mem_spellings {ms : List Mention} {key : String} {w : Nat} {sl : Font.Slant}
    (h : Among ms key w sl) : key ∈ (spellings ms).map Font.familyKey := by
  obtain ⟨f, hf, rfl⟩ := h
  exact List.mem_map_of_mem (List.mem_filterMap.2 ⟨_, hf, rfl⟩)

/-- The usages list the faces among mentions. -/
structure Lists (us : List Font.Usage) (ms : List Mention) : Prop where
  families : us.map (·.family) = ((spellings ms).map Font.familyKey).eraseDups
  nodup : (us.map (·.family)).Nodup
  names : ∀ u ∈ us, (spellings ms).find? (fun f => Font.familyKey f = u.family) = some u.name
  weights : ∀ u ∈ us, ∀ w, w ∈ u.weights ↔ ∃ slant, Among ms u.family w slant
  slants : ∀ u ∈ us, ∀ slant, slant ∈ u.slants.toList ↔ ∃ w, Among ms u.family w slant

namespace Lists

variable {us : List Font.Usage} {ms : List Mention}

theorem nil : Lists [] [] :=
  ⟨rfl, List.nodup_nil, by simp, by simp, by simp⟩

theorem mem_families (h : Lists us ms) {key : String} :
    key ∈ us.map (·.family) ↔ key ∈ (spellings ms).map Font.familyKey := by
  rw [h.families, List.mem_eraseDups]

theorem spellings_append_face (family : String) (weight : Nat) (slant : Font.Slant) :
    spellings (ms ++ [.face family weight slant]) = spellings ms ++ [family] := by
  simp [spellings]

/-- A family that was written before is not written first. -/
theorem eraseDups_append_of_mem {family : String}
    (hmem : Font.familyKey family ∈ (spellings ms).map Font.familyKey) :
    ((spellings ms ++ [family]).map Font.familyKey).eraseDups =
      ((spellings ms).map Font.familyKey).eraseDups := by
  have hlast : [Font.familyKey family].removeAll ((spellings ms).map Font.familyKey) = [] :=
    List.filter_eq_nil_iff.2 fun a ha => by
      rw [List.mem_singleton.1 ha]
      simpa using hmem
  rw [List.map_append, List.eraseDups_append, List.map_singleton, hlast]
  exact List.append_nil _

/-- A new family gets a usage of its own, after all others. -/
theorem add_new (h : Lists us ms) {family : String} {weight : Nat} {slant : Font.Slant}
    (hkey : Font.familyKey family ∉ us.map (·.family)) :
    Lists (us ++ [⟨Font.familyKey family, family, Font.Weights.empty.insert weight,
      Font.Slants.empty.insert slant⟩]) (ms ++ [.face family weight slant]) := by
  have hnew : Font.familyKey family ∉ (spellings ms).map Font.familyKey :=
    fun hm => hkey (h.mem_families.2 hm)
  have hnone : ∀ w sl, ¬ Among ms (Font.familyKey family) w sl := fun w sl ha =>
    hnew ha.mem_spellings
  have hold : ∀ u ∈ us, Font.familyKey family ≠ u.family :=
    fun u hu he => hkey (he ▸ List.mem_map_of_mem hu)
  refine ⟨?_, ?_, ?_, ?_, ?_⟩
  · have hlast : [Font.familyKey family].removeAll ((spellings ms).map Font.familyKey) =
        [Font.familyKey family] := List.filter_eq_self.2 fun a ha => by
      rw [List.mem_singleton.1 ha]
      simpa using hnew
    rw [spellings_append_face, List.map_append, List.map_append, List.eraseDups_append, h.families,
      List.map_singleton, List.map_singleton, hlast]
    rfl
  · rw [List.map_append, List.nodup_append]
    refine ⟨h.nodup, List.nodup_singleton _, fun a ha b hb he => hkey ?_⟩
    have hb' : b = Font.familyKey family := List.mem_singleton.1 hb
    rw [← hb', ← he]
    exact ha
  · intro u hu
    rw [spellings_append_face, List.find?_append]
    rcases List.mem_append.1 hu with hu | hu
    · rw [h.names u hu]
      rfl
    · have hfind : (spellings ms).find? (fun f => Font.familyKey f = Font.familyKey family) = none :=
        List.find?_eq_none.2 fun f hf he =>
          hnew (List.mem_map.2 ⟨f, hf, by simpa using he⟩)
      rw [List.mem_singleton.1 hu, hfind]
      simp
  · intro u hu w
    rcases List.mem_append.1 hu with hu | hu
    · simp [h.weights u hu w, among_append_face, hold u hu]
    · obtain rfl := List.mem_singleton.1 hu
      have hempty : ¬ w ∈ Font.Weights.empty := List.not_mem_nil
      simp [Font.Weights.mem_insert, among_append_face, hnone, hempty]
  · intro u hu sl
    rcases List.mem_append.1 hu with hu | hu
    · simp [h.slants u hu sl, among_append_face, hold u hu]
    · obtain rfl := List.mem_singleton.1 hu
      have hempty : ¬ sl ∈ Font.Slants.empty.toList := List.not_mem_nil
      simp [Font.Slants.mem_toList_insert, among_append_face, hnone, hempty]

/-- The usage of a family that is listed gets one more weight and one more slant. -/
theorem add_known (h : Lists us ms) {family : String} {weight : Nat} {slant : Font.Slant}
    (hkey : Font.familyKey family ∈ us.map (·.family)) :
    Lists (us.map fun u => if u.family = Font.familyKey family then u.insert weight slant else u)
      (ms ++ [.face family weight slant]) := by
  have hfamilies : (us.map fun u =>
      if u.family = Font.familyKey family then u.insert weight slant else u).map (·.family) =
        us.map (·.family) := by
    rw [List.map_map]
    refine List.map_congr_left fun u _ => ?_
    show (if u.family = Font.familyKey family then u.insert weight slant else u).family = u.family
    split <;> rfl
  refine ⟨?_, ?_, ?_, ?_, ?_⟩
  · rw [hfamilies, spellings_append_face, eraseDups_append_of_mem (h.mem_families.1 hkey),
      h.families]
  · rw [hfamilies]
    exact h.nodup
  · intro u hu
    obtain ⟨v, hv, rfl⟩ := List.mem_map.1 hu
    rw [spellings_append_face, List.find?_append]
    split <;>
      · show (((spellings ms).find? fun f => Font.familyKey f = v.family).or _) = some v.name
        rw [h.names v hv]
        rfl
  · intro u hu w
    obtain ⟨v, hv, rfl⟩ := List.mem_map.1 hu
    split
    · rename_i he
      show w ∈ v.weights.insert weight ↔ ∃ sl, Among _ v.family w sl
      simp [Font.Weights.mem_insert, among_append_face, h.weights v hv w, he, or_comm,
        exists_or]
    · rename_i he
      simp [among_append_face, h.weights v hv w, Ne.symm he]
  · intro u hu sl
    obtain ⟨v, hv, rfl⟩ := List.mem_map.1 hu
    split
    · rename_i he
      show sl ∈ (v.slants.insert slant).toList ↔ ∃ w, Among _ v.family w sl
      simp [Font.Slants.mem_toList_insert, among_append_face, h.slants v hv sl, he, or_comm,
        exists_or]
    · rename_i he
      simp [among_append_face, h.slants v hv sl, Ne.symm he]

/-- **One more face.** -/
theorem add_face (h : Lists us ms) (family : String) (weight : Nat) (slant : Font.Slant) :
    Lists (recordFace (Font.familyKey family) family weight slant us)
      (ms ++ [.face family weight slant]) := by
  by_cases hkey : Font.familyKey family ∈ us.map (·.family)
  · rw [recordFace_of_mem h.nodup hkey]
    exact h.add_known hkey
  · rw [recordFace_of_not_mem hkey]
    exact h.add_new hkey

/-- A face that is among the mentions already changes nothing. -/
theorem repeat_face (h : Lists us ms) {family : String} {weight : Nat} {slant : Font.Slant}
    (hmem : .face family weight slant ∈ ms) :
    Lists us (ms ++ [.face family weight slant]) := by
  have hsame : ∀ key w sl, Among (ms ++ [.face family weight slant]) key w sl ↔
      Among ms key w sl := by
    intro key w sl
    rw [among_append_face, or_iff_left_of_imp]
    rintro ⟨rfl, rfl, rfl⟩
    exact ⟨family, hmem, rfl⟩
  have hkey : Font.familyKey family ∈ (spellings ms).map Font.familyKey :=
    (show Among ms _ weight slant from ⟨family, hmem, rfl⟩).mem_spellings
  refine ⟨?_, h.nodup, ?_, ?_, ?_⟩
  · rw [spellings_append_face, eraseDups_append_of_mem hkey, h.families]
  · intro u hu
    rw [spellings_append_face, List.find?_append, h.names u hu]
    rfl
  · intro u hu w
    simp only [hsame]
    exact h.weights u hu w
  · intro u hu sl
    simp only [hsame]
    exact h.slants u hu sl

/-! ## Visits one by one -/

theorem addFont_images (e : Element δ) (us : List Font.Usage) :
    (images e).foldl addFont us = us := by
  unfold images
  split <;> rfl

/-- **A visit.** Its face, if any, is listed after it. One that says nothing has the face in effect
around it, which is listed before. -/
theorem visit (h : Lists us ms) {around : List Style}
    (haround : ∀ m ∈ (Typography.ofStyles around).face?, m ∈ ms) (e : Element δ) :
    Lists ((Visit.mentions ⟨e, elementStyle e :: around⟩).foldl addFont us)
      (ms ++ (Visit.face? ⟨e, elementStyle e :: around⟩).toList) := by
  rw [Visit.mentions, List.foldl_append, addFont_images, Typography.mentions_eq, Visit.face?,
    Visit.typography]
  by_cases hspeaks : speaks (elementStyle e) = true
  · rw [if_pos hspeaks]
    obtain ⟨family, weight, slant⟩ := Typography.ofStyles (elementStyle e :: around)
    cases family with
    | none => simpa [Typography.face?] using h
    | some family => exact h.add_face family weight slant
  · rw [if_neg hspeaks, Typography.ofStyles_cons, Typography.apply_of_not_speaks hspeaks]
    generalize Typography.ofStyles around = t at haround
    obtain ⟨family, weight, slant⟩ := t
    cases family with
    | none => simpa [Typography.face?] using h
    | some family => exact h.repeat_face (haround _ rfl)

/-- Visits of elements one after the other, below styles whose face is listed. -/
theorem visitEach {around : List Style} {f : Element δ → List (Visit δ)}
    (hf : ∀ e us ms, Lists us ms → (∀ m ∈ (Typography.ofStyles around).face?, m ∈ ms) →
      Lists (((f e).flatMap Visit.mentions).foldl addFont us) (ms ++ (f e).filterMap Visit.face?))
    {us : List Font.Usage} {ms : List Mention} (h : Lists us ms)
    (haround : ∀ m ∈ (Typography.ofStyles around).face?, m ∈ ms) (es : List (Element δ)) :
    Lists (((es.flatMap f).flatMap Visit.mentions).foldl addFont us)
      (ms ++ (es.flatMap f).filterMap Visit.face?) := by
  induction es generalizing us ms with
  | nil => simpa using h
  | cons e es ih =>
    have hrest := ih (hf e us ms h haround) fun m hm => List.mem_append_left _ (haround m hm)
    rw [List.flatMap_cons, List.flatMap_append, List.foldl_append, List.filterMap_append,
      ← List.append_assoc]
    exact hrest

theorem visitBelow (h : Lists us ms) {around : List Style}
    (haround : ∀ m ∈ (Typography.ofStyles around).face?, m ∈ ms) (e : Element δ)
    {f : Element δ → List (Visit δ)}
    (hf : ∀ e' us ms, Lists us ms →
      (∀ m ∈ (Typography.ofStyles (elementStyle e :: around)).face?, m ∈ ms) →
      Lists (((f e').flatMap Visit.mentions).foldl addFont us) (ms ++ (f e').filterMap Visit.face?))
    (es : List (Element δ)) :
    Lists (((⟨e, elementStyle e :: around⟩ :: es.flatMap f).flatMap Visit.mentions).foldl addFont us)
      (ms ++ (⟨e, elementStyle e :: around⟩ :: es.flatMap f).filterMap Visit.face?) := by
  have hfirst := h.visit haround e
  have hbelow := visitEach hf hfirst (fun m hm => List.mem_append_right _ (by
    rw [Option.mem_toList]
    exact hm)) es
  have hfaces : (⟨e, elementStyle e :: around⟩ :: es.flatMap f).filterMap Visit.face? =
      (Visit.face? ⟨e, elementStyle e :: around⟩).toList ++ (es.flatMap f).filterMap Visit.face? := by
    rw [List.filterMap_cons]
    cases Visit.face? ⟨e, elementStyle e :: around⟩ <;> rfl
  rw [List.flatMap_cons, List.foldl_append, hfaces, ← List.append_assoc]
  exact hbelow

/-- **An element** with all that is visited in it, by induction on the levels. -/
theorem element (levels : Nat) {around : List Style} {e : Element δ} (h : Lists us ms)
    (haround : ∀ m ∈ (Typography.ofStyles around).face?, m ∈ ms) :
    Lists (((elementVisits render s levels around e).flatMap Visit.mentions).foldl addFont us)
      (ms ++ (elementVisits render s levels around e).filterMap Visit.face?) := by
  induction levels generalizing around e us ms with
  | zero => simpa [elementVisits] using h
  | succ levels ih => exact h.visitBelow haround e (fun e' us ms hus hms => ih hus hms) _

theorem tree (root : Node δ) :
    Lists (fontUsages ((visits render s root).flatMap Visit.mentions))
      ((visits render s root).filterMap Visit.face?) := by
  -- Around the root there is no family, so nothing need be listed yet.
  have hnone : ∀ m ∈ (Typography.ofStyles []).face?, m ∈ ([] : List Mention) :=
    fun m hm => nomatch hm
  unfold visits
  split
  · exact nil
  · rename_i e he
    split
    · exact nil.visitBelow hnone e (fun e' us ms hus hms => hus.element _ hms) _
    · exact nil.element _ hnone

end Lists

/-! ## The list of a document -/

/-- The usages are exactly the faces in effect at visits. -/
structure ListsFonts (vs : List (Visit δ)) (us : List Font.Usage) : Prop where
  /-- A face in effect has exactly one usage of its family, which has its weight and its slant. -/
  complete : ∀ v ∈ vs, ∀ family, v.typography.family = some family →
    ∃ u, us.filter (·.family = Font.familyKey family) = [u] ∧
      v.typography.weight ∈ u.weights ∧ v.typography.slant ∈ u.slants.toList ∧
      .of family v.typography.weight v.typography.slant ∈ u.faces
  /-- Every weight is in effect together with its family. -/
  weights : ∀ u ∈ us, ∀ w ∈ u.weights, ∃ v ∈ vs, ∃ family, v.typography.family = some family ∧
    Font.familyKey family = u.family ∧ v.typography.weight = w
  /-- Every slant is in effect together with its family. -/
  slants : ∀ u ∈ us, ∀ slant ∈ u.slants.toList, ∃ v ∈ vs, ∃ family,
    v.typography.family = some family ∧ Font.familyKey family = u.family ∧
      v.typography.slant = slant
  distinct : (us.map (·.family)).Nodup
  /-- The families stand in the order of their first visits. -/
  order : us.map (·.family) =
    ((vs.filterMap (·.typography.family)).map Font.familyKey).eraseDups
  /-- A family has the name that the first visit of it gives. -/
  names : ∀ u ∈ us, (vs.filterMap (·.typography.family)).find?
    (fun family => Font.familyKey family = u.family) = some u.name
  nonempty : ∀ u ∈ us, u.weights.toList ≠ [] ∧ u.slants.toList ≠ []

theorem spellings_faces (vs : List (Visit δ)) :
    spellings (vs.filterMap Visit.face?) = vs.filterMap (·.typography.family) := by
  rw [spellings, List.filterMap_filterMap]
  refine List.filterMap_congr fun v _ => ?_
  rw [Visit.face?, Typography.face?]
  cases v.typography.family <;> rfl

/-- A face is among those in effect at visits when one of them has it in effect. -/
theorem among_faces {vs : List (Visit δ)} {key : String} {w : Nat} {slant : Font.Slant} :
    Among (vs.filterMap Visit.face?) key w slant ↔ ∃ v ∈ vs, ∃ family,
      v.typography.family = some family ∧ Font.familyKey family = key ∧
        v.typography.weight = w ∧ v.typography.slant = slant := by
  constructor
  · rintro ⟨family, hface, hkey⟩
    obtain ⟨v, hv, hface⟩ := List.mem_filterMap.1 hface
    obtain ⟨f, hf, heq⟩ := Option.map_eq_some_iff.1 hface
    obtain ⟨hfamily, hw, hslant⟩ := Mention.face.inj heq
    exact ⟨v, hv, f, hf, hfamily ▸ hkey, hw, hslant⟩
  · rintro ⟨v, hv, family, hf, hkey, rfl, rfl⟩
    refine ⟨family, List.mem_filterMap.2 ⟨v, hv, ?_⟩, hkey⟩
    rw [Visit.face?, Typography.face?, hf]
    rfl

theorem filter_family_eq {us : List Font.Usage} (hnodup : (us.map (·.family)).Nodup)
    {u : Font.Usage} (hu : u ∈ us) : us.filter (·.family = u.family) = [u] := by
  induction us with
  | nil => exact absurd hu List.not_mem_nil
  | cons v us ih =>
    obtain ⟨hfirst, hrest⟩ := List.nodup_cons.1 hnodup
    rcases List.mem_cons.1 hu with rfl | hu
    · have hnone : us.filter (·.family = u.family) = [] :=
        List.filter_eq_nil_iff.2 fun w hw he =>
          hfirst (List.mem_map.2 ⟨w, hw, by simpa using he⟩)
      rw [List.filter_cons_of_pos (by simp), hnone]
    · have hne : v.family ≠ u.family := fun he => hfirst (List.mem_map.2 ⟨u, hu, he.symm⟩)
      rw [List.filter_cons_of_neg (by simpa using hne), ih hrest hu]

theorem Lists.listsFonts {vs : List (Visit δ)} {us : List Font.Usage}
    (h : Lists us (vs.filterMap Visit.face?)) : ListsFonts vs us := by
  refine ⟨?_, ?_, ?_, h.nodup, ?_, ?_, ?_⟩
  · intro v hv family hfamily
    have hamong : Among (vs.filterMap Visit.face?) (Font.familyKey family) v.typography.weight
        v.typography.slant := among_faces.2 ⟨v, hv, family, hfamily, rfl, rfl, rfl⟩
    obtain ⟨u, hu, hkey⟩ := List.mem_map.1 (h.mem_families.2 hamong.mem_spellings)
    have hweight := (h.weights u hu _).2 ⟨_, hkey ▸ hamong⟩
    have hslant := (h.slants u hu _).2 ⟨_, hkey ▸ hamong⟩
    refine ⟨u, hkey ▸ filter_family_eq h.nodup hu, hweight, hslant, ?_⟩
    refine List.mem_flatMap.2 ⟨_, hweight, List.mem_map.2 ⟨_, hslant, ?_⟩⟩
    rw [show u.family = Font.familyKey family from hkey, Font.Face.of_familyKey]
  · intro u hu w hw
    obtain ⟨slant, hamong⟩ := (h.weights u hu w).1 hw
    obtain ⟨v, hv, family, hfamily, hkey, hw, -⟩ := among_faces.1 hamong
    exact ⟨v, hv, family, hfamily, hkey, hw⟩
  · intro u hu slant hslant
    obtain ⟨w, hamong⟩ := (h.slants u hu slant).1 hslant
    obtain ⟨v, hv, family, hfamily, hkey, -, hslant⟩ := among_faces.1 hamong
    exact ⟨v, hv, family, hfamily, hkey, hslant⟩
  · rw [← spellings_faces]
    exact h.families
  · rw [← spellings_faces]
    exact h.names
  · intro u hu
    obtain ⟨m, hm, hkey⟩ := List.mem_map.1 (h.mem_families.1 (List.mem_map_of_mem hu))
    obtain ⟨mention, hmention, heq⟩ := List.mem_filterMap.1 hm
    cases mention with
    | image source => cases heq
    | face family w slant =>
      obtain rfl : family = m := Option.some.inj heq
      have hamong : Among (vs.filterMap Visit.face?) u.family w slant := ⟨_, hmention, hkey⟩
      exact ⟨List.ne_nil_of_mem ((h.weights u hu w).2 ⟨slant, hamong⟩),
        List.ne_nil_of_mem ((h.slants u hu slant).2 ⟨w, hamong⟩)⟩

theorem typeset_lists {root : Node δ} {d : Document} (h : typeset render s root = .ok d) :
    Lists d.fonts ((visits render s root).filterMap Visit.face?) := by
  rw [(typeset_mentions h).1]
  exact Lists.tree root

/-- **A document lists exactly the fonts in effect at its visits.** -/
theorem typeset_listsFonts {root : Node δ} {d : Document} (h : typeset render s root = .ok d) :
    ListsFonts (visits render s root) d.fonts :=
  (typeset_lists h).listsFonts

/-! ## A letter -/

/-- An element with a style and no other property. -/
def styled (tag : String) (style : List Style.Declaration) (children : List (Markup.Child Empty)) :
    Node Empty :=
  .element tag { Markup.Props.empty with style := .ofList style } children

/-- A document without components. -/
def plain : Rendering Empty := fun definition _ => definition.elim

/-- A bold letter, its family said on the page and again, in other letters, at a word in italics. -/
def letter : Node Empty :=
  styled "document" [("fontWeight", .text "bold")] [
    .node (styled "page" [("fontFamily", .text "'EB  Garamond', serif")] [
      .node (styled "text" [] [.text "Dear ",
        .node (styled "text" [("fontStyle", .text "italic"), ("fontFamily", .text "eb garamond")]
          [.text "reader"])])])]

theorem letter_listsFonts :
    ∃ d, typeset plain .default letter = .ok d ∧ ListsFonts (visits plain .default letter) d.fonts ∧
      d.fonts =
        [⟨"eb-garamond", "EB Garamond", .ofList [700], .ofList [.normal, .italic]⟩] :=
  ⟨_, rfl, typeset_listsFonts rfl, by decide⟩

end Galley.Typeset
