import Galley.Proofs.Typeset.FontManifest

/-!
# Merged usages

Lists of usages from several documents are merged into one. Images are merged by their ids, and the
first with an id stands (`distinctBy`). Fonts are merged by their families: a family has the place
and the name of its first usage, and the weights and slants of all its usages (`mergeFonts`).

What is recorded one mention after the other is such a merge (`imageUsages_eq`,
`fontUsages_alike`). So that merges may be taken in any grouping, lists of usages are compared by
what a merge sees of them (`Alike`): replacing a part of a list by its merge, or leaving out what
the list has before, makes no difference to that.
-/

namespace Galley

/-! ## First occurrences -/

section DistinctBy

variable {α β κ : Type} [DecidableEq κ]

/-- The elements of a list whose keys do not occur before them. -/
def distinctBy (key : α → κ) (xs : List α) : List α :=
  xs.eraseDupsBy fun x y => key x = key y

variable {key : α → κ}

@[simp] theorem distinctBy_nil : distinctBy key [] = [] := rfl

theorem distinctBy_cons_filter (x : α) (xs : List α) :
    distinctBy key (x :: xs) = x :: distinctBy key (xs.filter fun y => key y ≠ key x) := by
  simp [distinctBy, List.eraseDupsBy_cons]

/-- A choice by keys may be made before or after. -/
theorem distinctBy_filter (p : κ → Bool) (xs : List α) :
    distinctBy key (xs.filter fun x => p (key x)) =
      (distinctBy key xs).filter fun x => p (key x) := by
  -- What is left after an element is no tail of the list, but it is shorter.
  induction h : xs.length using Nat.strong_induction_on generalizing xs with
  | _ n ih =>
    cases xs with
    | nil => rfl
    | cons x xs =>
      have hshorter : (xs.filter fun y => key y ≠ key x).length < n := by
        rw [← h]
        exact Nat.lt_succ_of_le (List.length_filter_le _ _)
      have hrest := ih _ hshorter _ rfl
      by_cases hx : p (key x) = true
      · simp only [List.filter_cons, hx, if_true, distinctBy_cons_filter, ← hrest]
        rw [List.filter_comm]
      · simp only [List.filter_cons, hx, distinctBy_cons_filter, ← hrest, List.filter_filter]
        refine congrArg _ (List.filter_congr fun y _ => ?_)
        by_cases hy : key y = key x
        · simp [hy, hx]
        · simp [hy]

theorem distinctBy_cons (x : α) (xs : List α) :
    distinctBy key (x :: xs) = x :: (distinctBy key xs).filter fun y => key y ≠ key x := by
  rw [distinctBy_cons_filter, ← distinctBy_filter fun k => k ≠ key x]

theorem mem_of_mem_distinctBy {x : α} {xs : List α} (h : x ∈ distinctBy key xs) : x ∈ xs := by
  induction xs with
  | nil => exact h
  | cons y xs ih =>
    rw [distinctBy_cons] at h
    rcases List.mem_cons.1 h with rfl | h
    · exact List.mem_cons_self
    · exact List.mem_cons_of_mem _ (ih (List.mem_filter.1 h).1)

/-- An element whose key occurs before is left out. -/
theorem distinctBy_append (xs ys : List α) :
    distinctBy key (xs ++ ys) =
      distinctBy key xs ++ (distinctBy key ys).filter fun y => key y ∉ xs.map key := by
  induction xs with
  | nil => simp
  | cons x xs ih =>
    rw [List.cons_append, distinctBy_cons, distinctBy_cons, ih, List.filter_append,
      List.filter_filter, List.cons_append]
    congr 2
    refine List.filter_congr fun y _ => ?_
    simp [List.mem_cons, not_or]

theorem mem_map_distinctBy {xs : List α} {k : κ} :
    k ∈ (distinctBy key xs).map key ↔ k ∈ xs.map key := by
  induction xs with
  | nil => simp
  | cons x xs ih =>
    simp only [List.mem_map] at ih
    rw [distinctBy_cons, List.map_cons, List.map_cons, List.mem_cons, List.mem_cons]
    by_cases hk : k = key x
    · simp [hk]
    · simp only [hk, false_or, List.mem_map, ← ih, List.mem_filter]
      constructor
      · rintro ⟨y, ⟨hy, -⟩, hkey⟩
        exact ⟨y, hy, hkey⟩
      · rintro ⟨y, hy, rfl⟩
        exact ⟨y, ⟨hy, by simpa using hk⟩, rfl⟩

theorem distinctBy_map (f : β → α) (xs : List β) :
    distinctBy key (xs.map f) = (distinctBy (fun x => key (f x)) xs).map f := by
  induction xs with
  | nil => rfl
  | cons x xs ih => simp [distinctBy_cons, ih, List.filter_map, Function.comp_def]

theorem distinctBy_of_nodup {xs : List α} (h : (xs.map key).Nodup) : distinctBy key xs = xs := by
  induction xs with
  | nil => rfl
  | cons x xs ih =>
    obtain ⟨hfirst, hrest⟩ := List.nodup_cons.1 h
    rw [distinctBy_cons, ih hrest, List.filter_eq_self.2]
    intro y hy
    have hne : key y ≠ key x := fun he => hfirst (he ▸ List.mem_map_of_mem hy)
    simpa using hne

theorem nodup_distinctBy (xs : List α) : ((distinctBy key xs).map key).Nodup := by
  induction xs with
  | nil => exact List.nodup_nil
  | cons x xs ih =>
    rw [distinctBy_cons, List.map_cons, List.nodup_cons]
    refine ⟨fun h => ?_, ih.sublist (List.filter_sublist.map key)⟩
    obtain ⟨y, hy, he⟩ := List.mem_map.1 h
    simp [he] at hy

@[simp] theorem distinctBy_distinctBy (xs : List α) :
    distinctBy key (distinctBy key xs) = distinctBy key xs :=
  distinctBy_of_nodup (nodup_distinctBy xs)

/-- Each part of a list may be freed of repetitions first. -/
theorem distinctBy_flatMap_distinctBy (f : β → List α) (bs : List β) :
    distinctBy key (bs.flatMap fun b => distinctBy key (f b)) = distinctBy key (bs.flatMap f) := by
  induction bs with
  | nil => rfl
  | cons b bs ih =>
    rw [List.flatMap_cons, List.flatMap_cons, distinctBy_append, distinctBy_append,
      distinctBy_distinctBy, ih]
    simp only [mem_map_distinctBy]

end DistinctBy

/-! ## Sets of weights and slants by their members -/

namespace Font

theorem Weights.ext_mem {ws vs : Weights} (h : ∀ w, w ∈ ws ↔ w ∈ vs) : ws = vs := by
  obtain ⟨ws, hws⟩ := ws
  obtain ⟨vs, hvs⟩ := vs
  obtain rfl : ws = vs := hws.eq_of_mem_iff hvs fun {w} => h w
  rfl

theorem Weights.mem_ofList {ws : List Nat} {w : Nat} : w ∈ Weights.ofList ws ↔ w ∈ ws := by
  have hfold : ∀ vs : Weights, w ∈ ws.foldl insert vs ↔ w ∈ vs ∨ w ∈ ws := by
    induction ws with
    | nil => simp
    | cons x ws ih =>
      intro vs
      rw [List.foldl_cons, ih, mem_insert, List.mem_cons, or_comm (a := w = x), or_assoc]
  have hempty : ¬ w ∈ Weights.empty := List.not_mem_nil
  simpa [ofList, hempty] using hfold empty

theorem Slants.ext_mem {ss ts : Slants} (h : ∀ s, s ∈ ss.toList ↔ s ∈ ts.toList) : ss = ts := by
  have hnormal := h .normal
  have hitalic := h .italic
  obtain ⟨a, b⟩ := ss
  obtain ⟨c, d⟩ := ts
  cases a <;> cases b <;> cases c <;> cases d <;> simp_all [toList]

theorem Slants.mem_toList_ofList {ss : List Slant} {s : Slant} :
    s ∈ (Slants.ofList ss).toList ↔ s ∈ ss := by
  have hfold : ∀ ts : Slants, s ∈ (ss.foldl insert ts).toList ↔ s ∈ ts.toList ∨ s ∈ ss := by
    induction ss with
    | nil => simp
    | cons x ss ih =>
      intro ts
      rw [List.foldl_cons, ih, mem_toList_insert, List.mem_cons, or_comm (a := s = x), or_assoc]
  have hempty : ¬ s ∈ Slants.empty.toList := List.not_mem_nil
  simpa [ofList, hempty] using hfold empty

end Font

namespace Typeset

open Font (Usage Weights Slants)

/-! ## Merges of fonts -/

/-- Usages with those of one family put together: the families in the order and with the names in
which they are first seen, each with the weights and the slants of all its usages. -/
def mergeFonts (us : List Usage) : List Usage :=
  (distinctBy (·.family) us).map fun u =>
    let same := us.filter (·.family = u.family)
    ⟨u.family, u.name, .ofList (same.flatMap (·.weights.toList)),
      .ofList (same.flatMap (·.slants.toList))⟩

/-- The families of usages with their first names, in order. -/
def heads (us : List Usage) : List (String × String) :=
  distinctBy Prod.fst (us.map fun u => (u.family, u.name))

/-- Usages that look the same to a merge. -/
structure Alike (us vs : List Usage) : Prop where
  heads : heads us = heads vs
  weights : ∀ family w, (∃ u ∈ us, u.family = family ∧ w ∈ u.weights) ↔
    ∃ v ∈ vs, v.family = family ∧ w ∈ v.weights
  slants : ∀ family slant, (∃ u ∈ us, u.family = family ∧ slant ∈ u.slants.toList) ↔
    ∃ v ∈ vs, v.family = family ∧ slant ∈ v.slants.toList

theorem heads_eq (us : List Usage) :
    heads us = (distinctBy (·.family) us).map fun u => (u.family, u.name) := by
  rw [heads, distinctBy_map]

theorem mem_heads {us : List Usage} {family : String} :
    family ∈ (heads us).map Prod.fst ↔ family ∈ us.map (·.family) := by
  rw [heads, mem_map_distinctBy, List.map_map]
  rfl

theorem heads_append (us vs : List Usage) :
    heads (us ++ vs) = heads us ++ (heads vs).filter fun v => v.1 ∉ (heads us).map Prod.fst := by
  simp only [mem_heads]
  rw [heads, List.map_append, distinctBy_append, List.map_map]
  rfl

namespace Alike

variable {us vs ws us' vs' : List Usage}

theorem refl (us : List Usage) : Alike us us :=
  ⟨rfl, fun _ _ => Iff.rfl, fun _ _ => Iff.rfl⟩

theorem symm (h : Alike us vs) : Alike vs us :=
  ⟨h.heads.symm, fun f w => (h.weights f w).symm, fun f s => (h.slants f s).symm⟩

theorem trans (h : Alike us vs) (h' : Alike vs ws) : Alike us ws :=
  ⟨h.heads.trans h'.heads, fun f w => (h.weights f w).trans (h'.weights f w),
    fun f s => (h.slants f s).trans (h'.slants f s)⟩

theorem append (h : Alike us vs) (h' : Alike us' vs') : Alike (us ++ us') (vs ++ vs') := by
  refine ⟨?_, fun f w => ?_, fun f s => ?_⟩
  · rw [heads_append, heads_append, h.heads, h'.heads]
  · simp only [List.mem_append, or_and_right, exists_or, h.weights, h'.weights]
  · simp only [List.mem_append, or_and_right, exists_or, h.slants, h'.slants]

/-- What stands in a list already may be left out after it. -/
theorem append_of_subset (h : ∀ v ∈ vs, v ∈ us) : Alike (us ++ vs) us := by
  have hmem : ∀ u, u ∈ us ++ vs ↔ u ∈ us := by
    intro u
    rw [List.mem_append, or_iff_left_of_imp (h u)]
  refine ⟨?_, fun f w => ?_, fun f s => ?_⟩
  · rw [heads_append, List.filter_eq_nil_iff.2, List.append_nil]
    intro v hv
    obtain ⟨u, hu, he⟩ := List.mem_map.1 (mem_heads.1 (List.mem_map_of_mem hv))
    have hold : v.1 ∈ us.map (·.family) := List.mem_map.2 ⟨u, h u hu, he⟩
    simpa only [mem_heads, decide_eq_true_eq, not_not] using hold
  · simp only [hmem]
  · simp only [hmem]

/-- **Usages that look the same have the same merge.** -/
theorem mergeFonts_eq (h : Alike us vs) : mergeFonts us = mergeFonts vs := by
  have hmerge : ∀ us : List Usage, mergeFonts us = (Typeset.heads us).map fun head =>
      ⟨head.1, head.2, .ofList ((us.filter (·.family = head.1)).flatMap (·.weights.toList)),
        .ofList ((us.filter (·.family = head.1)).flatMap (·.slants.toList))⟩ := by
    intro us
    rw [heads_eq, List.map_map]
    rfl
  rw [hmerge, hmerge, h.heads]
  refine List.map_congr_left fun head _ => ?_
  congr 1
  · refine Weights.ext_mem fun w => ?_
    simp only [Weights.mem_ofList, List.mem_flatMap, List.mem_filter, decide_eq_true_eq, and_assoc]
    exact h.weights head.1 w
  · refine Slants.ext_mem fun s => ?_
    simp only [Slants.mem_toList_ofList, List.mem_flatMap, List.mem_filter, decide_eq_true_eq,
      and_assoc]
    exact h.slants head.1 s

end Alike

/-- A list that has each family once is its own merge. -/
theorem mergeFonts_of_nodup {us : List Usage} (h : (us.map (·.family)).Nodup) :
    mergeFonts us = us := by
  rw [mergeFonts, distinctBy_of_nodup h]
  refine (List.map_congr_left fun u hu => ?_).trans (List.map_id us)
  have hsame := filter_family_eq h hu
  obtain ⟨family, name, weights, slants⟩ := u
  simp only [hsame, List.flatMap_singleton, id]
  congr 1
  · exact Weights.ext_mem fun w => Weights.mem_ofList
  · exact Slants.ext_mem fun s => Slants.mem_toList_ofList

/-! ## What mentions lead to -/

/-- The usage that one mention asks for alone. -/
def Mention.fontUsage? : Mention → Option Usage
  | .face family weight slant =>
    some ⟨Font.familyKey family, family, Weights.empty.insert weight, Slants.empty.insert slant⟩
  | .image _ => none

/-- The image that a mention asks for. -/
def Mention.imageUsage? : Mention → Option Document.ImageUsage
  | .face .. => none
  | .image source => some (.of source)

/-- To record a face is to put its usage after the others, for a merge. -/
theorem recordFace_alike (key name : String) (weight : Nat) (slant : Font.Slant)
    (us : List Usage) :
    Alike (recordFace key name weight slant us)
      (us ++ [⟨key, name, Weights.empty.insert weight, Slants.empty.insert slant⟩]) := by
  have hweights : ¬ ∃ w, w ∈ Weights.empty := fun ⟨_, h⟩ => List.not_mem_nil h
  have hslants : ¬ ∃ s, s ∈ Slants.empty.toList := fun ⟨_, h⟩ => List.not_mem_nil h
  push Not at hweights hslants
  induction us with
  | nil => exact .refl _
  | cons u us ih =>
    rw [recordFace]
    split
    · rename_i hu
      refine ⟨?_, fun f w => ?_, fun f s => ?_⟩
      · -- The family is there already, so that the last usage adds none.
        rw [heads_append, List.filter_eq_nil_iff.2, List.append_nil]
        · rfl
        · intro v hv
          have hv' : v = (key, name) := by simpa [heads, distinctBy_cons] using hv
          simp [mem_heads, hv', ← hu]
      · simp only [List.mem_cons, List.mem_append, List.not_mem_nil, or_false, or_and_right,
          exists_or, exists_eq_left, Usage.insert, Weights.mem_insert, hweights]
        grind
      · simp only [List.mem_cons, List.mem_append, List.not_mem_nil, or_false, or_and_right,
          exists_or, exists_eq_left, Usage.insert, Slants.mem_toList_insert, hslants]
        grind
    · exact (Alike.refl [u]).append ih

theorem recordFace_families (key name : String) (weight : Nat) (slant : Font.Slant)
    (us : List Usage) :
    (recordFace key name weight slant us).map (·.family) =
      if key ∈ us.map (·.family) then us.map (·.family) else us.map (·.family) ++ [key] := by
  induction us with
  | nil => rfl
  | cons u us ih =>
    rw [recordFace]
    split
    · rename_i hu
      simp [hu, Usage.insert]
    · rename_i hu
      rw [List.map_cons, ih]
      simp only [List.map_cons, List.mem_cons, Ne.symm hu, false_or]
      split <;> rfl

theorem fontUsages_append_singleton (ms : List Mention) (m : Mention) :
    fontUsages (ms ++ [m]) = addFont (fontUsages ms) m := by
  simp [fontUsages]

/-- No family has two usages. -/
theorem nodup_fontUsages (ms : List Mention) : ((fontUsages ms).map (·.family)).Nodup := by
  induction ms using List.reverseRecOn with
  | nil => exact List.nodup_nil
  | append_singleton ms m ih =>
    rw [fontUsages_append_singleton]
    cases m with
    | image source => exact ih
    | face family weight slant =>
      rw [addFont, recordFace_families]
      split
      · exact ih
      · rename_i hnew
        rw [← List.concat_eq_append]
        exact ih.concat hnew

/-- **The fonts of mentions** look the same as one usage for each mention. -/
theorem fontUsages_alike (ms : List Mention) :
    Alike (fontUsages ms) (ms.filterMap Mention.fontUsage?) := by
  induction ms using List.reverseRecOn with
  | nil => exact .refl _
  | append_singleton ms m ih =>
    rw [fontUsages_append_singleton, List.filterMap_append]
    cases m with
    | image source => simpa [List.filterMap_cons, Mention.fontUsage?, addFont] using ih
    | face family weight slant =>
      exact (recordFace_alike _ _ _ _ _).trans (ih.append (.refl _))

/-- **The images of mentions** are the first with each id. -/
theorem imageUsages_eq (ms : List Mention) :
    imageUsages ms = distinctBy (·.id) (ms.filterMap Mention.imageUsage?) := by
  induction ms using List.reverseRecOn with
  | nil => rfl
  | append_singleton ms m ih =>
    rw [imageUsages, List.foldl_append, ← imageUsages, ih, List.filterMap_append]
    cases m with
    | face family weight slant => simp [List.filterMap_cons, Mention.imageUsage?, addImage]
    | image source =>
      have hany : ((distinctBy (·.id) (ms.filterMap Mention.imageUsage?)).any
          fun v => v.id = (Document.ImageUsage.of source).id) = true ↔
          (Document.ImageUsage.of source).id ∈
            (ms.filterMap Mention.imageUsage?).map (·.id) := by
        rw [← mem_map_distinctBy, List.any_eq_true, List.mem_map]
        simp
      rw [distinctBy_append]
      simp only [List.foldl_cons, List.foldl_nil, addImage, recordImage, hany]
      split <;> rename_i h <;> simp [Mention.imageUsage?, distinctBy_cons, h]

end Typeset

end Galley
