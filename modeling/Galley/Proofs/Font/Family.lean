import Galley.Font.Usage
import Galley.Proofs.Text.LowerCase
import Galley.Proofs.Text.Words

/-!
# Family keys

The key of a family is a key already: all its characters are lower case, and none is a blank, a
comma or a quote (`familyKey_settled`), so that a key is a single word which nothing changes
(`familyKey_familyKey`). A display name has the words of the family as written
(`familyWords_displayName`). It is therefore the same whether a face is named by a family as
written, by its display name or by its key (`Face.of_displayName`, `Face.of_familyKey`).
Where there are no words, both are empty (`familyKey_eq_empty_iff`).

A usage goes by the key of its name (`Usage.Named`), and so its faces are the ones of its name
(`Usage.Named.face_eq`).
-/

namespace Galley.Font

open Text (IsLower separators)

/-! ## Keys are fixed -/

/-- The character may stand in a key: it is lower case and separates nothing. -/
def IsKeyChar (c : Char) : Prop := IsLower c ∧ c.toNat ∉ separators

theorem IsKeyChar.not_isBlank {c : Char} (h : IsKeyChar c) : Text.isBlank c = false := by
  cases hc : Text.isBlank c with
  | false => rfl
  | true => exact absurd (Text.mem_separators_of_isBlank hc) h.2

theorem IsKeyChar.ne_comma {c : Char} (h : IsKeyChar c) : c ≠ ',' := by
  rintro rfl
  exact h.2 (by decide)

theorem IsKeyChar.not_isQuote {c : Char} (h : IsKeyChar c) : isQuote c = false := by
  cases hc : isQuote c with
  | false => rfl
  | true =>
    simp only [isQuote, Bool.or_eq_true, decide_eq_true_eq] at hc
    rcases hc with rfl | hc
    · exact absurd (by decide) h.2
    · exact absurd (hc ▸ by decide) h.2

/-- The words of a family have neither blanks nor commas nor quotes. -/
theorem not_separator_of_mem_familyWords {raw w : List Char} {c : Char} (hw : w ∈ familyWords raw)
    (hc : c ∈ w) : c.toNat ∉ separators := by
  obtain ⟨hmem, hblank⟩ := Text.mem_of_mem_words hw hc
  obtain ⟨htake, hquote⟩ := List.mem_filter.1 hmem
  have hcomma : c ≠ ',' := by simpa using List.mem_takeWhile_imp htake
  intro hsep
  have hcases := Text.separates_of_mem c.toNat hsep
  rw [Char.ofNat_toNat] at hcases
  rcases hcases with h | h | h | h
  · exact absurd h (by simp [hblank])
  · exact hcomma h
  · have hq : c = '"' := by rw [← Char.ofNat_toNat c, h]
    simp [isQuote, hq] at hquote
  · simp [isQuote, h] at hquote

/-- **The characters of a key.** -/
theorem familyKey_settled {raw : String} {c : Char} (h : c ∈ (familyKey raw).toList) :
    IsKeyChar c := by
  rw [familyKey, String.toList_ofList] at h
  rcases Text.mem_joinWith h with h | ⟨w, hw, hc⟩
  · rw [List.mem_singleton.1 h]
    exact ⟨by decide, by decide⟩
  · obtain ⟨v, hv, rfl⟩ := List.mem_map.1 hw
    refine ⟨Text.isLower_of_mem_lowercase hc, fun hsep => ?_⟩
    exact not_separator_of_mem_familyWords hv (Text.mem_of_mem_lowercase hc hsep) hsep

theorem familyWords_of_isKeyChar {key : List Char} (h : ∀ c ∈ key, IsKeyChar c) :
    familyWords key = if key = [] then [] else [key] := by
  have htake : key.takeWhile (· ≠ ',') = key :=
    List.takeWhile_eq_self_iff.2 fun c hc => by simpa using (h c hc).ne_comma
  have hfilter : (key.filter fun c => !isQuote c) = key :=
    List.filter_eq_self.2 fun c hc => by simp [(h c hc).not_isQuote]
  rw [familyWords, htake, hfilter]
  exact Text.words_of_forall fun c hc => (h c hc).not_isBlank

/-- **A key is its own key.** -/
theorem familyKey_familyKey (raw : String) : familyKey (familyKey raw) = familyKey raw := by
  have hkey : ∀ c ∈ (familyKey raw).toList, IsKeyChar c := fun _ h => familyKey_settled h
  rw [familyKey, familyWords_of_isKeyChar hkey]
  split
  · rename_i hnil
    rw [← String.ofList_toList (s := familyKey raw), hnil]
    rfl
  · rw [List.map_singleton, Text.lowercase_of_isLower fun c hc => (hkey c hc).1]
    simp [Text.joinWith, List.intercalate]

/-- A face named by a key is the one named by any spelling of it. -/
theorem Face.of_familyKey (raw : String) (weight : Nat) (slant : Slant) :
    Face.of (familyKey raw) weight slant = Face.of raw weight slant := by
  rw [Face.of, Face.of, familyKey_familyKey]

/-! ## Display names -/

/-- A display name has the words of the family as written. -/
theorem familyWords_displayName (raw : String) :
    familyWords (displayName raw).toList = familyWords raw.toList := by
  have hname : ∀ c ∈ Text.joinWith [' '] (familyWords raw.toList), c ≠ ',' ∧ isQuote c = false := by
    intro c hc
    rcases Text.mem_joinWith hc with hc | ⟨w, hw, hc⟩
    · rw [List.mem_singleton.1 hc]
      decide
    · obtain ⟨htake, hquote⟩ := List.mem_filter.1 (Text.mem_of_mem_words hw hc).1
      exact ⟨by simpa using List.mem_takeWhile_imp htake, by simpa using hquote⟩
  have htake : (Text.joinWith [' '] (familyWords raw.toList)).takeWhile (· ≠ ',') =
      Text.joinWith [' '] (familyWords raw.toList) :=
    List.takeWhile_eq_self_iff.2 fun c hc => by simpa using (hname c hc).1
  have hfilter : ((Text.joinWith [' '] (familyWords raw.toList)).filter fun c => !isQuote c) =
      Text.joinWith [' '] (familyWords raw.toList) :=
    List.filter_eq_self.2 fun c hc => by simp [(hname c hc).2]
  rw [displayName, String.toList_ofList, familyWords, htake, hfilter]
  refine Text.words_joinWith fun w hw => ⟨Text.ne_nil_of_mem_words hw, fun c hc => ?_⟩
  exact (Text.mem_of_mem_words hw hc).2

/-- **A display name is its own display name.** -/
theorem displayName_displayName (raw : String) : displayName (displayName raw) = displayName raw := by
  rw [displayName, familyWords_displayName, displayName]

theorem familyKey_displayName (raw : String) : familyKey (displayName raw) = familyKey raw := by
  rw [familyKey, familyKey, familyWords_displayName]

/-- A face named by a display name is the one named by the family as written. -/
theorem Face.of_displayName (raw : String) (weight : Nat) (slant : Slant) :
    Face.of (displayName raw) weight slant = Face.of raw weight slant := by
  rw [Face.of, Face.of, familyKey_displayName]

/-! ## Families without a name -/

theorem ne_nil_of_mem_familyWords {raw w : List Char} (hw : w ∈ familyWords raw) : w ≠ [] :=
  Text.ne_nil_of_mem_words hw

theorem ofList_eq_empty_iff {s : List Char} : String.ofList s = "" ↔ s = [] := by
  rw [← String.toList_inj, String.toList_ofList]
  rfl

theorem displayName_eq_empty_iff {raw : String} :
    displayName raw = "" ↔ familyWords raw.toList = [] := by
  rw [displayName, ofList_eq_empty_iff]
  exact Text.joinWith_eq_nil_iff fun w hw => ne_nil_of_mem_familyWords hw

/-- **A family has no key just if it has no display name.** -/
theorem familyKey_eq_empty_iff {raw : String} : familyKey raw = "" ↔ displayName raw = "" := by
  have hwords : ∀ w ∈ (familyWords raw.toList).map Text.lowercase, w ≠ [] := by
    intro w hw
    obtain ⟨v, hv, rfl⟩ := List.mem_map.1 hw
    exact mt Text.lowercase_eq_nil_iff.1 (ne_nil_of_mem_familyWords hv)
  rw [displayName_eq_empty_iff, familyKey, ofList_eq_empty_iff, Text.joinWith_eq_nil_iff hwords,
    List.map_eq_nil_iff]

/-! ## Usages -/

/-- The family of the usage is the key of its name. -/
def Usage.Named (u : Usage) : Prop := familyKey u.name = u.family

theorem Usage.named_of (family : String) (weights : Weights) (slants : Slants) :
    (Usage.of family weights slants).Named :=
  familyKey_displayName family

theorem Usage.Named.insert {u : Usage} (h : u.Named) (weight : Nat) (slant : Slant) :
    (u.insert weight slant).Named := h

theorem Usage.Named.familyKey_family {u : Usage} (h : u.Named) : familyKey u.family = u.family := by
  rw [← h, familyKey_familyKey]

/-- The faces of a usage are its weights in its slants, under its family. -/
theorem Usage.Named.mem_faces_iff {u : Usage} (h : u.Named) {face : Face} :
    face ∈ u.faces ↔
      face.family = u.family ∧ face.weight ∈ u.weights ∧ face.slant ∈ u.slants.toList := by
  simp only [faces, Face.of, h.familyKey_family, List.mem_flatMap, List.mem_map]
  constructor
  · rintro ⟨weight, hweight, slant, hslant, rfl⟩
    exact ⟨rfl, hweight, hslant⟩
  · rintro ⟨hfamily, hweight, hslant⟩
    exact ⟨_, hweight, _, hslant, by rw [← hfamily]⟩

/-- The faces of a usage are those of its name. -/
theorem Usage.Named.face_eq {u : Usage} (h : u.Named) {face : Face} (hface : face ∈ u.faces) :
    face = .of u.name face.weight face.slant := by
  obtain ⟨hfamily, -, -⟩ := h.mem_faces_iff.1 hface
  rw [Face.of, h, ← hfamily]

end Galley.Font
