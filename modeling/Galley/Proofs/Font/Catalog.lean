import Galley.Font.Catalog
import Galley.Proofs.Decimal.Natural
import Galley.Proofs.Font.Family

/-!
# Names and addresses of the catalog

**Theorem (`catalogName_ofKey`).** ASCII spellings of a family that have one key have one name in the
catalog, up to the case of letters. For a family of the table it is the name there. For any other it
is made of the parts of the display name between spaces and hyphens (`Parts`), where a part without
a capital gets one (`Spelled`).

The key joins the words of a family by hyphens and the display name by spaces. Both are cut at
spaces and at hyphens, so the parts of the key are those of the display name in lower case
(`nameParts_familyKey`). A part keeps its letters in the catalog, and therefore the key alone
determines the name in lower case (`lowerAscii_catalogName`).

**Theorem (`stylesheetUrl_injective`).** Names without a plus, weights and slants are told apart by
the addresses of their stylesheets. An address is read from its end, since a name may have any
separator in it.
-/

namespace Galley.Text

/-! ## ASCII texts -/

/-- A text of ASCII characters. -/
def IsAscii (s : List Char) : Prop := ∀ c ∈ s, c.toNat < 0x80

instance (s : List Char) : Decidable (IsAscii s) :=
  List.decidableBAll (fun c : Char => c.toNat < 0x80) s

/-- What holds of the first 128 code points holds of ASCII characters. -/
theorem forall_ascii {P : Char → Prop} (h : ∀ n < 0x80, P (Char.ofNat n)) {c : Char}
    (hc : c.toNat < 0x80) : P c := by
  have hself := h c.toNat hc
  rwa [Char.ofNat_toNat] at hself

theorem IsAscii.mono {s t : List Char} (h : IsAscii s) (hsub : t ⊆ s) : IsAscii t :=
  fun c hc => h c (hsub hc)

theorem lowerAfter_of_isAscii {before s : List Char} (h : IsAscii s) :
    lowerAfter before s = lowerAscii s := by
  induction s generalizing before with
  | nil => rfl
  | cons c s ih =>
    have hc : c.toNat < 0x80 := h c List.mem_cons_self
    have hsigma : c.toNat ≠ 0x3a3 := by omega
    have hrest : lowerAfter (c :: before) s = lowerAscii s := ih (h.mono (List.subset_cons_self c s))
    simp [lowerAfter, lowerChar, lowerAscii, hc, hsigma, hrest]

/-- Without other characters, lower case is taken letter by letter. -/
theorem lowercase_of_isAscii {s : List Char} (h : IsAscii s) : lowercase s = lowerAscii s :=
  lowerAfter_of_isAscii h

theorem capitalize_of_isAscii {c : Char} {s : List Char} (h : c.toNat < 0x80) :
    capitalize (c :: s) = c.toUpper :: s := by
  simp [capitalize, upperChar, h]

theorem isUppercase_of_isAscii {c : Char} (h : c.toNat < 0x80) : isUppercase c = c.isUpper :=
  if_pos h

/-- Letters that are made capitals are no blanks. -/
theorem isBlank_toUpper {c : Char} (h : c.toNat < 0x80) : isBlank c.toUpper = isBlank c :=
  forall_ascii (P := fun c => isBlank c.toUpper = isBlank c) (by decide +kernel) h

end Galley.Text

namespace Galley.Font

open Text (IsAscii lowerAscii joinWith)

/-! ## Parts of a name -/

/-- The characters that divide a name into its parts. -/
def isBreak (c : Char) : Bool := c = ' ' || c = '-'

/-- The parts of a name: as long as possible, not empty, and without breaks. -/
inductive Parts : List Char → List (List Char) → Prop
  | nil {gap : List Char} (hgap : ∀ c ∈ gap, isBreak c = true) : Parts gap []
  | cons {gap part rest : List Char} {parts : List (List Char)}
      (hgap : ∀ c ∈ gap, isBreak c = true) (hne : part ≠ [])
      (hpart : ∀ c ∈ part, isBreak c = false) (hend : ∀ c ∈ rest.head?, isBreak c = true)
      (hrest : Parts rest parts) : Parts (gap ++ (part ++ rest)) (part :: parts)

theorem nameParts_eq (s : List Char) :
    nameParts s = (Text.pieces isBreak s).filter fun w => !w.isEmpty := rfl

@[simp] theorem nameParts_nil : nameParts [] = [] := rfl

theorem nameParts_append {c : Char} (hc : isBreak c = true) (s t : List Char) :
    nameParts (s ++ c :: t) = nameParts s ++ nameParts t := by
  rw [nameParts_eq, Text.pieces_append_sep hc, List.filter_append, ← nameParts_eq, ← nameParts_eq]

theorem nameParts_gap {gap : List Char} (h : ∀ c ∈ gap, isBreak c = true) (s : List Char) :
    nameParts (gap ++ s) = nameParts s := by
  induction gap with
  | nil => rfl
  | cons c gap ih =>
    have hfirst : nameParts (c :: (gap ++ s)) = nameParts (gap ++ s) :=
      nameParts_append (h c List.mem_cons_self) [] (gap ++ s)
    rw [List.cons_append, hfirst, ih fun d hd => h d (List.mem_cons_of_mem _ hd)]

theorem nameParts_part {part : List Char} (hne : part ≠ []) (h : ∀ c ∈ part, isBreak c = false) :
    nameParts part = [part] := by
  rw [nameParts_eq, Text.pieces_of_forall h]
  simp [hne]

theorem Parts.nameParts_eq {s : List Char} {parts : List (List Char)} (h : Parts s parts) :
    nameParts s = parts := by
  induction h with
  | nil hgap => simpa using nameParts_gap hgap []
  | @cons gap part rest parts hgap hne hpart hend hrest ih =>
    rw [nameParts_gap hgap, ← ih]
    cases rest with
    | nil => simpa using nameParts_part hne hpart
    | cons c rest =>
      have hc : isBreak c = true := hend c rfl
      have hgap : ∀ d ∈ [c], isBreak d = true := by simpa using hc
      have hskip : nameParts (c :: rest) = nameParts rest := nameParts_gap hgap rest
      rw [nameParts_append hc, nameParts_part hne hpart, hskip]
      rfl

/-- A part may stand at the beginning. -/
theorem Parts.first {part rest : List Char} {parts : List (List Char)} (hne : part ≠ [])
    (hpart : ∀ c ∈ part, isBreak c = false) (hend : ∀ c ∈ rest.head?, isBreak c = true)
    (hrest : Parts rest parts) : Parts (part ++ rest) (part :: parts) := by
  have hgap : ∀ c ∈ [], isBreak c = true := fun c hc => absurd hc List.not_mem_nil
  exact .cons hgap hne hpart hend hrest

theorem exists_parts (s : List Char) : ∃ parts, Parts s parts := by
  induction s with
  | nil => exact ⟨[], .nil (by simp)⟩
  | cons c s ih =>
    obtain ⟨parts, h⟩ := ih
    by_cases hc : isBreak c = true
    · refine ⟨parts, ?_⟩
      cases h with
      | nil hgap => exact .nil (List.forall_mem_cons.2 ⟨hc, hgap⟩)
      | cons hgap hne hpart hend hrest =>
        exact .cons (List.forall_mem_cons.2 ⟨hc, hgap⟩) hne hpart hend hrest
    · have hc : isBreak c = false := by simpa using hc
      have hstart : ∀ {t : List Char} {ts : List (List Char)}, (∀ d ∈ t.head?, isBreak d = true) →
          Parts t ts → Parts (c :: t) ([c] :: ts) := fun hend hrest =>
        .first (List.cons_ne_nil c []) (by simpa using hc) hend hrest
      cases h with
      | nil hgap =>
        exact ⟨_, hstart (fun d hd => hgap d (List.mem_of_mem_head? hd)) (.nil hgap)⟩
      | @cons gap part rest parts hgap hne hpart hend hrest =>
        cases gap with
        | nil =>
          -- The first part begins with the character.
          exact ⟨_, .first (List.cons_ne_nil c part) (List.forall_mem_cons.2 ⟨hc, hpart⟩) hend
            hrest⟩
        | cons d gap =>
          have hd : isBreak d = true := hgap d List.mem_cons_self
          exact ⟨_, hstart (by simpa using hd) (.cons hgap hne hpart hend hrest)⟩

/-- **A name is cut into its parts.** -/
theorem nameParts_parts (s : List Char) : Parts s (nameParts s) := by
  obtain ⟨parts, h⟩ := exists_parts s
  exact h.nameParts_eq ▸ h

theorem nameParts_joinWith {c : Char} (hc : isBreak c = true) (ws : List (List Char)) :
    nameParts (joinWith [c] ws) = ws.flatMap nameParts := by
  induction ws with
  | nil => rfl
  | cons w ws ih =>
    cases ws with
    | nil => simp [joinWith, List.intercalate]
    | cons v vs =>
      rw [Text.joinWith_cons_cons, List.singleton_append, nameParts_append hc, ih]
      rfl

/-! ## Parts in lower case -/

theorem isBreak_toLower {c : Char} (h : c.toNat < 0x80) : isBreak c.toLower = isBreak c :=
  Text.forall_ascii (P := fun c => isBreak c.toLower = isBreak c) (by decide +kernel) h

theorem nameParts_lowerAscii {s : List Char} (h : IsAscii s) :
    nameParts (lowerAscii s) = (nameParts s).map lowerAscii := by
  have hpieces : Text.pieces isBreak (lowerAscii s) = (Text.pieces isBreak s).map lowerAscii :=
    Text.pieces_map fun c hc => isBreak_toLower (h c hc)
  rw [nameParts_eq, nameParts_eq, hpieces, List.filter_map]
  simp [Function.comp_def, lowerAscii]

theorem isAscii_of_mem_familyWords {raw w : List Char} (h : IsAscii raw) (hw : w ∈ familyWords raw) :
    IsAscii w := by
  intro c hc
  have hmem := (List.mem_filter.1 (Text.mem_of_mem_words hw hc).1).1
  exact h c ((List.takeWhile_prefix _).subset hmem)

theorem isAscii_displayName {raw : String} (h : IsAscii raw.toList) :
    IsAscii (displayName raw).toList := by
  intro c hc
  rw [displayName, String.toList_ofList] at hc
  rcases Text.mem_joinWith hc with hc | ⟨w, hw, hc⟩
  · rw [List.mem_singleton.1 hc]
    decide
  · exact isAscii_of_mem_familyWords h hw c hc

/-- **The parts of a key** are those of the display name, in lower case. -/
theorem nameParts_familyKey {raw : String} (h : IsAscii raw.toList) :
    nameParts (familyKey raw).toList = (nameParts (displayName raw).toList).map lowerAscii := by
  have hword : ∀ w ∈ familyWords raw.toList,
      nameParts (Text.lowercase w) = (nameParts w).map lowerAscii := by
    intro w hw
    have hascii := isAscii_of_mem_familyWords h hw
    rw [Text.lowercase_of_isAscii hascii, nameParts_lowerAscii hascii]
  rw [familyKey, displayName, String.toList_ofList, String.toList_ofList,
    nameParts_joinWith (by decide), nameParts_joinWith (by decide), List.flatMap_map,
    List.map_flatMap]
  exact List.flatMap_congr hword

/-! ## Names in the catalog -/

variable {family : String}

/-- A part as the catalog writes it: unchanged if it has a capital, and otherwise with one for its
first letter. -/
inductive Spelled : List Char → List Char → Prop
  | unchanged {part : List Char} (h : ∃ c ∈ part, c.isUpper = true) : Spelled part part
  | capital {c : Char} {part : List Char} (h : ∀ d ∈ c :: part, d.isUpper = false) :
      Spelled (c :: part) (c.toUpper :: part)

theorem catalogWord_spelled {part : List Char} (hne : part ≠ []) (h : IsAscii part) :
    Spelled part (catalogWord part) := by
  have hupper : part.any Text.isUppercase = part.any Char.isUpper := by
    rw [Bool.eq_iff_iff]
    simp only [List.any_eq_true]
    exact exists_congr fun c => and_congr_right fun hc => by rw [Text.isUppercase_of_isAscii (h c hc)]
  rw [catalogWord, hupper]
  split
  · rename_i hany
    exact .unchanged (List.any_eq_true.1 hany)
  · rename_i hnone
    obtain ⟨c, part, rfl⟩ := List.exists_cons_of_ne_nil hne
    rw [Text.capitalize_of_isAscii (h c List.mem_cons_self)]
    exact .capital (by simpa using hnone)

/-- A part keeps its letters. -/
theorem Spelled.lowerAscii_eq {part word : List Char} (h : Spelled part word) :
    lowerAscii word = lowerAscii part := by
  cases h with
  | unchanged => rfl
  | capital => simp [lowerAscii]

theorem Spelled.ne_nil {part word : List Char} (h : Spelled part word) (hne : part ≠ []) :
    word ≠ [] := by
  cases h with
  | unchanged => exact hne
  | capital => exact List.cons_ne_nil _ _

theorem Spelled.not_isBlank {part word : List Char} (h : Spelled part word) (hascii : IsAscii part)
    (hblank : ∀ c ∈ part, Text.isBlank c = false) : ∀ c ∈ word, Text.isBlank c = false := by
  cases h with
  | unchanged => exact hblank
  | @capital c part =>
    obtain ⟨hc, hpart⟩ := List.forall_mem_cons.1 hblank
    have hfirst : Text.isBlank c.toUpper = false :=
      (Text.isBlank_toUpper (hascii c List.mem_cons_self)).trans hc
    exact List.forall_mem_cons.2 ⟨hfirst, hpart⟩

/-- The name of a family that is not in the table, word by word. -/
def spelledParts (family : String) : List (List Char) :=
  (nameParts (displayName family).toList).map catalogWord

theorem catalog_keys_apart : (catalog.map (·.1)).Nodup := by decide +kernel

/-- The table has one name for a key. -/
theorem catalogName_of_mem {name : String} (h : (familyKey family, name) ∈ catalog) :
    catalogName family = name := by
  rw [catalogName]
  cases hfind : catalog.find? fun e => e.1 = familyKey family with
  | none => simpa using List.find?_eq_none.1 hfind _ h
  | some e =>
    have hkey : e.1 = familyKey family := by simpa using List.find?_some hfind
    have hsame : e = (familyKey family, name) :=
      List.inj_on_of_nodup_map catalog_keys_apart (List.mem_of_find?_eq_some hfind) h hkey
    rw [hsame]

theorem catalogName_of_not_mem (h : ∀ name, (familyKey family, name) ∉ catalog) :
    catalogName family = String.ofList (joinWith [' '] (spelledParts family)) := by
  have hnone : (catalog.find? fun e => e.1 = familyKey family) = none := by
    rw [List.find?_eq_none]
    intro e he hkey
    have hkey : e.1 = familyKey family := by simpa using hkey
    exact h e.2 (hkey ▸ he)
  rw [catalogName, hnone]
  rfl

section Ascii

variable (hascii : IsAscii family.toList)

include hascii

theorem isAscii_of_mem_nameParts {part : List Char}
    (hpart : part ∈ nameParts (displayName family).toList) : IsAscii part := by
  intro c hc
  have hmem := (Text.mem_pieces (List.mem_filter.1 hpart).1 c hc).1
  exact isAscii_displayName hascii c hmem

theorem spelledParts_spelled :
    List.Forall₂ Spelled (nameParts (displayName family).toList) (spelledParts family) := by
  rw [spelledParts, List.forall₂_map_right_iff, List.forall₂_same]
  intro part hpart
  have hne : part ≠ [] := by simpa using (List.mem_filter.1 hpart).2
  exact catalogWord_spelled hne (isAscii_of_mem_nameParts hascii hpart)

/-- **The key determines the letters** of a name that is not in the table. -/
theorem lowerAscii_catalogName (h : ∀ name, (familyKey family, name) ∉ catalog) :
    lowerAscii (catalogName family).toList =
      joinWith [' '] (nameParts (familyKey family).toList) := by
  have hparts : (spelledParts family).map lowerAscii =
      (nameParts (displayName family).toList).map lowerAscii := by
    have hletters := (spelledParts_spelled hascii).imp fun _ _ => Spelled.lowerAscii_eq
    rw [← List.forall₂_eq_eq_eq, List.forall₂_map_right_iff, List.forall₂_map_left_iff]
    exact hletters.flip
  rw [catalogName_of_not_mem h, String.toList_ofList, nameParts_familyKey hascii, ← hparts]
  exact Text.map_joinWith _ _ _

/-- The words of a name that is not in the table are its parts, spelled. -/
theorem words_spelledParts :
    Text.words (joinWith [' '] (spelledParts family)) = spelledParts family := by
  refine Text.words_joinWith fun word hword => ?_
  obtain ⟨part, hpart, rfl⟩ := List.mem_map.1 hword
  have hne : part ≠ [] := by simpa using (List.mem_filter.1 hpart).2
  have hpartAscii := isAscii_of_mem_nameParts hascii hpart
  have hspelled := catalogWord_spelled hne hpartAscii
  refine ⟨hspelled.ne_nil hne, hspelled.not_isBlank hpartAscii fun c hc => ?_⟩
  obtain ⟨hmem, hbreak⟩ := Text.mem_pieces (List.mem_filter.1 hpart).1 c hc
  rw [displayName, String.toList_ofList] at hmem
  -- The only blank of a display name is the space, which is a break.
  rcases Text.mem_joinWith hmem with hspace | ⟨w, hw, hc⟩
  · rw [List.mem_singleton.1 hspace] at hbreak
    exact absurd hbreak (by decide)
  · exact (Text.mem_of_mem_words hw hc).2

end Ascii

/-- What the names of two spellings of a family have in common, and what the name of the first
one is. -/
structure CatalogNames (a b : String) : Prop where
  /-- The names have the same letters, in either case. -/
  letters : lowerAscii (catalogName a).toList = lowerAscii (catalogName b).toList
  /-- Where the table has the key, both are the name there. -/
  listed : ∀ name, (familyKey a, name) ∈ catalog → catalogName a = name ∧ catalogName b = name
  /-- Elsewhere the words of the name, with single spaces between them, are the parts of the display
  name, each unchanged if it has a capital and with its first letter as one otherwise. -/
  unlisted : (∀ name, (familyKey a, name) ∉ catalog) →
    ∃ parts, Parts (displayName a).toList parts ∧
      List.Forall₂ Spelled parts (Text.words (catalogName a).toList) ∧
      catalogName a = String.ofList (joinWith [' '] (Text.words (catalogName a).toList))

/-- **Spellings with one key have one name**, up to the case of letters. -/
theorem catalogName_ofKey {a b : String} (ha : IsAscii a.toList) (hb : IsAscii b.toList)
    (hkey : familyKey a = familyKey b) : CatalogNames a b where
  letters := by
    by_cases hlisted : ∃ name, (familyKey a, name) ∈ catalog
    · obtain ⟨name, hname⟩ := hlisted
      rw [catalogName_of_mem hname, catalogName_of_mem (hkey ▸ hname)]
    · have hnone : ∀ name, (familyKey a, name) ∉ catalog := not_exists.1 hlisted
      rw [lowerAscii_catalogName ha hnone, lowerAscii_catalogName hb (hkey ▸ hnone), hkey]
  listed := fun name hname => ⟨catalogName_of_mem hname, catalogName_of_mem (hkey ▸ hname)⟩
  unlisted := by
    intro hnone
    have hwords : Text.words (catalogName a).toList = spelledParts a := by
      rw [catalogName_of_not_mem hnone, String.toList_ofList, words_spelledParts ha]
    refine ⟨_, nameParts_parts _, ?_, ?_⟩
    · rw [hwords]
      exact spelledParts_spelled ha
    · rw [hwords]
      exact catalogName_of_not_mem hnone

/-- A family in two spellings, which differ in their capitals, and one of the table. -/
theorem garamond_spellings :
    CatalogNames "'EB  Garamond-pro', serif" "eb-\"garamond pro" ∧
      catalogName "'EB  Garamond-pro', serif" = "EB Garamond Pro" ∧
      catalogName "eb-\"garamond pro" = "Eb Garamond Pro" ∧
      CatalogNames "'source  SANS' Pro" "Source-Sans-Pro" ∧
      catalogName "Source-Sans-Pro" = "Source Sans 3" := by
  refine ⟨catalogName_ofKey ?_ ?_ ?_, ?_, ?_, catalogName_ofKey ?_ ?_ ?_, ?_⟩
  all_goals decide +kernel

/-! ## Addresses of stylesheets -/

/-- A space as it stands in an address. -/
def plusForSpace (c : Char) : Char := if c = ' ' then '+' else c

/-- Texts without a plus are told apart also with a plus for each space. -/
theorem map_plusForSpace_inj {s t : List Char} (hs : '+' ∉ s) (ht : '+' ∉ t)
    (h : s.map plusForSpace = t.map plusForSpace) : s = t := by
  induction s generalizing t with
  | nil => exact (List.map_eq_nil_iff.1 h.symm).symm
  | cons c s ih =>
    cases t with
    | nil => cases h
    | cons d t =>
      obtain ⟨hfirst, hrest⟩ := List.cons.inj h
      have hc : c ≠ '+' := fun he => hs (he ▸ List.mem_cons_self)
      have hd : d ≠ '+' := fun he => ht (he ▸ List.mem_cons_self)
      have hsame : c = d := by
        unfold plusForSpace at hfirst
        split at hfirst <;> split at hfirst <;> simp_all
      rw [hsame, ih (fun hm => hs (List.mem_cons_of_mem _ hm))
        (fun hm => ht (List.mem_cons_of_mem _ hm)) hrest]

theorem toList_stylesheetUrl (base name : String) (weight : Nat) (slant : Slant) :
    (stylesheetUrl base name weight slant).toList =
      base.toList ++ ("?family=".toList ++ (name.toList.map plusForSpace ++
        (":ital,wght@".toList ++ (slantDigit slant).toList))) ++
          ',' :: (Decimal.natural weight).toList := by
  simp [stylesheetUrl, plusForSpace]

theorem slantDigit_injective {s t : Slant} (h : slantDigit s = slantDigit t) : s = t := by
  cases s <;> cases t <;> first | rfl | exact absurd h (by decide)

theorem length_slantDigit (s : Slant) : (slantDigit s).toList.length = 1 := by
  cases s <;> rfl

/-- **Faces with distinct names, weights or slants have distinct addresses**, whatever the names
hold besides a plus. -/
theorem stylesheetUrl_injective {base name name' : String} {weight weight' : Nat}
    {slant slant' : Slant} (hname : '+' ∉ name.toList) (hname' : '+' ∉ name'.toList)
    (h : stylesheetUrl base name weight slant = stylesheetUrl base name' weight' slant') :
    name = name' ∧ weight = weight' ∧ slant = slant' := by
  have hlists := congrArg String.toList h
  rw [toList_stylesheetUrl, toList_stylesheetUrl] at hlists
  -- The number at the end is behind the last comma, and one character is before that.
  obtain ⟨hfront, hweight⟩ := Decimal.natural_last_inj (by decide) hlists
  have hface := List.append_cancel_left (List.append_cancel_left hfront)
  rw [← List.append_assoc, ← List.append_assoc] at hface
  obtain ⟨hnames, hslant⟩ :=
    List.append_inj' hface ((length_slantDigit slant).trans (length_slantDigit slant').symm)
  have hplus := map_plusForSpace_inj hname hname' (List.append_cancel_right hnames)
  exact ⟨String.toList_injective hplus, hweight,
    slantDigit_injective (String.toList_injective hslant)⟩

/-- A name that imitates the end of an address, read off the address. -/
theorem imitation_injective :
    '+' ∉ (displayName "'Sans:ital @1  7'").toList ∧
      stylesheetUrl "css2" (displayName "'Sans:ital @1  7'") 700 .italic =
        stylesheetUrl "css2" "Sans:ital @1 7" 700 .italic ∧
      displayName "'Sans:ital @1  7'" = "Sans:ital @1 7" := by
  have hplus : '+' ∉ (displayName "'Sans:ital @1  7'").toList := by decide
  have haddress : stylesheetUrl "css2" (displayName "'Sans:ital @1  7'") 700 .italic =
      stylesheetUrl "css2" "Sans:ital @1 7" 700 .italic := by decide
  exact ⟨hplus, haddress, (stylesheetUrl_injective hplus (by decide) haddress).1⟩

/-- A plus of the name itself is not told apart from a space. -/
example : stylesheetUrl "css2" "A B" 400 .normal = stylesheetUrl "css2" "A+B" 400 .normal := by
  decide

end Galley.Font
