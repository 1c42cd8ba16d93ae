import Galley.Image.Format
import Galley.Proofs.Bytes.Utf8
import Galley.Proofs.Text.Cut
import Galley.Proofs.Text.Words

/-!
# Formats by their signatures

**Theorem (`detect?_settled`).** No file has the signatures of two formats, so the order in which
they are tried is irrelevant. A format that is detected stays with any bytes that follow, and after
512 bytes nothing that follows can change the outcome.

The formats of rasters differ in their first bytes, and no SVG file begins with one of these: its
text begins with a byte order mark, a blank or a `<`. The difficulty is in the text of an SVG file,
of which more bytes may change the last character. If that was a replacement character, it is in
none of the tags that were found, so that these stand before it (`ShowsSvg.of_broken`).
-/

namespace Galley.Image.Format

open Bytes (toTextLossy replacement)

/-! ## The text of an SVG file -/

/-- Behind byte order marks and blanks, the text begins with the tag of an SVG file, or with an XML
declaration and has the tag. -/
def ShowsSvg (s : List Char) : Prop :=
  ∃ marks blanks rest : List Char, s = marks ++ (blanks ++ rest) ∧
    (∀ c ∈ marks, c.toNat = 0xfeff) ∧ (∀ c ∈ blanks, Text.isBlank c = true) ∧
    ("<svg".toList <+: rest ∨ "<?xml".toList <+: rest ∧ "<svg".toList <:+: rest)

theorem isSvgText_iff {s : List Char} : isSvgText s = true ↔ ShowsSvg s := by
  simp only [isSvgText, Bool.or_eq_true, Bool.and_eq_true, Text.startsWith_iff, Text.hasInfix_iff]
  constructor
  · intro h
    obtain ⟨blanks, hblanks, hall⟩ :=
      Text.exists_trimStart (s.dropWhile fun c => c.toNat = 0xfeff)
    refine ⟨s.takeWhile fun c => c.toNat = 0xfeff, blanks, _, ?_, ?_, hall, h⟩
    · rw [← hblanks, List.takeWhile_append_dropWhile]
    · intro c hc
      simpa using List.mem_takeWhile_imp hc
  · rintro ⟨marks, blanks, rest, rfl, hmarks, hblanks, h⟩
    -- What shows the file begins with `<`, which is neither a mark nor a blank.
    obtain ⟨tail, rfl⟩ : ∃ tail, rest = '<' :: tail := by
      rcases h with ⟨tail, rfl⟩ | ⟨⟨tail, rfl⟩, -⟩
      · exact ⟨_, rfl⟩
      · exact ⟨_, rfl⟩
    have hunmarked : (blanks ++ '<' :: tail).dropWhile (fun c => c.toNat = 0xfeff) =
        blanks ++ '<' :: tail := by
      cases blanks with
      | nil => rfl
      | cons c blanks =>
        have hc : c.toNat ≠ 0xfeff := by
          intro hmark
          have hblank := hblanks c List.mem_cons_self
          rw [Text.isBlank, hmark] at hblank
          exact absurd hblank (by decide)
        exact List.dropWhile_cons_of_neg (by simpa using hc)
    have htrim : Text.trimStart ((marks ++ (blanks ++ '<' :: tail)).dropWhile
        fun c => c.toNat = 0xfeff) = '<' :: tail := by
      rw [List.dropWhile_append_of_pos (by simpa using hmarks), hunmarked]
      apply Text.trimStart_append hblanks
      intro c hc
      obtain rfl : '<' = c := by simpa using hc
      decide
    rwa [htrim]

theorem ShowsSvg.append {s : List Char} (h : ShowsSvg s) (t : List Char) : ShowsSvg (s ++ t) := by
  obtain ⟨marks, blanks, rest, rfl, hmarks, hblanks, hrest⟩ := h
  refine ⟨marks, blanks, rest ++ t, by simp, hmarks, hblanks, ?_⟩
  rcases hrest with htag | ⟨hdeclaration, htag⟩
  · exact .inl (htag.trans (List.prefix_append _ _))
  · exact .inr ⟨hdeclaration.trans (List.prefix_append _ _),
      htag.trans (List.prefix_append _ _).isInfix⟩

theorem prefix_of_concat {p s : List Char} {c : Char} (hc : c ∉ p) (h : p <+: s ++ [c]) :
    p <+: s := by
  rcases List.prefix_concat_iff.1 h with heq | h
  · rw [heq] at hc
    simp at hc
  · exact h

theorem infix_of_concat {p s : List Char} {c : Char} (hc : c ∉ p) (h : p <:+: s ++ [c]) :
    p <:+: s := by
  rcases List.infix_concat_iff.1 h with hsuffix | h
  · rcases List.suffix_concat_iff.1 hsuffix with hnil | ⟨t, heq, -⟩
    · rw [hnil]
      exact List.nil_infix
    · rw [heq] at hc
      simp at hc
  · exact h

/-- **A character that breaks off shows nothing**: what shows the file stands before it. -/
theorem ShowsSvg.of_broken {s : List Char} (h : ShowsSvg (s ++ [replacement])) : ShowsSvg s := by
  obtain ⟨marks, blanks, rest, hs, hmarks, hblanks, hrest⟩ := h
  have hnotTag : replacement ∉ "<svg".toList := by decide
  have hnotDeclaration : replacement ∉ "<?xml".toList := by decide
  rcases List.eq_nil_or_concat rest with rfl | ⟨front, last, rfl⟩
  · rcases hrest with htag | ⟨-, htag⟩
    · exact absurd (List.prefix_nil.1 htag) (by decide)
    · exact absurd (List.infix_nil.1 htag) (by decide)
  · have hsplit : s ++ [replacement] = (marks ++ (blanks ++ front)) ++ [last] := by simpa using hs
    obtain ⟨rfl, hlast⟩ := List.append_inj' hsplit rfl
    obtain rfl : replacement = last := by simpa using hlast
    refine ⟨marks, blanks, front, rfl, hmarks, hblanks, ?_⟩
    rw [List.concat_eq_append] at hrest
    rcases hrest with htag | ⟨hdeclaration, htag⟩
    · exact .inl (prefix_of_concat hnotTag htag)
    · exact .inr ⟨prefix_of_concat hnotDeclaration hdeclaration, infix_of_concat hnotTag htag⟩

theorem ShowsSvg.head {s : List Char} (h : ShowsSvg s) :
    ∃ c rest, s = c :: rest ∧ (c = '<' ∨ c.toNat = 0xfeff ∨ Text.isBlank c = true) := by
  obtain ⟨marks, blanks, rest, rfl, hmarks, hblanks, hrest⟩ := h
  cases marks with
  | cons c marks => exact ⟨c, _, rfl, .inr (.inl (hmarks c List.mem_cons_self))⟩
  | nil =>
    cases blanks with
    | cons c blanks => exact ⟨c, _, rfl, .inr (.inr (hblanks c List.mem_cons_self))⟩
    | nil =>
      rcases hrest with ⟨tail, rfl⟩ | ⟨⟨tail, rfl⟩, -⟩
      · exact ⟨'<', _, rfl, .inl rfl⟩
      · exact ⟨'<', _, rfl, .inl rfl⟩

/-! ## One signature -/

/-- The first byte of every file of a raster format. -/
def firstByte : Format → UInt8
  | png => 0x89
  | jpeg => 0xff
  | webp => 0x52
  | gif => 0x47
  | svg => 0x3c

theorem firstByte_injective : Function.Injective firstByte := by
  intro f g h
  cases f <;> cases g <;> first | rfl | exact absurd h (by decide)

theorem exists_cons_of_hasSignature {bs : Bytes} {f : Format} (h : hasSignature bs f = true)
    (hf : f ≠ svg) : ∃ rest, bs = f.firstByte :: rest := by
  cases f with
  | png | jpeg | gif =>
    obtain ⟨rest, rfl⟩ := List.isPrefixOf_iff_prefix.1 h
    exact ⟨_, rfl⟩
  | webp =>
    obtain ⟨rest, rfl⟩ := List.isPrefixOf_iff_prefix.1 (Bool.and_eq_true_iff.1 h).1
    exact ⟨_, rfl⟩
  | svg => exact absurd rfl hf

/-- The text of a raster file begins with none of the characters that an SVG file begins with. -/
theorem not_svg_of_firstByte {f : Format} (hf : f ≠ svg) (rest : Bytes) :
    hasSignature (f.firstByte :: rest) svg = false := by
  have hfirst : ∀ more, (Bytes.firstChar f.firstByte more).1 = replacement ∨
      (Bytes.firstChar f.firstByte more).1 = 'R' ∨ (Bytes.firstChar f.firstByte more).1 = 'G' := by
    intro more
    cases f with
    | png => exact .inl rfl
    | jpeg => exact .inl rfl
    | webp => exact .inr (.inl rfl)
    | gif => exact .inr (.inr rfl)
    | svg => exact absurd rfl hf
  rw [hasSignature, List.take_succ_cons, Bytes.toTextLossy_cons, Bool.eq_false_iff]
  intro hsvg
  obtain ⟨c, tail, heq, hc⟩ := (isSvgText_iff.1 hsvg).head
  obtain ⟨rfl, -⟩ := List.cons.inj heq
  rcases hfirst (rest.take 511) with h | h | h
  all_goals
    rw [h] at hc
    revert hc
    decide

/-- **No file has two signatures.** -/
theorem hasSignature_unique {bs : Bytes} {f g : Format} (hf : hasSignature bs f = true)
    (hg : hasSignature bs g = true) : f = g := by
  by_cases hfsvg : f = svg
  · by_cases hgsvg : g = svg
    · rw [hfsvg, hgsvg]
    · obtain ⟨rest, rfl⟩ := exists_cons_of_hasSignature hg hgsvg
      rw [hfsvg, not_svg_of_firstByte hgsvg] at hf
      cases hf
  · obtain ⟨rest, rfl⟩ := exists_cons_of_hasSignature hf hfsvg
    by_cases hgsvg : g = svg
    · rw [hgsvg, not_svg_of_firstByte hfsvg] at hg
      cases hg
    · obtain ⟨rest', heq⟩ := exists_cons_of_hasSignature hg hgsvg
      exact firstByte_injective (List.cons.inj heq).1

theorem mem_all (f : Format) : f ∈ all := by
  cases f <;> decide

/-- The formats may be tried in any order. -/
theorem find?_eq_some_iff {bs : Bytes} {order : List Format} (h : ∀ f, f ∈ order) {f : Format} :
    order.find? (hasSignature bs) = some f ↔ hasSignature bs f = true := by
  constructor
  · exact List.find?_some
  · intro hf
    obtain ⟨g, hg⟩ := Option.isSome_iff_exists.1 (List.find?_isSome.2 ⟨f, h f, hf⟩)
    rw [hg, hasSignature_unique hf (List.find?_some hg)]

theorem detect?_eq_some_iff {bs : Bytes} {f : Format} :
    detect? bs = some f ↔ hasSignature bs f = true :=
  find?_eq_some_iff mem_all

/-! ## More bytes -/

theorem prefix_take {p bs : Bytes} {n : Nat} (hp : p.length ≤ n) : p <+: bs.take n ↔ p <+: bs := by
  constructor
  · intro h
    exact h.trans (List.take_prefix n bs)
  · intro h
    rw [List.prefix_take_iff]
    exact ⟨h, hp⟩

/-- **A signature shows within the first 512 bytes.** -/
theorem hasSignature_take (bs : Bytes) (f : Format) :
    hasSignature (bs.take 512) f = hasSignature bs f := by
  rw [Bool.eq_iff_iff]
  cases f with
  | png | jpeg | gif =>
    simp only [hasSignature, List.isPrefixOf_iff_prefix]
    exact prefix_take (by decide)
  | webp =>
    simp only [hasSignature, Bool.and_eq_true, List.isPrefixOf_iff_prefix, List.drop_take]
    exact and_congr (prefix_take (by decide)) (prefix_take (by decide))
  | svg => simp only [hasSignature, List.take_take, Nat.min_self]

/-- **A signature stays** with any bytes that follow. -/
theorem hasSignature_append {bs : Bytes} {f : Format} (h : hasSignature bs f = true)
    (more : Bytes) : hasSignature (bs ++ more) f = true := by
  cases f with
  | png | jpeg | gif =>
    simp only [hasSignature, List.isPrefixOf_iff_prefix] at h ⊢
    exact h.trans (List.prefix_append _ _)
  | webp =>
    simp only [hasSignature, Bool.and_eq_true, List.isPrefixOf_iff_prefix, List.drop_append] at h ⊢
    exact ⟨h.1.trans (List.prefix_append _ _), h.2.trans (List.prefix_append _ _)⟩
  | svg =>
    simp only [hasSignature, isSvgText_iff, List.take_append] at h ⊢
    rcases Bytes.toTextLossy_append (bs.take 512) (more.take (512 - bs.length)) with
      ⟨rest, hrest⟩ | ⟨front, rest, hbroken, hrest⟩
    · rw [hrest]
      exact h.append rest
    · rw [hbroken] at h
      rw [hrest]
      exact h.of_broken.append rest

/-- What is said of the detection of a file's format. -/
structure Settled (bs : Bytes) : Prop where
  unambiguous {f g : Format} (hf : hasSignature bs f = true) (hg : hasSignature bs g = true) : f = g
  anyOrder {order : List Format} (horder : order.Perm all) :
    order.find? (hasSignature bs) = detect? bs
  stays {f : Format} (h : detect? bs = some f) (more : Bytes) : detect? (bs ++ more) = some f
  final (h : 512 ≤ bs.length) (more : Bytes) : detect? (bs ++ more) = detect? bs

/-- **One signature at most, and for good.** -/
theorem detect?_settled (bs : Bytes) : Settled bs := by
  constructor
  case unambiguous =>
    intro f g hf hg
    exact hasSignature_unique hf hg
  case anyOrder =>
    intro order horder
    apply Option.ext
    intro f
    rw [find?_eq_some_iff fun g => horder.mem_iff.2 (mem_all g), detect?_eq_some_iff]
  case stays =>
    intro f h more
    rw [detect?_eq_some_iff] at h ⊢
    exact hasSignature_append h more
  case final =>
    intro h more
    apply Option.ext
    intro f
    rw [detect?_eq_some_iff, detect?_eq_some_iff, ← hasSignature_take (bs ++ more),
      List.take_append_of_le_length h, hasSignature_take]

/-- An SVG file that breaks off within a character. -/
def brokenTag : Bytes := [0x3c, 0x73, 0x76, 0x67, 0xe2, 0x82]

/-- The file is recognised with and without the rest of its character, in the reverse order too.
Behind 512 blanks it is not looked at. -/
theorem brokenTag_settled :
    detect? brokenTag = some svg ∧ detect? (brokenTag ++ [0xac]) = some svg ∧
      all.reverse.find? (hasSignature brokenTag) = detect? brokenTag ∧
      detect? (List.replicate 512 0x20 ++ brokenTag) = detect? (List.replicate 512 0x20) := by
  have hdetect : detect? brokenTag = some svg := by cbv
  have hsettled := detect?_settled brokenTag
  exact ⟨hdetect, hsettled.stays hdetect [0xac], hsettled.anyOrder (List.reverse_perm _),
    (detect?_settled _).final List.length_replicate.ge brokenTag⟩

end Galley.Image.Format
