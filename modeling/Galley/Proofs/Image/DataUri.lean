import Galley.Asset.Images
import Galley.Proofs.Bytes.Base64
import Galley.Proofs.Except
import Galley.Proofs.Text.Cut

/-!
# Images in data URIs, there and back

**Theorem (`resolveDataUri_rules`).** The data URIs that have an image are the texts
`data:image/<subtype>;base64,<payload>` with a subtype that names a format, in any letter case, and
with an encoding of some bytes as the payload, between whose symbols blanks may stand anywhere. The
image has those bytes, that format and the id that it was asked for under. Every other text is
refused, by the first of three rules that it breaks: its form, its subtype, its payload.

The form is unique, because the semicolon behind the subtype is no character of a subtype
(`split?_eq_some_iff`). Blanks are put in by `Spaced`, one at a time, and the filter takes them out
again (`filter_eq_iff_spaced`), because no symbol is a blank.
-/

namespace Galley

namespace Image

/-! ## Subtypes -/

/-- The media subtypes of images, with their formats. -/
def Format.subtypes : List (String × Format) := [
  ("png", png), ("jpeg", jpeg), ("jpg", jpeg), ("webp", webp), ("gif", gif), ("svg", svg),
  ("svg+xml", svg)]

/-- The media subtype names the format, in any letter case. -/
def Format.NamedBy (format : Format) (subtype : List Char) : Prop :=
  ∃ name, (name, format) ∈ subtypes ∧ Text.lowerAscii subtype = name.toList

theorem Format.ofSubtype?_eq_some_iff {subtype : List Char} {format : Format} :
    ofSubtype? (String.ofList subtype) = some format ↔ format.NamedBy subtype := by
  have hname : ∀ name : String, Text.lowerAscii subtype = name.toList ↔
      String.ofList (Text.lowerAscii subtype) = name := by
    intro name
    rw [← String.toList_inj, String.toList_ofList]
  unfold ofSubtype? NamedBy
  simp only [String.toList_ofList, hname]
  generalize String.ofList (Text.lowerAscii subtype) = name
  constructor
  · intro h
    split_ifs at h <;> cases h <;> simp_all [subtypes]
  · rintro ⟨_, hmem, rfl⟩
    simp only [subtypes, List.mem_cons, Prod.mk.injEq, List.not_mem_nil, or_false] at hmem
    rcases hmem with ⟨rfl, rfl⟩ | ⟨rfl, rfl⟩ | ⟨rfl, rfl⟩ | ⟨rfl, rfl⟩ | ⟨rfl, rfl⟩ | ⟨rfl, rfl⟩ |
      ⟨rfl, rfl⟩ <;> rfl

namespace DataUri

theorem isSubtypeChar_of_toLower {c : Char} (h : isSubtypeChar c.toLower = true) :
    isSubtypeChar c = true := by
  by_cases hupper : c.isUpper = true
  · simp [isSubtypeChar, Char.isAlphanum, Char.isAlpha, hupper]
  · have hsame : c.toLower = c := by
      unfold Char.toLower
      rw [dif_neg]
      simpa [Char.isUpper] using hupper
    rwa [hsame] at h

theorem subtypes_plain : ∀ e ∈ Format.subtypes,
    e.1.toList ≠ [] ∧ e.1.toList.all isSubtypeChar = true := by
  decide

section Subtype

variable {format : Format} {subtype : List Char}

theorem ne_nil_of_namedBy (h : format.NamedBy subtype) : subtype ≠ [] := by
  obtain ⟨name, hmem, hname⟩ := h
  intro hnil
  rw [hnil] at hname
  exact (subtypes_plain _ hmem).1 hname.symm

theorem isSubtypeChar_of_namedBy (h : format.NamedBy subtype) :
    ∀ c ∈ subtype, isSubtypeChar c = true := by
  obtain ⟨name, hmem, hname⟩ := h
  intro c hc
  apply isSubtypeChar_of_toLower
  apply List.all_eq_true.1 (subtypes_plain _ hmem).2
  rw [← hname]
  exact List.mem_map_of_mem hc

end Subtype

/-! ## Payloads -/

/-- The second text is the first one with blanks put in anywhere. -/
inductive Spaced : List Char → List Char → Prop
  | nil : Spaced [] []
  | keep (c : Char) {s t : List Char} (h : Spaced s t) : Spaced (c :: s) (c :: t)
  | blank {c : Char} (hc : Text.isBlank c = true) {s t : List Char} (h : Spaced s t) :
    Spaced s (c :: t)

theorem spaced_filter (t : List Char) : Spaced (t.filter fun c => !Text.isBlank c) t := by
  induction t with
  | nil => exact .nil
  | cons c t ih =>
    by_cases hc : Text.isBlank c = true
    · simpa [hc] using ih.blank hc
    · simpa [hc] using ih.keep c

theorem Spaced.filter_eq {s t : List Char} (h : Spaced s t)
    (hs : ∀ c ∈ s, Text.isBlank c = false) : (t.filter fun c => !Text.isBlank c) = s := by
  induction h with
  | nil => rfl
  | keep c h ih =>
    have hrest := ih fun d hd => hs d (List.mem_cons_of_mem _ hd)
    simp [hs c List.mem_cons_self, hrest]
  | blank hc h ih => simp [hc, ih hs]

/-- **Blanks are filtered out as they were put in.** -/
theorem filter_eq_iff_spaced {s t : List Char} (hs : ∀ c ∈ s, Text.isBlank c = false) :
    (t.filter fun c => !Text.isBlank c) = s ↔ Spaced s t := by
  constructor
  · intro h
    rw [← h]
    exact spaced_filter t
  · intro h
    exact h.filter_eq hs

theorem Spaced.mem {s t : List Char} (h : Spaced s t) {c : Char} (hc : c ∈ t) :
    c ∈ s ∨ Text.isBlank c = true := by
  induction h with
  | nil => cases hc
  | keep d h ih =>
    rcases List.mem_cons.1 hc with hd | hc
    · exact .inl (hd ▸ List.mem_cons_self)
    · exact (ih hc).imp_left (List.mem_cons_of_mem _)
  | blank hd h ih =>
    rcases List.mem_cons.1 hc with heq | hc
    · exact .inr (heq ▸ hd)
    · exact ih hc

/-- A character of an encoding may stand in a payload, and is no blank. -/
theorem mem_encode_plain {data : Bytes} {c : Char} (h : c ∈ Bytes.Base64.encode data) :
    isPayloadChar c = true ∧ Text.isBlank c = false := by
  have hsymbols : ∀ n < 64, isPayloadChar (Bytes.Base64.symbol n) = true ∧
      Text.isBlank (Bytes.Base64.symbol n) = false := by
    decide
  rcases Bytes.Base64.mem_encode h with hpadding | ⟨n, hn, hsymbol⟩
  · rw [hpadding]
    decide
  · rw [hsymbol]
    exact hsymbols n hn

/-- The payload is an encoding of the bytes, with blanks in between. -/
def Carries (payload : List Char) (data : Bytes) : Prop :=
  Spaced (Bytes.Base64.encode data) payload

theorem Carries.isPayloadChar {payload : List Char} {data : Bytes} (h : Carries payload data) :
    ∀ c ∈ payload, isPayloadChar c = true := by
  intro c hc
  rcases h.mem hc with hencoded | hblank
  · exact (mem_encode_plain hencoded).1
  · simp [DataUri.isPayloadChar, hblank]

theorem decode?_filter_eq_some_iff {payload : List Char} {data : Bytes} :
    Bytes.Base64.decode? (payload.filter fun c => !Text.isBlank c) = some data ↔
      Carries payload data := by
  rw [Bytes.Base64.decode?_eq_some_iff]
  exact filter_eq_iff_spaced fun c hc => (mem_encode_plain hc).2

/-! ## The form -/

/-- The text is `data:image/<subtype>;base64,<payload>`. -/
structure HasForm (uri : String) (subtype payload : List Char) : Prop where
  text : uri.toList = "data:image/".toList ++ subtype ++ ";base64,".toList ++ payload
  subtype_ne_nil : subtype ≠ []
  subtypeChars : ∀ c ∈ subtype, isSubtypeChar c = true
  payloadChars : ∀ c ∈ payload, isPayloadChar c = true

/-- **The form is unique**: the semicolon ends the subtype. -/
theorem split?_eq_some_iff {uri : String} {subtype payload : List Char} :
    split? uri.toList = some (subtype, payload) ↔ HasForm uri subtype payload := by
  simp only [split?, Option.bind_eq_bind, Option.bind_eq_some_iff, Text.afterPrefix?_eq_some,
    Option.ite_none_right_eq_some, Bool.and_eq_true, Option.some.injEq, Prod.mk.injEq]
  constructor
  · rintro ⟨s, htext, payload, hpayload, ⟨hne, hchars⟩, rfl, rfl⟩
    refine ⟨?_, by simpa using hne, fun c hc => List.mem_takeWhile_imp hc, by simpa using hchars⟩
    rw [← htext, List.append_assoc, List.append_assoc, hpayload, List.takeWhile_append_dropWhile]
  · rintro ⟨htext, hne, hsubtype, hpayload⟩
    have htake : (subtype ++ (";base64,".toList ++ payload)).takeWhile isSubtypeChar = subtype := by
      rw [List.takeWhile_append_of_pos hsubtype]
      simp [isSubtypeChar]
    have hdrop : (subtype ++ (";base64,".toList ++ payload)).dropWhile isSubtypeChar =
        ";base64,".toList ++ payload := by
      rw [List.dropWhile_append_of_pos hsubtype]
      simp [isSubtypeChar]
    refine ⟨subtype ++ (";base64,".toList ++ payload), by simp [htext], payload, hdrop.symm, ?_⟩
    rw [htake]
    exact ⟨⟨by simpa using hne, by simpa using hpayload⟩, rfl, rfl⟩

/-! ## Decoding -/

section Decode

variable {id uri : String} {subtype payload : List Char} {format : Format} {data : Bytes}

theorem decode_of_not_hasForm (h : ∀ subtype payload, ¬ HasForm uri subtype payload) :
    decode id uri = .error (.malformedDataUri id) := by
  have hsplit : split? uri.toList = none := by
    rw [Option.eq_none_iff_forall_ne_some]
    rintro ⟨subtype, payload⟩ hsplit
    exact h subtype payload (split?_eq_some_iff.1 hsplit)
  rw [decode, hsplit]

theorem decode_of_not_namedBy (h : HasForm uri subtype payload)
    (hsubtype : ∀ format : Format, ¬ format.NamedBy subtype) :
    decode id uri = .error (.unknownSubtype id (String.ofList subtype)) := by
  have hnone : Format.ofSubtype? (String.ofList subtype) = none := by
    rw [Option.eq_none_iff_forall_ne_some]
    intro format hformat
    exact hsubtype format (Format.ofSubtype?_eq_some_iff.1 hformat)
  simp only [decode, split?_eq_some_iff.2 h, hnone]

theorem decode_of_not_carries (h : HasForm uri subtype payload) (hsubtype : format.NamedBy subtype)
    (hpayload : ∀ data, ¬ Carries payload data) :
    decode id uri = .error (.undecodableDataUri id) := by
  have hnone : Bytes.Base64.decode? (payload.filter fun c => !Text.isBlank c) = none := by
    rw [Option.eq_none_iff_forall_ne_some]
    intro data hdata
    exact hpayload data (decode?_filter_eq_some_iff.1 hdata)
  simp only [decode, split?_eq_some_iff.2 h, Format.ofSubtype?_eq_some_iff.2 hsubtype, hnone]

theorem decode_of_carries (h : HasForm uri subtype payload) (hsubtype : format.NamedBy subtype)
    (hpayload : Carries payload data) :
    decode id uri = if data = [] then .error (.emptyDataUri id) else .ok (format, data) := by
  simp only [decode, split?_eq_some_iff.2 h, Format.ofSubtype?_eq_some_iff.2 hsubtype,
    decode?_filter_eq_some_iff.2 hpayload]
  cases data <;> rfl

end Decode

end DataUri

end Image

namespace Asset

open Image (Format)
open Image.DataUri (HasForm Carries)

/-- The text is `data:image/<subtype>;base64,<payload>` with a subtype that names the format, and a
payload that carries the bytes, of which there is at least one. -/
def HoldsImage (uri : String) (format : Format) (data : Bytes) : Prop :=
  ∃ subtype payload : List Char,
    uri.toList = "data:image/".toList ++ subtype ++ ";base64,".toList ++ payload ∧
      format.NamedBy subtype ∧ Carries payload data ∧ data ≠ []

/-- The data URI is refused with a fault, which is reported under a code. -/
def Refused (id uri : String) (fault : Fault) (code : Report.Code) : Prop :=
  resolveDataUri id uri = .error fault ∧ fault.report.code = code

/-- What becomes of a data URI, for an image with an id. -/
structure DataUriRules (id uri : String) : Prop where
  accepted {image : LoadedImage} : resolveDataUri id uri = .ok image ↔
    ∃ format data, HoldsImage uri format data ∧ image = .of id format data
  malformed (hform : ∀ subtype payload, ¬ HasForm uri subtype payload) :
    Refused id uri (.malformedDataUri id) .invalidBase64Image
  unsupported {subtype payload : List Char} (hform : HasForm uri subtype payload)
    (hsubtype : ∀ format : Format, ¬ format.NamedBy subtype) :
    Refused id uri (.unknownSubtype id (String.ofList subtype)) .unknownImageFormat
  undecodable {subtype payload : List Char} {format : Format} (hform : HasForm uri subtype payload)
    (hsubtype : format.NamedBy subtype) (hpayload : ∀ data, ¬ Carries payload data) :
    Refused id uri (.undecodableDataUri id) .invalidBase64Image
  empty {subtype payload : List Char} {format : Format} (hform : HasForm uri subtype payload)
    (hsubtype : format.NamedBy subtype) (hpayload : Carries payload []) :
    Refused id uri (.emptyDataUri id) .invalidBase64Image

/-- What holds an image has the form. -/
theorem HoldsImage.hasForm {uri : String} {format : Format} {data : Bytes}
    (h : HoldsImage uri format data) : ∃ subtype payload, HasForm uri subtype payload ∧
      format.NamedBy subtype ∧ Carries payload data ∧ data ≠ [] := by
  obtain ⟨subtype, payload, htext, hsubtype, hpayload, hne⟩ := h
  have hform : HasForm uri subtype payload :=
    ⟨htext, Image.DataUri.ne_nil_of_namedBy hsubtype,
      Image.DataUri.isSubtypeChar_of_namedBy hsubtype, hpayload.isPayloadChar⟩
  exact ⟨subtype, payload, hform, hsubtype, hpayload, hne⟩

theorem holdsImage_of_decode {id uri : String} {format : Format} {data : Bytes}
    (h : Image.DataUri.decode id uri = .ok (format, data)) : HoldsImage uri format data := by
  by_cases hform : ∃ subtype payload, HasForm uri subtype payload
  · obtain ⟨subtype, payload, hform⟩ := hform
    by_cases hsubtype : ∃ format : Format, format.NamedBy subtype
    · obtain ⟨format', hsubtype⟩ := hsubtype
      by_cases hpayload : ∃ data, Carries payload data
      · obtain ⟨data', hpayload⟩ := hpayload
        rw [Image.DataUri.decode_of_carries hform hsubtype hpayload] at h
        split_ifs at h with hne
        cases h
        exact ⟨subtype, payload, hform.text, hsubtype, hpayload, hne⟩
      · rw [Image.DataUri.decode_of_not_carries hform hsubtype (not_exists.1 hpayload)] at h
        cases h
    · rw [Image.DataUri.decode_of_not_namedBy hform (not_exists.1 hsubtype)] at h
      cases h
  · simp only [not_exists] at hform
    rw [Image.DataUri.decode_of_not_hasForm hform] at h
    cases h

/-- **A data URI has an image, or breaks one of three rules.** -/
theorem resolveDataUri_rules (id uri : String) : DataUriRules id uri := by
  constructor
  case accepted =>
    intro image
    rw [resolveDataUri, map_eq_ok]
    constructor
    · rintro ⟨⟨format, data⟩, hdecode, rfl⟩
      exact ⟨format, data, holdsImage_of_decode hdecode, rfl⟩
    · rintro ⟨format, data, h, rfl⟩
      obtain ⟨subtype, payload, hform, hsubtype, hpayload, hne⟩ := h.hasForm
      have hdecode : Image.DataUri.decode id uri = .ok (format, data) := by
        rw [Image.DataUri.decode_of_carries hform hsubtype hpayload, if_neg hne]
      exact ⟨(format, data), hdecode, rfl⟩
  case malformed =>
    intro hform
    refine ⟨?_, rfl⟩
    rw [resolveDataUri, Image.DataUri.decode_of_not_hasForm hform]
    rfl
  case unsupported =>
    intro subtype payload hform hsubtype
    refine ⟨?_, rfl⟩
    rw [resolveDataUri, Image.DataUri.decode_of_not_namedBy hform hsubtype]
    rfl
  case undecodable =>
    intro subtype payload format hform hsubtype hpayload
    refine ⟨?_, rfl⟩
    rw [resolveDataUri, Image.DataUri.decode_of_not_carries hform hsubtype hpayload]
    rfl
  case empty =>
    intro subtype payload format hform hsubtype hpayload
    refine ⟨?_, rfl⟩
    rw [resolveDataUri, Image.DataUri.decode_of_carries hform hsubtype hpayload]
    rfl

/-- The name of a format in capitals and blanks within the symbols change nothing; a format that is
not known is refused, whatever the payload, and so is a payload of blanks. -/
theorem gif_rules :
    resolveDataUri "dot" "data:image/GIF;base64, R0 lGO\nA==" =
      .ok (.of "dot" .gif [0x47, 0x49, 0x46, 0x38]) ∧
    Refused "dot" "data:image/tiff;base64,=A=" (.unknownSubtype "dot" "tiff") .unknownImageFormat ∧
    Refused "dot" "data:image/png;base64, \n" (.emptyDataUri "dot") .invalidBase64Image := by
  have hgif : HoldsImage "data:image/GIF;base64, R0 lGO\nA==" .gif [0x47, 0x49, 0x46, 0x38] :=
    ⟨"GIF".toList, " R0 lGO\nA==".toList, rfl, ⟨"gif", by decide, by decide⟩,
      Image.DataUri.decode?_filter_eq_some_iff.1 (by decide), by decide⟩
  have htiff : HasForm "data:image/tiff;base64,=A=" "tiff".toList "=A=".toList :=
    Image.DataUri.split?_eq_some_iff.1 (by decide)
  have hblank : HasForm "data:image/png;base64, \n" "png".toList " \n".toList :=
    Image.DataUri.split?_eq_some_iff.1 (by decide)
  have htiffUnnamed : ∀ format : Format, ¬ format.NamedBy "tiff".toList := by
    intro format hnamed
    have hnone : Format.ofSubtype? (String.ofList "tiff".toList) = none := by decide
    rw [Format.ofSubtype?_eq_some_iff.2 hnamed] at hnone
    cases hnone
  have hpng : Format.png.NamedBy "png".toList := ⟨"png", by decide, by decide⟩
  have hnothing : Carries " \n".toList [] :=
    Image.DataUri.decode?_filter_eq_some_iff.1 (by decide)
  exact ⟨(resolveDataUri_rules _ _).accepted.2 ⟨_, _, hgif, rfl⟩,
    (resolveDataUri_rules _ _).unsupported htiff htiffUnnamed,
    (resolveDataUri_rules _ _).empty hblank hpng hnothing⟩

end Asset

end Galley
