import Galley.Proofs.Decimal.ReadBack
import Galley.Proofs.Except
import Galley.Proofs.Page.Geometry
import Galley.Proofs.Text.Cut
import Galley.Proofs.Text.Words

/-!
# Margins in shorthand

**Theorem (`shorthand_rules`).** A text is accepted just if it has one to four words and each of
them denotes a finite number; the report of any other text quotes its first bad word, if it has
one. Edges that are written out, in whatever layout and with whatever blanks, are read back, and
the three forms of a margin with one finite number agree.

The edges are the numbers of four words, clockwise from the top, that the words of the text expand to
(`parse_eq_ok_iff`): words may be expanded before they are read, and numbers after it.
-/

namespace Galley.Page

/-! ## Words with a number -/

/-- The word is the numeral of a finite double, less the unit `pt` if it ends in it. -/
inductive Denotes : List Char → Float → Prop
  | bare {numeral : List Char} {x : Float} (hread : Decimal.read? numeral = some x)
      (hx : Decimal.isFinite x = true) (hunit : ¬ "pt".toList <:+ numeral) : Denotes numeral x
  | withUnit {numeral : List Char} {x : Float} (hread : Decimal.read? numeral = some x)
      (hx : Decimal.isFinite x = true) : Denotes (numeral ++ "pt".toList) x

theorem points?_eq_some_iff {token : List Char} {x : Float} :
    Edges.points? token = some x ↔ Denotes token x := by
  rw [Edges.points?, Option.filter_eq_some_iff]
  constructor
  · intro h
    obtain ⟨hread, hx⟩ := h
    cases hcut : Text.beforeSuffix? "pt" token with
    | none =>
      rw [hcut, Option.getD_none] at hread
      exact .bare hread hx (Text.beforeSuffix?_eq_none.1 hcut)
    | some numeral =>
      rw [hcut, Option.getD_some] at hread
      rw [← Text.beforeSuffix?_eq_some.1 hcut]
      exact .withUnit hread hx
  · intro h
    cases h with
    | bare hread hx hunit =>
      rw [Text.beforeSuffix?_eq_none.2 hunit, Option.getD_none]
      exact ⟨hread, hx⟩
    | withUnit hread hx =>
      rw [Text.beforeSuffix?_eq_some.2 rfl, Option.getD_some]
      exact ⟨hread, hx⟩

/-- A word denotes one number at most. -/
theorem denotes_rightUnique : Relator.RightUnique Denotes := by
  intro token x y hx hy
  rw [← points?_eq_some_iff] at hx hy
  exact Option.some.inj (hx.symm.trans hy)

/-- Each of the words denotes a number. -/
def AllDenote (tokens : List (List Char)) : Prop := ∀ token ∈ tokens, ∃ x, Denotes token x

theorem allDenote_iff {tokens : List (List Char)} :
    AllDenote tokens ↔ ∃ xs, List.Forall₂ Denotes tokens xs := by
  constructor
  · intro h
    induction tokens with
    | nil => exact ⟨[], .nil⟩
    | cons token tokens ih =>
      obtain ⟨x, hx⟩ := h token List.mem_cons_self
      obtain ⟨xs, hxs⟩ := ih fun t ht => h t (List.mem_cons_of_mem _ ht)
      exact ⟨x :: xs, .cons hx hxs⟩
  · intro h token htoken
    obtain ⟨xs, hxs⟩ := h
    induction hxs with
    | nil => cases htoken
    | cons hx _ ih =>
      rcases List.mem_cons.1 htoken with rfl | htoken
      · exact ⟨_, hx⟩
      · exact ih htoken

/-- The word is the first one that denotes no number. -/
def IsFirstBad (tokens : List (List Char)) (token : List Char) : Prop :=
  ∃ before after, tokens = before ++ token :: after ∧ AllDenote before ∧ ∀ x, ¬ Denotes token x

/-! ## Expansion -/

section Expand

variable {α β : Type}

/-- Four entries in place of one to three: one for all edges; one for the vertical and one for the
horizontal ones; or one for the top, one for the horizontal ones and one for the bottom. -/
def expand : List α → List α
  | [a] => [a, a, a, a]
  | [v, h] => [v, h, v, h]
  | [t, h, b] => [t, h, b, h]
  | entries => entries

theorem mem_expand {a : α} : ∀ entries : List α, a ∈ expand entries ↔ a ∈ entries
  | [] | [_] | [_, _] | [_, _, _] | _ :: _ :: _ :: _ :: _ => by simp [expand] <;> tauto

@[simp] theorem expand_expand : ∀ entries : List α, expand (expand entries) = expand entries
  | [] | [_] | [_, _] | [_, _, _] | _ :: _ :: _ :: _ :: _ => rfl

theorem length_expand : ∀ entries : List α,
    (expand entries).length = 4 ↔ 1 ≤ entries.length ∧ entries.length ≤ 4
  | [] | [_] | [_, _] | [_, _, _] => by simp [expand]
  | _ :: _ :: _ :: _ :: entries => by cases entries <;> simp [expand]

theorem forall₂_expand {R : α → β → Prop} {as : List α} {bs : List β} (h : List.Forall₂ R as bs) :
    List.Forall₂ R (expand as) (expand bs) := by
  rcases h with _ | ⟨h₁, _ | ⟨h₂, _ | ⟨h₃, _ | ⟨h₄, h⟩⟩⟩⟩ <;> simp_all [expand]

theorem allDenote_expand {tokens : List (List Char)} :
    AllDenote (expand tokens) ↔ AllDenote tokens := by
  simp only [AllDenote, mem_expand]

end Expand

namespace Edges

variable {s : String} {e : Edges}

/-- The numbers of the edges, clockwise from the top. -/
def clockwise (e : Edges) : List Float := [e.top, e.right, e.bottom, e.left]

/-- The edges that numbers stand for have the expanded numbers. -/
theorem ofShorthand?_eq_some_iff : ∀ {xs : List Float},
    ofShorthand? xs = some e ↔ expand xs = e.clockwise
  | [] | [_] | [_, _] | [_, _, _] => by
    cases e
    simp [ofShorthand?, expand, clockwise, uniform]
  | _ :: _ :: _ :: _ :: xs => by
    cases e
    cases xs <;> simp [ofShorthand?, expand, clockwise]

/-! ## Reading -/

section Numbers

variable {input : String} {tokens : List (List Char)}

/-- The numbers are read in order. -/
theorem numbers_eq_ok_iff {xs : List Float} :
    numbers input tokens = .ok xs ↔ List.Forall₂ Denotes tokens xs := by
  induction tokens generalizing xs with
  | nil => cases xs <;> simp [numbers]
  | cons token tokens ih =>
    unfold numbers
    cases xs with
    | nil => cases points? token <;> simp [map_eq_ok]
    | cons y ys =>
      rw [List.forall₂_cons, ← points?_eq_some_iff]
      cases points? token <;> simp [map_eq_ok, ih, and_comm]

/-- **The first bad word is the one that is reported.** -/
theorem isFirstBad_of_numbers {fault : Fault} (h : numbers input tokens = .error fault) :
    ∃ token, IsFirstBad tokens token ∧ fault = .badMargin input (String.ofList token) := by
  induction tokens with
  | nil => cases h
  | cons first tokens ih =>
    unfold numbers at h
    cases hpoints : points? first with
    | none =>
      rw [hpoints] at h
      cases h
      refine ⟨first, ⟨[], tokens, rfl, fun _ ht => absurd ht List.not_mem_nil, ?_⟩, rfl⟩
      intro x hx
      rw [points?_eq_some_iff.2 hx] at hpoints
      cases hpoints
    | some x =>
      rw [hpoints] at h
      cases hrest : numbers input tokens with
      | ok xs =>
        rw [hrest] at h
        cases h
      | error fault' =>
        rw [hrest] at h
        cases h
        obtain ⟨token, ⟨before, after, hsplit, hbefore, hbad⟩, hfault⟩ := ih hrest
        refine ⟨token, ⟨first :: before, after, by rw [hsplit]; rfl, ?_, hbad⟩, hfault⟩
        intro t ht
        rcases List.mem_cons.1 ht with rfl | ht
        · exact ⟨x, points?_eq_some_iff.1 hpoints⟩
        · exact hbefore t ht

end Numbers

/-- **The edges of a text are the numbers of its expanded words.** -/
theorem parse_eq_ok_iff :
    parse s = .ok e ↔ List.Forall₂ Denotes (expand (Text.words s.toList)) e.clockwise := by
  have hparse : parse s = .ok e ↔
      ∃ xs, List.Forall₂ Denotes (Text.words s.toList) xs ∧ expand xs = e.clockwise := by
    rw [parse, bind_eq_ok]
    simp only [numbers_eq_ok_iff, ← ofShorthand?_eq_some_iff]
    apply exists_congr
    intro xs
    cases ofShorthand? xs <;> simp
  rw [hparse]
  constructor
  · intro h
    obtain ⟨xs, hxs, hexpand⟩ := h
    exact hexpand ▸ forall₂_expand hxs
  · intro h
    obtain ⟨xs, hxs⟩ := allDenote_iff.1 (allDenote_expand.1 (allDenote_iff.2 ⟨_, h⟩))
    exact ⟨xs, hxs, List.right_unique_forall₂' denotes_rightUnique (forall₂_expand hxs) h⟩

/-- **A text is accepted just if it has one to four words, all with a number.** -/
theorem exists_parse_iff : (∃ e, parse s = .ok e) ↔
    1 ≤ (Text.words s.toList).length ∧ (Text.words s.toList).length ≤ 4 ∧
      AllDenote (Text.words s.toList) := by
  rw [← and_assoc, ← length_expand, ← allDenote_expand]
  simp only [parse_eq_ok_iff]
  constructor
  · intro h
    obtain ⟨e, he⟩ := h
    exact ⟨he.length_eq, allDenote_iff.2 ⟨_, he⟩⟩
  · intro h
    obtain ⟨hlength, hall⟩ := h
    obtain ⟨xs, hxs⟩ := allDenote_iff.1 hall
    rw [hxs.length_eq, List.length_eq_four] at hlength
    obtain ⟨top, right, bottom, left, rfl⟩ := hlength
    exact ⟨⟨top, right, bottom, left⟩, hxs⟩

/-- What a text that is not accepted is reported for. -/
theorem parse_error {fault : Fault} (h : parse s = .error fault) :
    (∃ token, IsFirstBad (Text.words s.toList) token ∧
      fault = .badMargin s (String.ofList token)) ∨
    AllDenote (Text.words s.toList) ∧ fault = .marginCount s := by
  rw [parse, bind_eq_error] at h
  rcases h with hnumbers | ⟨xs, hnumbers, hcount⟩
  · exact .inl (isFirstBad_of_numbers hnumbers)
  · right
    refine ⟨allDenote_iff.2 ⟨xs, numbers_eq_ok_iff.1 hnumbers⟩, ?_⟩
    split at hcount
    · cases hcount
    · cases hcount
      rfl

end Edges

/-! ## Numbers that are written -/

/-- The word is the text of a double in some layout, with or without its unit. -/
inductive Writes (x : Float) : List Char → Prop
  | bare (l : Decimal.Layout) : Writes x (l.render x)
  | withUnit (l : Decimal.Layout) : Writes x (l.render x ++ "pt".toList)

section Writes

variable {x : Float} {token : List Char}

/-- **A finite number that is written is denoted.** -/
theorem Writes.denotes (h : Writes x token) (hx : Decimal.isFinite x = true) : Denotes token x := by
  cases h with
  | bare l =>
    apply Denotes.bare (Decimal.read?_render l hx) hx
    intro hsuffix
    have hunit := (Decimal.numeralChars_render l hx).sublist hsuffix.sublist
    exact absurd hunit (by decide)
  | withUnit l => exact .withUnit (Decimal.read?_render l hx) hx

theorem Denotes.ne_nil (h : Denotes token x) : token ≠ [] := by
  cases h with
  | bare hread =>
    rintro rfl
    cases hread
  | withUnit => simp

theorem not_isBlank_of_isNumeralChar {c : Char} (h : Decimal.isNumeralChar c = true) :
    Text.isBlank c = false := by
  rw [Decimal.isNumeralChar, Bool.or_eq_true] at h
  rcases h with hdigit | hsign
  · have hlow : 48 ≤ c.toNat := Char.isDigit_iff_toNat.1 hdigit |>.1
    have hhigh : c.toNat ≤ 57 := Char.isDigit_iff_toNat.1 hdigit |>.2
    simp [Text.isBlank]
    omega
  · simp only [List.contains_cons, List.contains_nil, Bool.or_false, Bool.or_eq_true, beq_iff_eq]
      at hsign
    rcases hsign with rfl | rfl | rfl | rfl <;> rfl

/-- A finite number that is written is one word. -/
theorem Writes.words_eq (h : Writes x token) (hx : Decimal.isFinite x = true) :
    Text.words token = [token] := by
  have hrender : ∀ l : Decimal.Layout, ∀ c ∈ l.render x, Text.isBlank c = false := fun l c hc =>
    not_isBlank_of_isNumeralChar (List.all_eq_true.1 (Decimal.numeralChars_render l hx) c hc)
  have hblank : ∀ c ∈ token, Text.isBlank c = false := by
    intro c hc
    cases h with
    | bare l => exact hrender l c hc
    | withUnit l =>
      rcases List.mem_append.1 hc with hc | hc
      · exact hrender l c hc
      · have hunit : ("pt".toList.all fun c => !Text.isBlank c) = true := by decide
        simpa using List.all_eq_true.1 hunit c hc
  rw [Text.words_of_forall hblank, if_neg (h.denotes hx).ne_nil]

end Writes

/-- Blanks, or nothing. -/
def IsGap (gap : List Char) : Prop := ∀ c ∈ gap, Text.isBlank c = true

/-- The text is the numbers of the edges, clockwise from the top, with blanks between them, and
maybe before and behind them. -/
inductive Edges.Written (e : Edges) : List Char → Prop
  | intro {top right bottom left before g₁ g₂ g₃ after : List Char} (htop : Writes e.top top)
      (hright : Writes e.right right) (hbottom : Writes e.bottom bottom)
      (hleft : Writes e.left left) (hbefore : IsGap before) (hafter : IsGap after)
      (h₁ : IsGap g₁ ∧ g₁ ≠ []) (h₂ : IsGap g₂ ∧ g₂ ≠ []) (h₃ : IsGap g₃ ∧ g₃ ≠ []) :
      Written e (before ++ (top ++ g₁ ++ (right ++ g₂ ++ (bottom ++ g₃ ++ (left ++ after)))))

/-- **Edges that are written out are read back.** -/
theorem Edges.Written.parse_eq {e : Edges} {text : String} (h : e.Written text.toList)
    (he : e.Finite) : parse text = .ok e := by
  rw [parse_eq_ok_iff]
  generalize text.toList = written at h
  cases h with
  | intro htop hright hbottom hleft hbefore hafter h₁ h₂ h₃ =>
    rw [Text.words_blank_append hbefore, Text.words_append h₁.2 h₁.1, Text.words_append h₂.2 h₂.1,
      Text.words_append h₃.2 h₃.1, Text.words_append_blanks hafter, htop.words_eq he.top,
      hright.words_eq he.right, hbottom.words_eq he.bottom, hleft.words_eq he.left]
    exact .cons (htop.denotes he.top) (.cons (hright.denotes he.right)
      (.cons (hbottom.denotes he.bottom) (.cons (hleft.denotes he.left) .nil)))

/-! ## Rules -/

namespace Edges

/-- The text with four words in place of one to three. -/
def expansion (s : String) : String :=
  String.ofList (Text.joinWith [' '] (expand (Text.words s.toList)))

theorem words_expansion (s : String) :
    Text.words (expansion s).toList = expand (Text.words s.toList) := by
  rw [expansion, String.toList_ofList]
  apply Text.words_joinWith
  intro w hw
  have hmem := (mem_expand _).1 hw
  exact ⟨Text.ne_nil_of_mem_words hmem, fun c hc => (Text.mem_of_mem_words hmem hc).2⟩

/-- The rules of a shorthand text. -/
structure ShorthandRules (s : String) : Prop where
  /-- It is accepted just if it has one to four words, each of which denotes a number. -/
  accepted : (∃ e, parse s = .ok e) ↔
    1 ≤ (Text.words s.toList).length ∧ (Text.words s.toList).length ≤ 4 ∧
      AllDenote (Text.words s.toList)
  /-- The edges are the numbers of the expanded words. -/
  edges : ∀ e, parse s = .ok e ↔ List.Forall₂ Denotes (expand (Text.words s.toList)) e.clockwise
  /-- All edges are finite. -/
  finite : ∀ e, parse s = .ok e → e.Finite
  /-- The text with four words has the same edges. -/
  expanded : ∀ e, parse (expansion s) = .ok e ↔ parse s = .ok e
  /-- Any other text is reported as it is, with its first bad word if it has one. -/
  rejected : ∀ fault, parse s = .error fault →
    fault.report.code = .invalidDocument ∧
      fault.report.context.get? "margin" = some (.text s) ∧
      ((∃ token, IsFirstBad (Text.words s.toList) token ∧
          fault.report.message = "invalid margin value " ++ Text.quoted (String.ofList token) ++
            " in " ++ Text.quoted s) ∨
        AllDenote (Text.words s.toList) ∧
          fault.report.message =
            "margin shorthand must have 1 to 4 values, got " ++ Text.quoted s)
  /-- The edges are read back from any text that they are written to. -/
  writtenBack : ∀ e, parse s = .ok e → ∀ text : String, e.Written text.toList → parse text = .ok e

theorem parse_expansion (s : String) (e : Edges) :
    parse (expansion s) = .ok e ↔ parse s = .ok e := by
  rw [parse_eq_ok_iff, parse_eq_ok_iff, words_expansion, expand_expand]

end Edges

/-- The forms of a margin with one number on all edges agree. -/
structure Margin.FormsAgree (x : Float) : Prop where
  number : (uniform x).resolve = .ok (.uniform x)
  text : ∀ {before token after : List Char}, IsGap before → Writes x token → IsGap after →
    (shorthand (String.ofList (before ++ (token ++ after)))).resolve = .ok (.uniform x)
  edges : (edges (some x) (some x) (some x) (some x)).resolve = .ok (.uniform x)

theorem Margin.formsAgree {x : Float} (hx : Decimal.isFinite x = true) : FormsAgree x where
  number := rfl
  text := by
    intro before token after hbefore htoken hafter
    rw [resolve, Edges.parse_eq_ok_iff, String.toList_ofList, Text.words_blank_append hbefore,
      Text.words_append_blanks hafter, htoken.words_eq hx]
    have hdenotes := htoken.denotes hx
    exact .cons hdenotes (.cons hdenotes (.cons hdenotes (.cons hdenotes .nil)))
  edges := rfl

/-- **Shorthand texts have their rules**, and the forms of a margin with one number agree. -/
theorem shorthand_rules : (∀ s, Edges.ShorthandRules s) ∧
    ∀ x, Decimal.isFinite x = true → Margin.FormsAgree x := by
  constructor
  · intro s
    refine ⟨Edges.exists_parse_iff, fun e => Edges.parse_eq_ok_iff, fun e => Edges.parse_finite,
      Edges.parse_expansion s, ?_, fun e he text htext => htext.parse_eq (Edges.parse_finite he)⟩
    intro fault hfault
    rcases Edges.parse_error hfault with ⟨token, hbad, rfl⟩ | ⟨hall, rfl⟩
    · exact ⟨rfl, rfl, .inl ⟨token, hbad, rfl⟩⟩
    · exact ⟨rfl, rfl, .inr ⟨hall, rfl⟩⟩
  · intro x hx
    exact Margin.formsAgree hx

/-- Two words are read for four edges, and read back when they are written out; a bad word among
too many is reported; and the margin of one number is that of its text. -/
theorem twoWords_rules :
    Edges.parse " 12pt\t-0" = .ok ⟨12.0, -0.0, 12.0, -0.0⟩ ∧
    Edges.parse "12 -0pt\n12pt  -0 " = .ok ⟨12.0, -0.0, 12.0, -0.0⟩ ∧
    (∃ fault, Edges.parse "1 wide 2pt 3 ?" = .error fault ∧
      fault.report.context.get? "margin" = some (.text "1 wide 2pt 3 ?")) ∧
    (Margin.shorthand "12pt ").resolve = (Margin.uniform 12.0).resolve := by
  have hfinite : Decimal.isFinite 12.0 = true := by decide
  have hrender : Decimal.Layout.plain.render 12.0 = "12".toList := by decide
  have hrenderZero : Decimal.Layout.plain.render (-0.0) = "-0".toList := by decide
  have htwelve : Writes 12.0 "12".toList := hrender ▸ .bare _
  have htwelvePt : Writes 12.0 ("12".toList ++ "pt".toList) := hrender ▸ .withUnit _
  have hzero : Writes (-0.0) "-0".toList := hrenderZero ▸ .bare _
  have hzeroPt : Writes (-0.0) ("-0".toList ++ "pt".toList) := hrenderZero ▸ .withUnit _
  have hgap : ∀ gap ∈ [[], [' '], ['\n'], [' ', ' ']], IsGap gap := by simp [IsGap, Text.isBlank]
  have hparse : Edges.parse " 12pt\t-0" = .ok ⟨12.0, -0.0, 12.0, -0.0⟩ := by
    have hfirst := htwelvePt.denotes hfinite
    have hsecond := hzero.denotes (by decide)
    apply ((shorthand_rules.1 " 12pt\t-0").edges _).2
    exact .cons hfirst (.cons hsecond (.cons hfirst (.cons hsecond .nil)))
  refine ⟨hparse, ?_, ?_, ?_⟩
  · apply (shorthand_rules.1 " 12pt\t-0").writtenBack _ hparse
    exact @Edges.Written.intro ⟨12.0, -0.0, 12.0, -0.0⟩ _ _ _ _ _ _ _ _ _ htwelve hzeroPt
      htwelvePt hzero (hgap [] (by simp)) (hgap [' '] (by simp)) ⟨hgap [' '] (by simp), by simp⟩
      ⟨hgap ['\n'] (by simp), by simp⟩ ⟨hgap [' ', ' '] (by simp), by simp⟩
  · have hbad : Edges.parse "1 wide 2pt 3 ?" = .error (.badMargin "1 wide 2pt 3 ?" "wide") := rfl
    exact ⟨_, hbad, ((shorthand_rules.1 "1 wide 2pt 3 ?").rejected _ hbad).2.1⟩
  · have hforms := shorthand_rules.2 12.0 hfinite
    rw [hforms.number]
    exact hforms.text (hgap [] (by simp)) htwelvePt (hgap [' '] (by simp))

end Galley.Page
