import Galley.Proofs.Style.ClassString
import Galley.Proofs.Text.Cut

/-!
# One entry for a token

Keywords and stems are entries of two tables, and a token goes to the first entry that accepts it.
A stem whose rule cannot read the rest of the token passes it on, so that a token may meet many
stems that it begins with. Yet there is never a choice.

**Theorem (`ofClasses_anyOrder`).** At most one entry accepts a token. Therefore a class string has
the same style in whatever order the entries are tried.

Of two stems that a token begins with, the longer goes on where the shorter ends. There it has a
letter of an axis, with which no value begins that the rule of the shorter reads (`stems_apart`,
`Rule.mayBegin_of_declarations?`). The keywords are tried with every stem (`keywords_apart`).
-/

namespace Galley.Style

/-! ## Entries -/

/-- A keyword with its declarations, or a stem with its rule. -/
abbrev Entry := (String × List Declaration) ⊕ (String × Rule)

/-- The declarations of a token under an entry, if the entry accepts it. -/
def Entry.declarations? (token : List Char) : Entry → Option (List Declaration)
  | .inl (name, ds) => if name.toList = token then some ds else none
  | .inr stem => stemDeclarations? token stem

/-- Does the entry accept the token? -/
def Entry.accepts (token : List Char) (e : Entry) : Bool := (e.declarations? token).isSome

/-- The keywords, and then the stems. -/
def allEntries : List Entry := keywords.map .inl ++ stems.map .inr

/-- The declarations of a token when entries are tried in an order. -/
def declarationsIn (order : List Entry) (token : List Char) : List Declaration :=
  (order.findSome? (Entry.declarations? token)).getD []

/-- The style of a class string when entries are tried in an order. -/
def ofClassesIn (order : List Entry) (classes : String) : Style :=
  (Text.words classes.toList).foldl (fun style token =>
    style.insertAll (declarationsIn order token)) .empty

theorem findSome?_inl (table : List (String × List Declaration)) (token : List Char) :
    (table.map Sum.inl).findSome? (Entry.declarations? token) = named? table token := by
  induction table with
  | nil => rfl
  | cons e table ih =>
    rw [List.map_cons, List.findSome?_cons, ih, named?, named?, List.find?_cons]
    by_cases hname : e.1.toList = token
    · simp [Entry.declarations?, hname]
    · have hne : (e.1.toList == token) = false := by simpa using hname
      simp [Entry.declarations?, hname, hne]

theorem declarationsIn_allEntries (token : List Char) :
    declarationsIn allEntries token = declarations token := by
  have hstems : (stems.map Sum.inr).findSome? (Entry.declarations? token) =
      stems.findSome? (stemDeclarations? token) :=
    List.findSome?_map ..
  rw [declarationsIn, allEntries, List.findSome?_append, findSome?_inl, hstems, declarations]
  cases named? keywords token <;> rfl

/-! ## What values begin with -/

/-- A length may begin with the character: a number, the name of one, a bracket, or one of `px`,
`full` and `auto`. -/
def beginsLength (c : Char) : Bool :=
  c.isDigit || "+-.[paf".toList.contains c || "in".toList.contains c.toLower

/-- A value of the rule may begin with the character. -/
def Rule.mayBegin (c : Char) : Rule → Bool
  | .spacing _ | .margin _ | .offset _ | .extent _ => beginsLength c
  | _ => true

section

variable {c : Char} {s : List Char}

theorem beginsLength_of_isDigit (h : c.isDigit = true) : beginsLength c = true := by
  simp [beginsLength, h]

theorem beginsLength_of_magnitude? {bits : Nat} (h : Decimal.magnitude? (c :: s) = some bits) :
    beginsLength c = true := by
  by_cases hdigit : c.isDigit = true
  · exact beginsLength_of_isDigit hdigit
  rcases eq_or_ne c '.' with rfl | hpoint
  · rfl
  · have hnone : Decimal.takeMantissa (c :: s) = ([], [], c :: s) := by
      simp [Decimal.takeMantissa, Decimal.takeDigits, hdigit, hpoint]
    simp [Decimal.magnitude?, hnone] at h

theorem beginsLength_of_named? {bits : Nat} (h : Decimal.named? (c :: s) = some bits) :
    beginsLength c = true := by
  have hhead : ∀ {n : Char} {name : List Char}, Text.lowerAscii (c :: s) = n :: name →
      "in".toList.contains n = true → beginsLength c = true := by
    rintro n name hname hn
    obtain rfl : c.toLower = n := (List.cons.inj hname).1
    rw [beginsLength, hn, Bool.or_true]
  unfold Decimal.named? at h
  dsimp only at h
  split_ifs at h with hinf hnan
  · rcases hinf with hinf | hinf
    · exact hhead hinf rfl
    · exact hhead hinf rfl
  · exact hhead hnan rfl

theorem beginsLength_of_read? {x : Float} (h : Decimal.read? (c :: s) = some x) :
    beginsLength c = true := by
  rcases eq_or_ne c '+' with rfl | hplus
  · rfl
  rcases eq_or_ne c '-' with rfl | hminus
  · rfl
  have hsign : Decimal.takeSign (c :: s) = (false, c :: s) := by
    simp [Decimal.takeSign, hplus, hminus]
  simp only [Decimal.read?, hsign] at h
  obtain ⟨bits, hbits, -⟩ := Option.map_eq_some_iff.1 h
  rcases Option.or_eq_some_iff.1 hbits with hnamed | ⟨-, hmagnitude⟩
  · exact beginsLength_of_named? hnamed
  · exact beginsLength_of_magnitude? hmagnitude

theorem beginsLength_of_readNat? {bound n : Nat} (h : Decimal.readNat? bound (c :: s) = some n) :
    beginsLength c = true := by
  rcases eq_or_ne c '+' with rfl | hplus
  · rfl
  by_cases hdigit : c.isDigit = true
  · exact beginsLength_of_isDigit hdigit
  · simp [Decimal.readNat?, hplus, hdigit] at h

theorem beginsLength_of_bracketed? {inner : List Char}
    (h : Text.bracketed? (c :: s) = some inner) : beginsLength c = true := by
  obtain rfl : '[' = c := (List.cons.inj (Text.bracketed?_eq_some.1 h)).1
  rfl

theorem beginsLength_of_spacing? {x : Float} (h : spacing? (c :: s) = some x) :
    beginsLength c = true := by
  unfold spacing? at h
  split at h
  · rename_i hpixel
    obtain rfl : c = 'p' := (List.cons.inj hpixel).1
    rfl
  rcases Option.or_eq_some_iff.1 h with h | ⟨-, h⟩
  · obtain ⟨inner, hinner, -⟩ := Option.bind_eq_some_iff.1 h
    exact beginsLength_of_bracketed? hinner
  · obtain ⟨y, hread, -⟩ := Option.bind_eq_some_iff.1 h
    exact beginsLength_of_read? hread

theorem beginsLength_of_fraction? {v : Value} (h : fraction? (c :: s) = some v) :
    beginsLength c = true := by
  unfold fraction? at h
  simp only [Option.bind_eq_bind, Option.bind_eq_some_iff] at h
  obtain ⟨⟨front, back⟩, hcut, num, hnum, -⟩ := h
  cases front with
  | nil => cases hnum
  | cons d front =>
    obtain rfl : c = d := (List.cons.inj (Text.eq_of_cutFirst? hcut)).1
    exact beginsLength_of_readNat? hnum

theorem beginsLength_of_length? {negative : Bool} {v : Value}
    (h : length? negative (c :: s) = some v) : beginsLength c = true := by
  rcases Option.or_eq_some_iff.1 h with h | ⟨-, h⟩
  · obtain ⟨-, h⟩ := Option.ite_none_left_eq_some.1 h
    split_ifs at h with hfull hauto
    · obtain rfl : c = 'f' := (List.cons.inj hfull).1
      rfl
    · obtain rfl : c = 'a' := (List.cons.inj hauto).1
      rfl
    · rcases Option.or_eq_some_iff.1 h with h | ⟨-, h⟩
      · exact beginsLength_of_fraction? h
      · obtain ⟨inner, hinner, -⟩ := Option.bind_eq_some_iff.1 h
        exact beginsLength_of_bracketed? hinner
  · obtain ⟨x, hx, -⟩ := Option.map_eq_some_iff.1 h
    exact beginsLength_of_spacing? hx

/-- **What a rule reads begins as its values do.** -/
theorem Rule.mayBegin_of_declarations? {rule : Rule} {negative : Bool} {ds : List Declaration}
    (h : rule.declarations? negative (c :: s) = some ds) : rule.mayBegin c = true := by
  cases rule with
  | spacing ks =>
    obtain ⟨-, h⟩ := Option.ite_none_left_eq_some.1 h
    obtain ⟨x, hx, -⟩ := Option.map_eq_some_iff.1 h
    exact beginsLength_of_spacing? hx
  | margin ks =>
    simp only [Rule.declarations?] at h
    split at h
    · rename_i hauto
      obtain rfl : c = 'a' :=
        (List.cons.inj (of_decide_eq_true (Bool.and_eq_true_iff.1 hauto).1)).1
      rfl
    · obtain ⟨x, hx, -⟩ := Option.map_eq_some_iff.1 h
      exact beginsLength_of_spacing? hx
  | offset ks =>
    obtain ⟨v, hv, -⟩ := Option.map_eq_some_iff.1 h
    exact beginsLength_of_length? hv
  | extent ks =>
    obtain ⟨-, h⟩ := Option.ite_none_left_eq_some.1 h
    obtain ⟨v, hv, -⟩ := Option.map_eq_some_iff.1 h
    exact beginsLength_of_length? hv
  | text | font | background | border | rounded | opacity | leading | layer => rfl

end

/-! ## Entries exclude each other -/

/-- Where the second stem goes on from the first, it has a character that no value of the first
begins with. -/
def apart (e f : String × Rule) : Bool :=
  match Text.afterPrefix? e.1 f.1.toList with
  | some (c :: _) => !e.2.mayBegin c
  | some [] => false
  | none => true

theorem stems_apart : stems.Pairwise fun e f => apart e f = true ∧ apart f e = true := by decide

theorem keywords_nodup : keywords.Pairwise fun e f => e.1.toList ≠ f.1.toList := by decide

theorem keywords_apart :
    ∀ e ∈ keywords, ∀ stem ∈ stems, (stemDeclarations? e.1.toList stem).isSome = false := by
  decide +kernel

/-- The rule of a stem does not read what a stem apart from it adds. -/
theorem declarations?_of_apart {e f : String × Rule} (h : apart e f = true) {more rest : List Char}
    (hmore : e.1.toList ++ more = f.1.toList) (negative : Bool) :
    e.2.declarations? negative (more ++ rest) = none := by
  rw [apart, Text.afterPrefix?_eq_some.2 hmore] at h
  cases more with
  | nil => cases h
  | cons c more =>
    cases hds : e.2.declarations? negative (c :: more ++ rest) with
    | none => rfl
    | some ds => simp [Rule.mayBegin_of_declarations? hds] at h

theorem accepts_keyword {e : String × List Declaration} {token : List Char} :
    Entry.accepts token (.inl e) = true ↔ e.1.toList = token := by
  by_cases hname : e.1.toList = token <;> simp [Entry.accepts, Entry.declarations?, hname]

/-- Two entries do not accept the same token. -/
def Exclude (e f : Entry) : Prop :=
  ∀ token, ¬ (e.accepts token = true ∧ f.accepts token = true)

theorem exclude_of_apart {e f : String × Rule} (hef : apart e f = true) (hfe : apart f e = true) :
    Exclude (.inr e) (.inr f) := by
  rintro token ⟨he, hf⟩
  obtain ⟨ds, he⟩ := Option.isSome_iff_exists.1 he
  obtain ⟨ds', hf⟩ := Option.isSome_iff_exists.1 hf
  obtain ⟨value, hvalue, hds⟩ := Option.bind_eq_some_iff.1 he
  obtain ⟨value', hvalue', hds'⟩ := Option.bind_eq_some_iff.1 hf
  have hbody : e.1.toList ++ value = f.1.toList ++ value' :=
    (Text.afterPrefix?_eq_some.1 hvalue).trans (Text.afterPrefix?_eq_some.1 hvalue').symm
  -- One stem is the beginning of the other, and its value begins with what the other has more.
  rcases List.append_eq_append_iff.1 hbody with ⟨more, hmore, rfl⟩ | ⟨more, hmore, rfl⟩
  · rw [declarations?_of_apart hef hmore.symm] at hds
    cases hds
  · rw [declarations?_of_apart hfe hmore.symm] at hds'
    cases hds'

theorem allEntries_exclude : allEntries.Pairwise Exclude := by
  refine List.pairwise_append.2 ⟨?_, ?_, ?_⟩
  · refine List.pairwise_map.2 (keywords_nodup.imp ?_)
    rintro e f hne token ⟨he, hf⟩
    exact hne ((accepts_keyword.1 he).trans (accepts_keyword.1 hf).symm)
  · exact List.pairwise_map.2 (stems_apart.imp fun h => exclude_of_apart h.1 h.2)
  · rintro _ hkeyword _ hstem token ⟨he, hf⟩
    obtain ⟨e, he', rfl⟩ := List.mem_map.1 hkeyword
    obtain ⟨stem, hstem', rfl⟩ := List.mem_map.1 hstem
    rw [← accepts_keyword.1 he] at hf
    exact Bool.eq_false_iff.1 (keywords_apart e he' stem hstem') hf

/-! ## Any order -/

section

variable {α β : Type} {l l' : List α}

theorem countP_le_one {p : α → Bool}
    (h : l.Pairwise fun a b => ¬ (p a = true ∧ p b = true)) : l.countP p ≤ 1 := by
  induction h with
  | nil => exact Nat.zero_le 1
  | @cons a l ha _ ih =>
    rw [List.countP_cons]
    split_ifs with hpa
    · have hnone : l.countP p = 0 := List.countP_eq_zero.2 fun b hb hpb => ha b hb ⟨hpa, hpb⟩
      omega
    · exact ih

/-- The only answer of a list is its first one in any order, by induction on the permutation. -/
theorem findSome?_eq_of_perm {f : α → Option β} (hperm : l.Perm l')
    (hone : l.countP (fun a => (f a).isSome) ≤ 1) : l.findSome? f = l'.findSome? f := by
  induction hperm with
  | nil => rfl
  | @cons a l l' _ ih =>
    rw [List.findSome?_cons, List.findSome?_cons]
    cases hfa : f a with
    | some b => rfl
    | none => exact ih (by simpa [hfa] using hone)
  | swap a b l =>
    rw [List.findSome?_cons, List.findSome?_cons, List.findSome?_cons, List.findSome?_cons]
    cases hfa : f a with
    | none => rfl
    | some x =>
      cases hfb : f b with
      | none => rfl
      | some y => simp [hfa, hfb] at hone
  | trans hperm _ ih ih' => exact (ih hone).trans (ih' (hperm.countP_eq _ ▸ hone))

end

/-- **At most one entry accepts a token.** -/
theorem allEntries_countP (token : List Char) : allEntries.countP (·.accepts token) ≤ 1 :=
  countP_le_one (allEntries_exclude.imp fun h => h token)

theorem declarationsIn_eq {order : List Entry} (h : order.Perm allEntries) (token : List Char) :
    declarationsIn order token = declarations token := by
  have hone : order.countP (fun e => (e.declarations? token).isSome) ≤ 1 :=
    h.countP_eq _ ▸ allEntries_countP token
  rw [← declarationsIn_allEntries, declarationsIn, declarationsIn, findSome?_eq_of_perm h hone]

/-- **The order of keywords and stems does not matter**: a token is accepted by one entry at most,
so that a class string has the same style in any order of the entries. -/
theorem ofClasses_anyOrder :
    (∀ token, allEntries.countP (·.accepts token) ≤ 1) ∧
      ∀ order : List Entry, order.Perm allEntries → ∀ classes,
        ofClassesIn order classes = ofClasses classes := by
  refine ⟨allEntries_countP, fun order horder classes => ?_⟩
  have hsame : declarationsIn order = declarations := funext (declarationsIn_eq horder)
  rw [ofClassesIn, hsame]
  rfl

/-- The keywords after the stems, and these from the shortest to the longest: a gap of a column is
none of a row, and a centered text has no color. -/
theorem gap_anyOrder :
    (stems.reverse.map Sum.inr ++ keywords.map Sum.inl).Perm allEntries ∧
    ofClassesIn (stems.reverse.map Sum.inr ++ keywords.map Sum.inl)
        "gap-x-4 -inset-y-2 text-center" = ofClasses "gap-x-4 -inset-y-2 text-center" ∧
    (ofClasses "gap-x-4 -inset-y-2 text-center").entries =
      [("bottom", .number (-8.0)), ("columnGap", .number 16.0), ("textAlign", .text "center"),
        ("top", .number (-8.0))] := by
  have hperm : (stems.reverse.map Sum.inr ++ keywords.map Sum.inl).Perm allEntries :=
    List.perm_append_comm.trans (((List.reverse_perm stems).map Sum.inr).append_left _)
  exact ⟨hperm, ofClasses_anyOrder.2 _ hperm _, by decide +kernel⟩

end Galley.Style
