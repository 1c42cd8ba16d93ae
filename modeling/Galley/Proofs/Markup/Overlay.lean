import Galley.Proofs.Markup.Properties
import Galley.Proofs.Markup.Spelling

/-!
# Explicit properties over inline ones

A node object may give properties under `props` and beside it. They are put together key by key,
and fields are found only afterwards. The two agree (`denotes_overlay`) unless a field is given
under one key in one place and under another key in the other (`Clash`), which can happen to the
classes alone.

**Theorem (`readNode_overlay`).** Without a clash the properties are read, and each field and each
extra property is the explicit one where there is one, and the inline one otherwise.

**Theorem (`readNode_clash`).** With a clash they are refused, and that is the only fault in them.
-/

namespace Galley.Markup

open Outline Props

variable {δ : Type} {d P I M : Dict Json} {o : Outline} {p q : Props}

/-! ## Two objects key by key -/

/-- Two objects give a field under different keys. -/
def Clash (P I : Dict Json) : Prop := ∃ k ∈ P.keys, ∃ k' ∈ I.keys, k ≠ k' ∧ SameField k k'

instance (P I : Dict Json) : Decidable (Clash P I) :=
  inferInstanceAs (Decidable (∃ k ∈ P.keys, ∃ k' ∈ I.keys, k ≠ k' ∧ SameField k k'))

/-- The values of the first object over those of the second, field by field. -/
def overlay (P : Dict Json) (p q : Props) : Props :=
  ofValues (fun f => if Mentions P f then p.value f else q.value f) (q.extra.merge p.extra)

theorem overlay_value_of_mentions {f : Field} (h : Mentions P f) :
    (overlay P p q).value f = p.value f := by
  rw [overlay, value_ofValues, if_pos h]

theorem overlay_value_of_not_mentions {f : Field} (h : ¬ Mentions P f) :
    (overlay P p q).value f = q.value f := by
  rw [overlay, value_ofValues, if_neg h]

theorem overlay_extra (k : String) :
    (overlay P p q).extra.get? k = (p.extra.get? k).or (q.extra.get? k) :=
  Dict.get?_merge q.extra p.extra k

section Both

variable (hM : ∀ k, M.get? k = (P.get? k).or (I.get? k))
include hM

theorem mem_keys_both {k : String} : k ∈ M.keys ↔ k ∈ P.keys ∨ k ∈ I.keys := by
  simp only [Dict.mem_keys, Dict.contains, hM, Option.isSome_or, Bool.or_eq_true]

/-- A key of both objects together has the value of the first, or else that of the second. -/
theorem get?_both {k : String} {v : Json} (h : M.get? k = some v) :
    P.get? k = some v ∨ k ∉ P.keys ∧ I.get? k = some v := by
  rw [hM] at h
  cases hk : P.get? k with
  | some w =>
    rw [hk] at h
    exact .inl h
  | none =>
    rw [hk] at h
    refine .inr ⟨fun hmem => ?_, h⟩
    obtain ⟨w, hw⟩ := Dict.mem_keys_iff.1 hmem
    rw [hk] at hw
    cases hw

/-- What both objects repeat together, one of them repeats, or they clash in it. -/
theorem not_repeats_both (hp : ¬ Repeats P) (hq : ¬ Repeats I) (hclash : ¬ Clash P I) :
    ¬ Repeats M := by
  rintro ⟨k, hk, k', hk', hne, hsame⟩
  rw [mem_keys_both hM] at hk hk'
  rcases hk with hk | hk <;> rcases hk' with hk' | hk'
  · exact hp ⟨k, hk, k', hk', hne, hsame⟩
  · exact hclash ⟨k, hk, k', hk', hne, hsame⟩
  · exact hclash ⟨k', hk', k, hk, hne.symm, hsame.symm⟩
  · exact hq ⟨k, hk, k', hk', hne, hsame⟩

/-- **Keys and fields agree**, where no field is given under different keys. -/
theorem denotes_overlay (hp : Denotes P p) (hq : Denotes I q) (hclash : ¬ Clash P I) :
    Denotes M (overlay P p q) := by
  refine ⟨not_repeats_both hM hp.once hq.once hclash, fun f k v hv hk => ?_, fun f hf => ?_,
    fun k => ?_⟩
  · rcases get?_both hM hv with hv | ⟨hnew, hv⟩
    · rw [overlay_value_of_mentions ⟨k, Dict.mem_keys_iff.2 ⟨v, hv⟩, hk⟩]
      exact hp.given f k v hv hk
    · -- A field of the first object would be there under another key.
      have hother : ¬ Mentions P f := by
        rintro ⟨k', hk', hf⟩
        have hne : k' ≠ k := fun he => hnew (he ▸ hk')
        exact hclash ⟨k', hk', k, Dict.mem_keys_iff.2 ⟨v, hv⟩, hne, f, hf, hk⟩
      rw [overlay_value_of_not_mentions hother]
      exact hq.given f k v hv hk
  · have hPf : ¬ Mentions P f := fun ⟨k, hk, hkf⟩ => hf ⟨k, (mem_keys_both hM).2 (.inl hk), hkf⟩
    have hIf : ¬ Mentions I f := fun ⟨k, hk, hkf⟩ => hf ⟨k, (mem_keys_both hM).2 (.inr hk), hkf⟩
    rw [overlay_value_of_not_mentions hPf, hq.absent f hIf]
  · rw [overlay_extra, hp.extra, hq.extra, hM]
    split <;> rfl

/-- A field under two keys, one in each object, is one fault and the only one. -/
theorem decode_of_clash (hp : Denotes P p) (hq : Denotes I q) (hclash : Clash P I) :
    Props.decode (.object M.entries) = .error (.repeated "class") := by
  obtain ⟨k, hk, k', hk', hne, hsame⟩ := hclash
  have hrepeats : Repeats M :=
    ⟨k, (mem_keys_both hM).2 (.inl hk), k', (mem_keys_both hM).2 (.inr hk'), hne, hsame⟩
  refine decode_repeated hrepeats fun f k v hv hf => ?_
  rcases get?_both hM hv with hv | ⟨-, hv⟩
  · exact ⟨_, hp.given f k v hv hf⟩
  · exact ⟨_, hq.given f k v hv hf⟩

end Both

/-! ## Node objects -/

/-- The properties of a node object under and beside `props` together. -/
theorem properties_eq (hP : o.props = some (.object P.entries)) (hI : o.inline = I.entries) :
    ∃ M : Dict Json, o.properties = .ok M.entries ∧
      ∀ k, M.get? k = (P.get? k).or (I.get? k) := by
  refine ⟨⟨addMissing P.entries I.entries, ascending_addMissing P.ascending _⟩, ?_, fun k => ?_⟩
  · rw [properties, hP, hI]
  · exact get?_addMissing k P.entries I.entries

/-- What stands beside the parts of a node object is an object too. -/
theorem exists_inline (ho : ofMembers d.entries = .ok o) :
    ∃ I : Dict Json, o.inline = I.entries := by
  have hrest : ∀ {ms : Fields Json}, ms.Ascending → (rest ms).Ascending := fun h =>
    Fields.ascending_erase _ (Fields.ascending_erase _ (Fields.ascending_erase _ h))
  suffices hascending : o.inline.Ascending from ⟨⟨o.inline, hascending⟩, rfl⟩
  unfold ofMembers at ho
  split at ho
  · split at ho
    · cases ho
    · cases ho
      exact hrest d.ascending
  · cases ho
  · split at ho
    · rename_i key target v _
      cases ho
      have herase := hrest (Fields.ascending_erase key d.ascending)
      unfold ofShorthand
      split
      · exact herase
      · exact Fields.ascending_insert target v herase
    · cases ho

/-- **Explicit properties win over inline ones**, field by field and key by key. -/
theorem readNode_overlay (ho : ofMembers d.entries = .ok o)
    (hP : o.props = some (.object P.entries)) (hI : o.inline = I.entries)
    (hp : Props.decode (.object P.entries) = .ok p)
    (hq : Props.decode (.object I.entries) = .ok q) (hclash : ¬ Clash P I) :
    ∃ r, readProps o = .ok r ∧
      (readNode (.object d.entries) : Reading (Node δ)) =
        (readPart o.children).map (fun children => .element o.tag r children) ∧
      (∀ f, Mentions P f → r.value f = p.value f) ∧
      (∀ f, ¬ Mentions P f → r.value f = q.value f) ∧
      ∀ k, r.extra.get? k = (p.extra.get? k).or (q.extra.get? k) := by
  obtain ⟨M, hproperties, hM⟩ := properties_eq hP hI
  have hdenotes := denotes_overlay hM (decode_eq_ok_iff.1 hp) (decode_eq_ok_iff.1 hq) hclash
  have hread : readProps o = .ok (overlay P p q) := by
    simp only [readProps, hproperties, decode_eq_ok_iff.2 hdenotes]
  refine ⟨overlay P p q, hread, ?_, fun f => overlay_value_of_mentions,
    fun f => overlay_value_of_not_mentions, overlay_extra⟩
  rw [readNode_object, ho]
  show o.read = _
  rw [Outline.read, hread]
  cases (readPart o.children : Reading (List (Child δ))) <;> rfl

/-- **Classes under two keys**, one under `props` and one beside it, are refused. -/
theorem readNode_clash (ho : ofMembers d.entries = .ok o)
    (hP : o.props = some (.object P.entries)) (hI : o.inline = I.entries)
    (hp : Props.decode (.object P.entries) = .ok p)
    (hq : Props.decode (.object I.entries) = .ok q) (hclash : Clash P I) :
    (readNode (.object d.entries) : Reading (Node δ)) =
      (readPart o.children : Reading (List (Child δ))).bind fun _ =>
        .error ⟨[.props], .props (.repeated "class")⟩ := by
  obtain ⟨M, hproperties, hM⟩ := properties_eq hP hI
  have hdecode := decode_of_clash hM (decode_eq_ok_iff.1 hp) (decode_eq_ok_iff.1 hq) hclash
  have hread : readProps o = .error ⟨[.props], .props (.repeated "class")⟩ := by
    simp only [readProps, hproperties, hdecode]
    rfl
  rw [readNode_object, ho]
  show o.read = _
  rw [Outline.read, hread]
  rfl

/-! ## A portrait -/

/-- An image by its shorthand, with properties in both places. -/
def portrait : Dict Json :=
  .ofList [("image", .text "draft.png"), ("className", .text "p-1"), ("title", .text "Portrait"),
    ("alt", .text "A draft"), ("lang", .text "en"),
    ("props", .object [("alt", .text "A face"), ("className", .text "p-2"),
      ("src", .text "face.png")])]

/-- What the portrait gives under `props`. -/
def explicitPart : Dict Json :=
  .ofList [("alt", .text "A face"), ("className", .text "p-2"), ("src", .text "face.png")]

/-- What it gives beside, the value of its shorthand among it. -/
def inlinePart : Dict Json :=
  .ofList [("alt", .text "A draft"), ("className", .text "p-1"), ("lang", .text "en"),
    ("src", .text "draft.png"), ("title", .text "Portrait")]

theorem portrait_overlay :
    ofMembers portrait.entries =
      .ok ⟨"image", none, some (.object explicitPart.entries), inlinePart.entries⟩ ∧
    ¬ Clash explicitPart inlinePart ∧
    ∃ p q r, Props.decode (.object explicitPart.entries) = .ok p ∧
      Props.decode (.object inlinePart.entries) = .ok q ∧
      (readNode (.object portrait.entries) : Reading (Node Empty)) =
        .ok (.element "image" r []) ∧
      r.classes = some "p-2" ∧ r.src = some (.url "face.png") ∧ r.title = some "Portrait" ∧
      r.extra.get? "alt" = some (.text "A face") ∧ r.extra.get? "lang" = some (.text "en") := by
  have ho : ofMembers portrait.entries =
      .ok ⟨"image", none, some (.object explicitPart.entries), inlinePart.entries⟩ := rfl
  have hp : Props.decode (.object explicitPart.entries) = .ok
      { Props.empty with
        classes := some "p-2"
        src := some (.url "face.png")
        extra := .ofList [("alt", .text "A face")] } := rfl
  have hq : Props.decode (.object inlinePart.entries) = .ok
      { Props.empty with
        classes := some "p-1"
        title := some "Portrait"
        src := some (.url "draft.png")
        extra := .ofList [("alt", .text "A draft"), ("lang", .text "en")] } := rfl
  have hclash : ¬ Clash explicitPart inlinePart := by decide
  obtain ⟨r, -, hnode, hexplicit, hinline, hextra⟩ :=
    @readNode_overlay Empty _ _ _ _ _ _ ho rfl rfl hp hq hclash
  exact ⟨ho, hclash, _, _, r, hp, hq, hnode, hexplicit .classes (by decide),
    hexplicit .src (by decide), hinline .title (by decide), hextra "alt", hextra "lang"⟩

/-! ## One field under two keys -/

/-- A view with a class under `props`, and with another one beside it under another key. -/
def respelledView : Dict Json :=
  .ofList [("type", .text "view"), ("className", .text "p-1"),
    ("props", .object [("class", .text "p-2")])]

/-- Either place alone is read, and both together are not. -/
theorem respelledView_refused :
    ofMembers respelledView.entries = .ok ⟨"view", none,
      some (.object [("class", .text "p-2")]), [("className", .text "p-1")]⟩ ∧
    (∃ p, Props.decode (.object [("class", .text "p-2")]) = .ok p) ∧
    (∃ q, Props.decode (.object [("className", .text "p-1")]) = .ok q) ∧
    (readNode (.object respelledView.entries) : Reading (Node Empty)) =
      .error ⟨[.props], .props (.repeated "class")⟩ := by
  have hclash : Clash (.ofList [("class", .text "p-2")])
      (.ofList [("className", .text "p-1")]) := by
    decide
  have hread := @readNode_clash Empty respelledView _ _ _ _ _ rfl rfl rfl rfl rfl hclash
  exact ⟨rfl, ⟨_, rfl⟩, ⟨_, rfl⟩, hread⟩

end Galley.Markup
