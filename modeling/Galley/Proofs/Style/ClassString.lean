import Galley.Proofs.Text.Words
import Galley.Style.UtilityClass

/-!
# Class strings as merged styles

A class string is read token by token, and what a token sets does not depend on the tokens around
it. So the style of a string is the merge of the styles of its tokens, in order (`ofTokens_eq`), and
strings with a blank between them have the merge of their styles.

**Theorem (`ofClasses_merge`).** Class strings are a homomorphism into styles under `Dict.merge`,
which is associative, has the empty style as its unit, and takes the second value of a shared name.

Equations between styles are read through `Dict.get?`: under a name, merging is `Option.or` from the
right, and everything below is a law of `Option.or`.
-/

namespace Galley

/-! ## Merging -/

namespace Dict

variable {α : Type}

theorem merge_assoc (a b c : Dict α) : (a.merge b).merge c = a.merge (b.merge c) :=
  ext_get? fun k => by simp only [get?_merge, Option.or_assoc]

@[simp] theorem empty_merge (d : Dict α) : empty.merge d = d :=
  ext_get? fun k => by simp [get?_merge]

@[simp] theorem merge_empty (d : Dict α) : d.merge empty = d := rfl

/-- Entries put in one by one are merged as a whole. -/
theorem insertAll_eq_merge (d : Dict α) (es : Fields α) : d.insertAll es = d.merge (ofList es) :=
  ext_get? fun k => by simp [get?_merge, ofList, get?_insertAll]

theorem merge_comm_of_disjoint {a b : Dict α} (h : ∀ k, a.get? k = none ∨ b.get? k = none) :
    a.merge b = b.merge a := by
  refine ext_get? fun k => ?_
  rw [get?_merge, get?_merge]
  rcases h k with h | h <;> simp [h]

/-- Of many dictionaries merged in order, the last one that has a name decides. -/
theorem get?_foldl_merge (ds : List (Dict α)) (d : Dict α) (k : String) :
    (ds.foldl merge d).get? k = (ds.reverse.findSome? (·.get? k)).or (d.get? k) := by
  induction ds generalizing d with
  | nil => rfl
  | cons e ds ih =>
    rw [List.foldl_cons, ih, get?_merge, List.reverse_cons, List.findSome?_append, Option.or_assoc]
    cases h : e.get? k <;> simp [h]

end Dict

/-! ## Tokens -/

namespace Style

/-- What a token sets, whatever the tokens around it. -/
def tokenStyle (token : List Char) : Style := .ofList (declarations token)

theorem ofTokens_eq (tokens : List (List Char)) :
    ofTokens tokens = (tokens.map tokenStyle).foldl Dict.merge .empty := by
  rw [ofTokens, List.foldl_map]
  congr 1
  funext style token
  exact Dict.insertAll_eq_merge style (declarations token)

theorem get?_ofTokens (tokens : List (List Char)) (k : String) :
    (ofTokens tokens).get? k = tokens.reverse.findSome? fun t => (tokenStyle t).get? k := by
  rw [ofTokens_eq, Dict.get?_foldl_merge, Dict.get?_empty, Option.or_none, ← List.map_reverse,
    List.findSome?_map]
  rfl

theorem ofTokens_append (tokens tokens' : List (List Char)) :
    ofTokens (tokens ++ tokens') = (ofTokens tokens).merge (ofTokens tokens') := by
  refine Dict.ext_get? fun k => ?_
  rw [Dict.get?_merge, get?_ofTokens, get?_ofTokens, get?_ofTokens, List.reverse_append,
    List.findSome?_append]

theorem ofClasses_append {w : String} (hne : w ≠ "") (hw : ∀ c ∈ w.toList, Text.isBlank c = true)
    (a b : String) : ofClasses (a ++ w ++ b) = (ofClasses a).merge (ofClasses b) := by
  have hnil : w.toList ≠ [] := fun h => hne (String.toList_eq_nil_iff.1 h)
  rw [ofClasses, String.toList_append, String.toList_append, Text.words_append hnil hw,
    ofTokens_append]
  rfl

/-- **Class strings are a homomorphism into merged styles**: a blank merges, merging is a monoid in
which the second value wins, every token has a style of its own, the last token that sets a property
decides about it, and strings that share no property commute. -/
theorem ofClasses_merge {w : String} (hne : w ≠ "")
    (hw : ∀ c ∈ w.toList, Text.isBlank c = true) :
    (∀ a b, ofClasses (a ++ w ++ b) = (ofClasses a).merge (ofClasses b)) ∧
    ((∀ x y z : Style, (x.merge y).merge z = x.merge (y.merge z)) ∧
      (∀ x : Style, Dict.empty.merge x = x ∧ x.merge .empty = x) ∧
      ∀ (x y : Style) k, (x.merge y).get? k = (y.get? k).or (x.get? k)) ∧
    (∀ s, ofClasses s = ((Text.words s.toList).map tokenStyle).foldl Dict.merge .empty ∧
      ∀ k, (ofClasses s).get? k =
        (Text.words s.toList).reverse.findSome? fun t => (tokenStyle t).get? k) ∧
    (∀ a b, (∀ k, (ofClasses a).get? k = none ∨ (ofClasses b).get? k = none) →
      ofClasses (a ++ w ++ b) = ofClasses (b ++ w ++ a)) := by
  refine ⟨ofClasses_append hne hw, ⟨Dict.merge_assoc, ?_, Dict.get?_merge⟩, ?_, ?_⟩
  · exact fun x => ⟨Dict.empty_merge x, Dict.merge_empty x⟩
  · exact fun s => ⟨ofTokens_eq _, get?_ofTokens _⟩
  · intro a b hdisjoint
    rw [ofClasses_append hne hw, ofClasses_append hne hw, Dict.merge_comm_of_disjoint hdisjoint]

/-- Two strings that share a property, and two that do not. -/
theorem merge_padding : " \t" ≠ "" ∧ (∀ c ∈ " \t".toList, Text.isBlank c = true) ∧
    ofClasses ("p-4 flex" ++ " \t" ++ "p-2") = (ofClasses "p-4 flex").merge (ofClasses "p-2") ∧
    (ofClasses ("p-4 flex" ++ " \t" ++ "p-2")).get? "padding" = some (.number 8.0) ∧
    ofClasses ("flex" ++ " \t" ++ "p-2") = ofClasses ("p-2" ++ " \t" ++ "flex") := by
  have hne : " \t" ≠ "" := by decide
  have hblank : ∀ c ∈ " \t".toList, Text.isBlank c = true := List.all_eq_true.1 (by decide)
  have hflex : (ofClasses "flex").entries = [("display", .text "flex")] := by decide +kernel
  have hpadding : (ofClasses "p-2").entries = [("padding", .number 8.0)] := by decide +kernel
  obtain ⟨happend, -, -, hcomm⟩ := ofClasses_merge hne hblank
  refine ⟨hne, hblank, happend _ _, by decide +kernel, hcomm _ _ fun k => ?_⟩
  by_cases hk : k = "display"
  · exact .inr (by simp [Dict.get?, hpadding, Fields.get?, hk])
  · exact .inl (by simp [Dict.get?, hflex, Fields.get?, hk])

end Style

end Galley
