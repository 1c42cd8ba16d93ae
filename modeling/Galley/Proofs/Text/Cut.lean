import Galley.Text.Cut
import Mathlib

/-!
# What a text is cut from

An affix that is taken off, a pair of brackets, and a separator stand where they were cut.
-/

namespace Galley.Text

theorem afterPrefix?_eq_some {p : String} {s rest : List Char} :
    afterPrefix? p s = some rest ↔ p.toList ++ rest = s :=
  List.isPrefixOf?_eq_some_iff_append_eq

theorem beforeSuffix?_eq_some {p : String} {s front : List Char} :
    beforeSuffix? p s = some front ↔ front ++ p.toList = s :=
  List.isSuffixOf?_eq_some_iff_append_eq

theorem beforeSuffix?_eq_none {p : String} {s : List Char} :
    beforeSuffix? p s = none ↔ ¬ p.toList <:+ s := by
  rw [Option.eq_none_iff_forall_ne_some]
  constructor
  · intro h hsuffix
    obtain ⟨front, hfront⟩ := hsuffix
    exact h front (beforeSuffix?_eq_some.2 hfront)
  · intro h front hfront
    exact h ⟨front, beforeSuffix?_eq_some.1 hfront⟩

theorem bracketed?_eq_some {s inner : List Char} :
    bracketed? s = some inner ↔ '[' :: (inner ++ [']']) = s := by
  rw [bracketed?, Option.bind_eq_some_iff]
  constructor
  · rintro ⟨rest, hopen, hclose⟩
    rw [← afterPrefix?_eq_some.1 hopen, ← beforeSuffix?_eq_some.1 hclose]
    rfl
  · rintro rfl
    exact ⟨inner ++ [']'], afterPrefix?_eq_some.2 rfl, beforeSuffix?_eq_some.2 rfl⟩

theorem startsWith_iff {p : String} {s : List Char} : startsWith p s = true ↔ p.toList <+: s :=
  List.isPrefixOf_iff_prefix

theorem hasInfix_iff {p s : List Char} : hasInfix p s = true ↔ p <:+: s := by
  induction s with
  | nil => simp [hasInfix]
  | cons c s ih => rw [hasInfix, Bool.or_eq_true, ih, List.isPrefixOf_iff_prefix, List.infix_cons_iff]

theorem eq_of_cutFirst? {sep : Char} {s l r : List Char} (h : cutFirst? sep s = some (l, r)) :
    s = l ++ sep :: r := by
  induction s generalizing l with
  | nil => cases h
  | cons c s ih =>
    unfold cutFirst? at h
    split at h
    · rename_i hsep
      cases h
      rw [hsep, List.nil_append]
    · obtain ⟨⟨l', r'⟩, hcut, h⟩ := Option.map_eq_some_iff.1 h
      cases h
      rw [ih hcut, List.cons_append]

end Galley.Text
