import Galley.Typeset.Tree
import Mathlib

/-!
# Typesetting along pieces

Typesetting goes along the pieces of an element and keeps nothing from one piece to the next, so
that the result for pieces after each other is made of the results for each (`setPieces_append`,
`setSheets_append`). What stands on no page is left out of the sheets (`setSheets_of_not_page`).

A root is typeset as a document (`typeset_of_document`), or it is one element on one sheet
(`typeset_of_not_document`).
-/

namespace Galley.Typeset

open Document (Block Sheet)
open Markup (Element Node Piece)

variable {δ : Type} {expand : Node δ → Except Fault (Element δ)}
  {set : Element δ → Except Fault (Block × List Mention)} {default : Page.Dimensions}

theorem characters?_append (ps qs : List (Piece δ)) :
    characters? (ps ++ qs) =
      (characters? ps).bind fun a => (characters? qs).map fun b => a ++ b := by
  induction ps with
  | nil => cases h : characters? qs <;> simp [characters?, h]
  | cons p ps ih =>
    cases p with
    | node n => rfl
    | text t =>
      simp only [List.cons_append, characters?, ih]
      cases characters? ps <;> cases characters? qs <;> simp [String.append_assoc]

theorem setPieces_append (ps qs : List (Piece δ)) :
    setPieces expand set (ps ++ qs) = (do
      let (bs, ms) ← setPieces expand set ps
      let (cs, os) ← setPieces expand set qs
      .ok (bs ++ cs, ms ++ os)) := by
  induction ps with
  | nil => cases h : setPieces expand set qs <;> simp [setPieces, h, bind, Except.bind]
  | cons p ps ih =>
    cases p with
    | text t =>
      simp only [List.cons_append, setPieces, ih, bind, Except.bind]
      cases setPieces expand set ps with
      | error f => rfl
      | ok a => cases setPieces expand set qs <;> rfl
    | node n =>
      simp only [List.cons_append, setPieces, ih, bind, Except.bind]
      cases expand n with
      | error f => rfl
      | ok e =>
        cases hset : set e with
        | error f => simp [hset]
        | ok b =>
          cases setPieces expand set ps with
          | error f => simp [hset]
          | ok a => cases setPieces expand set qs <;> simp [hset]

theorem setSheets_append (ps qs : List (Piece δ)) :
    setSheets expand set default (ps ++ qs) = (do
      let (ss, ms) ← setSheets expand set default ps
      let (ts, os) ← setSheets expand set default qs
      .ok (ss ++ ts, ms ++ os)) := by
  induction ps with
  | nil => cases h : setSheets expand set default qs <;> simp [setSheets, h, bind, Except.bind]
  | cons p ps ih =>
    cases p with
    | text t => simpa only [List.cons_append, setSheets] using ih
    | node n =>
      simp only [List.cons_append, setSheets, ih, bind, Except.bind]
      cases expand n with
      | error f => rfl
      | ok e =>
        by_cases hpage : kind e = .page
        · cases hset : set e with
          | error f => simp [hpage, hset]
          | ok b =>
            cases setSheets expand set default ps with
            | error f => simp [hpage, hset]
            | ok a => cases setSheets expand set default qs <;> simp [hpage, hset]
        · simp [hpage]

/-- A child of a document that expands to no page. -/
theorem setSheets_of_not_page {n : Node δ} {p : Element δ} (h : expand n = .ok p)
    (hpage : kind p ≠ .page) (ps : List (Piece δ)) :
    setSheets expand set default (.node n :: ps) = setSheets expand set default ps := by
  simp [setSheets, h, hpage, bind, Except.bind]

/-! ## Roots -/

section Roots

variable {render : Markup.Rendering δ} {s : Settings.Typesetting} {root : Node δ} {e : Element δ}

theorem typeset_of_document (h : Typeset.expand render s.componentLimit root = .ok e)
    (hdoc : kind e = .document) : typeset render s root = setDocument render s e := by
  simp [typeset, h, hdoc, bind, Except.bind]

/-- Without a document, the root is all there is on the only sheet. -/
theorem typeset_of_not_document (h : Typeset.expand render s.componentLimit root = .ok e)
    (hdoc : kind e ≠ .document) :
    typeset render s root = (setElement render s (s.depthLimit + 1) .initial e).map fun a =>
      assemble [if kind e = .page then .ofBlock s.pageSize a.1
        else ⟨s.pageSize, .zero, .empty, [a.1]⟩] a.2 none := by
  simp only [typeset, h, bind, Except.bind]
  cases hset : setElement render s (s.depthLimit + 1) .initial e with
  | error f => cases hk : kind e <;> first | rfl | exact absurd hk hdoc
  | ok a => cases hk : kind e <;> first | rfl | exact absurd hk hdoc

end Roots

end Galley.Typeset
