import Galley.Proofs.Typeset.Expansion
import Galley.Proofs.Typeset.Pieces
import Galley.Proofs.Typeset.Success

/-!
# The first fault of a tree

A walk through a tree (`walk`) comes across elements, each before its children, and lists in place;
nodes are walked as the elements that they come to within a number of renderings, and a node that
comes to none is a sight of its own. Under a document only the pages are walked, but every child is
expanded. An element below the greatest depth is seen, and not entered.

Each sight has its own faults (`Sight.faults`), whatever is around it, and the first fault of a tree
is the first one of its walk.

**Theorem (`typeset_firstFault`).** Typesetting fails exactly with the first fault of the tree or,
if there is none, where a document has no page. Expansion renders at least once, so this asks for a
limit of at least one; with a limit of zero, a tree may be typeset although its root comes to no
element within the limit (`typeset_zeroLimit`).

A failure of typesetting is read off without what would have been its success (`failure?`). Along
pieces it is the failure of the first of them that has one, as the first of two lists of faults is
(`firstIn_append`), and from there the proof goes by induction on the pieces, and for elements on
the levels below them.
-/

namespace Galley.Typeset

open Document (Block Content Sheet)
open Markup (Element Node Piece Rendering)

variable {δ : Type} {render : Rendering δ} {s : Settings.Typesetting}

/-! ## Failures -/

/-- The fault of what fails. -/
def failure? {α : Type} : Except Fault α → Option Fault
  | .ok _ => none
  | .error f => some f

@[simp] theorem failure?_ok {α : Type} (a : α) : failure? (.ok a : Except Fault α) = none := rfl

@[simp] theorem failure?_error {α : Type} (f : Fault) :
    failure? (.error f : Except Fault α) = some f := rfl

/-- What follows a step matters only if the step succeeds. -/
theorem failure?_bind {α β : Type} (x : Except Fault α) (f : α → Except Fault β) (g : Option Fault)
    (h : ∀ a, x = .ok a → failure? (f a) = g) : failure? (x >>= f) = (failure? x).or g := by
  cases x with
  | error e => rfl
  | ok a => exact h a rfl

/-! ## Sights and their faults -/

/-- What a walk through a tree comes across. -/
inductive Sight (δ : Type) where
  | element (depth : Nat) (e : Element δ)
  /-- A node that is still a component after all renderings that are allowed, with its name then. -/
  | endless (n : Node δ) (last : String)

/-- The faults of the size and of the margin of a page. -/
def pageFaults (e : Element δ) : List Fault :=
  if kind e = .page then
    (e.props.size.bind fun size => failure? size.resolve).toList ++
      (e.props.margin.bind fun margin => failure? margin.resolve).toList
  else []

/-- The fault of an image without a source. -/
def imageFaults (e : Element δ) : List Fault :=
  if kind e = .image ∧ e.props.src.isNone then [.noImageSource] else []

/-- The faults of a sight itself. -/
def Sight.faults (s : Settings.Typesetting) : Sight δ → List Fault
  | .element depth e =>
    (if s.depthLimit < depth then [.tooDeep e.tag s.depthLimit] else []) ++ pageFaults e ++
      imageFaults e
  | .endless n last => [.endlessComponent n.name last s.componentLimit]

/-- The first fault of sights. -/
def firstIn (s : Settings.Typesetting) (sights : List (Sight δ)) : Option Fault :=
  (sights.flatMap (Sight.faults s)).head?

theorem firstIn_append (as bs : List (Sight δ)) :
    firstIn s (as ++ bs) = (firstIn s as).or (firstIn s bs) := by
  simp [firstIn]

theorem firstIn_cons (a : Sight δ) (bs : List (Sight δ)) :
    firstIn s (a :: bs) = (a.faults s).head?.or (firstIn s bs) := by
  simp [firstIn]

/-! ## Walks -/

/-- The walk of a node: that of the element which it comes to. -/
def walkNode (render : Rendering δ) (cap : Nat) (walk : Element δ → List (Sight δ)) (n : Node δ) :
    List (Sight δ) :=
  match (rendered render cap n).element? with
  | some e => walk e
  | none => [.endless n (rendered render cap n).name]

/-- The walk of a piece. -/
def walkPiece (render : Rendering δ) (cap : Nat) (walk : Element δ → List (Sight δ)) :
    Piece δ → List (Sight δ)
  | .text _ => []
  | .node n => walkNode render cap walk n

/-- The walk of an element at a depth, with a number of levels that are entered. -/
def walkElement (render : Rendering δ) (cap : Nat) : Nat → Nat → Element δ → List (Sight δ)
  | 0, depth, e => [.element depth e]
  | levels + 1, depth, e =>
    .element depth e ::
      (Markup.pieces e.children).flatMap
        (walkPiece render cap (walkElement render cap levels (depth + 1)))

/-- The walk of a child of a document. -/
def walkSheet (render : Rendering δ) (cap : Nat) (s : Settings.Typesetting) (e : Element δ) :
    List (Sight δ) :=
  if kind e = .page then walkElement render cap s.depthLimit 1 e else []

/-- The walk of the element that a root comes to. -/
def walkRoot (render : Rendering δ) (cap : Nat) (s : Settings.Typesetting) (e : Element δ) :
    List (Sight δ) :=
  if kind e = .document then
    .element 0 e ::
      (Markup.pieces e.children).flatMap (walkPiece render cap (walkSheet render cap s))
  else walkElement render cap (s.depthLimit + 1) 0 e

/-- The walk of a tree, with a number of renderings for each node. -/
def walk (render : Rendering δ) (cap : Nat) (s : Settings.Typesetting) (root : Node δ) :
    List (Sight δ) :=
  walkNode render cap (walkRoot render cap s) root

/-- The first fault of a tree. -/
def firstFault (render : Rendering δ) (cap : Nat) (s : Settings.Typesetting) (root : Node δ) :
    Option Fault :=
  firstIn s (walk render cap s root)

/-- The root is a document, and none of its children is a page. -/
def Pageless (render : Rendering δ) (cap : Nat) (root : Node δ) : Prop :=
  ∃ e, rendered render cap root = e.node ∧ kind e = .document ∧
    ∀ n p, .node n ∈ Markup.pieces e.children → rendered render cap n = p.node → kind p ≠ .page

/-! ## Failures and faults of elements -/

theorem pageSize_failure (default : Page.Dimensions) (e : Element δ) :
    failure? (pageSize default e) = e.props.size.bind fun size => failure? size.resolve := by
  unfold pageSize
  cases e.props.size with
  | none => cases e.props.orientation <;> rfl
  | some size =>
    show failure? (size.resolve >>= _) = failure? size.resolve
    cases size.resolve with
    | error f => rfl
    | ok turned => cases e.props.orientation <;> rfl

theorem pageMargin_failure (e : Element δ) :
    failure? (pageMargin e) = e.props.margin.bind fun margin => failure? margin.resolve := by
  unfold pageMargin
  cases e.props.margin <;> rfl

theorem content_failure (default : Page.Dimensions) (e : Element δ) :
    failure? (content default e) = (pageFaults e ++ imageFaults e).head? := by
  unfold content pageFaults imageFaults
  cases hk : kind e with
  | page =>
    have hmargin : ∀ size, failure? (do
        let margin ← pageMargin e
        .ok (Content.page size margin, ([] : List Mention))) = failure? (pageMargin e) := by
      intro size
      rw [failure?_bind _ _ none fun _ _ => rfl]
      simp
    simp only [reduceCtorEq, false_and, if_false, if_true, List.append_nil]
    rw [failure?_bind _ _ (failure? (pageMargin e)) fun size _ => hmargin size, pageSize_failure,
      pageMargin_failure]
    simp
  | image => cases e.props.src <;> rfl
  | document | container | text | link => rfl

/-- Characters leave nothing to walk. -/
theorem walk_of_characters {cap : Nat} {walk : Element δ → List (Sight δ)} {ps : List (Piece δ)}
    {characters : String} (h : characters? ps = some characters) :
    ps.flatMap (walkPiece render cap walk) = [] := by
  induction ps generalizing characters with
  | nil => rfl
  | cons p ps ih =>
    cases p with
    | node n => cases h
    | text t =>
      obtain ⟨rest, hrest, -⟩ := Option.map_eq_some_iff.1 h
      simpa [walkPiece] using ih hrest

section Pieces

variable {cap : Nat} {walk : Element δ → List (Sight δ)}

/-- A node has the fault of its expansion, or else the first one of its element. -/
theorem node_failure {α : Type} {set : Element δ → Except Fault α}
    (hcap : cap = max s.componentLimit 1) (hset : ∀ e, failure? (set e) = firstIn s (walk e))
    (n : Node δ) :
    failure? (expand render s.componentLimit n >>= set) =
      firstIn s (walkNode render cap walk n) := by
  rw [expand_eq, ← hcap, walkNode]
  cases (rendered render cap n).element? with
  | some e => exact hset e
  | none => rfl

/-- **Pieces fail with their first fault.** -/
theorem setPieces_failure {set : Element δ → Except Fault (Block × List Mention)}
    (hcap : cap = max s.componentLimit 1) (hset : ∀ e, failure? (set e) = firstIn s (walk e))
    (ps : List (Piece δ)) :
    failure? (setPieces (expand render s.componentLimit) set ps) =
      firstIn s (ps.flatMap (walkPiece render cap walk)) := by
  induction ps with
  | nil => rfl
  | cons p ps ih =>
    rw [List.flatMap_cons, firstIn_append, ← ih]
    cases p with
    | text t =>
      simp only [setPieces]
      rw [failure?_bind _ _ none fun _ _ => rfl]
      simp [walkPiece, firstIn]
    | node n =>
      rw [walkPiece, ← node_failure hcap hset n]
      simp only [setPieces]
      rw [← bind_assoc]
      refine failure?_bind _ _ _ fun a _ => ?_
      rw [failure?_bind _ _ none fun _ _ => rfl]
      simp

end Pieces

/-- **An element fails with its first fault**, by induction on the levels below it. -/
theorem setElement_failure {cap : Nat} (hcap : cap = max s.componentLimit 1) {levels depth : Nat}
    (hlevels : levels + depth = s.depthLimit + 1) (t : Typography) (e : Element δ) :
    failure? (setElement render s levels t e) =
      firstIn s (walkElement render cap levels depth e) := by
  induction levels generalizing depth t e with
  | zero =>
    have hdeep : s.depthLimit < depth := by omega
    simp [setElement, walkElement, firstIn, Sight.faults, hdeep]
  | succ levels ih =>
    have hdepth : ¬ s.depthLimit < depth := by omega
    rw [walkElement, firstIn_cons, Sight.faults, if_neg hdepth, List.nil_append, ← content_failure]
    simp only [setElement]
    refine failure?_bind _ _ _ ?_
    intro a _
    split
    · rename_i hcharacters
      rw [walk_of_characters hcharacters]
      rfl
    · rw [failure?_bind _ _ none fun _ _ => rfl, Option.or_none]
      exact setPieces_failure hcap (fun e => ih (by omega) _ e) _

/-! ## Failures and faults of documents -/

theorem setSheets_failure {cap : Nat} (hcap : cap = max s.componentLimit 1) (t : Typography)
    (ps : List (Piece δ)) :
    failure? (setSheets (expand render s.componentLimit) (setElement render s s.depthLimit t)
        s.pageSize ps) =
      firstIn s (ps.flatMap (walkPiece render cap (walkSheet render cap s))) := by
  induction ps with
  | nil => rfl
  | cons p ps ih =>
    rw [List.flatMap_cons, firstIn_append, ← ih]
    cases p with
    | text t => rfl
    | node n =>
      -- A child has a fault as far as it is looked at: its expansion, and its element if a page.
      have hsheet : ∀ e, failure? (if kind e = .page then
          (setElement render s s.depthLimit t e).map fun _ => () else .ok ()) =
            firstIn s (walkSheet render cap s e) := by
        intro e
        rw [walkSheet]
        split
        · rw [← setElement_failure hcap rfl t]
          cases setElement render s s.depthLimit t e <;> rfl
        · rfl
      rw [walkPiece, ← node_failure hcap hsheet n]
      cases hn : expand render s.componentLimit n with
      | error f => simp [setSheets, hn, bind, Except.bind]
      | ok e =>
        by_cases hpage : kind e = .page
        · cases hset : setElement render s s.depthLimit t e with
          | error f => simp [setSheets, hn, hpage, hset, bind, Except.bind, Except.map]
          | ok b =>
            simp only [setSheets, hn, hpage, hset, bind, Except.bind, Except.map, if_true,
              failure?_ok, Option.none_or]
            cases setSheets (expand render s.componentLimit) (setElement render s s.depthLimit t)
              s.pageSize ps <;> rfl
        · simp [setSheets_of_not_page hn hpage, hpage, bind, Except.bind]

/-- A document element fails with the first fault of its children or, without one, for want of a
page. -/
theorem setDocument_eq_error_iff {cap : Nat} (hcap : cap = max s.componentLimit 1) {e : Element δ}
    {f : Fault} :
    setDocument render s e = .error f ↔
      firstIn s ((Markup.pieces e.children).flatMap (walkPiece render cap (walkSheet render cap s))) =
          some f ∨
        firstIn s ((Markup.pieces e.children).flatMap
            (walkPiece render cap (walkSheet render cap s))) = none ∧
          (∀ n p, .node n ∈ Markup.pieces e.children → expand render s.componentLimit n = .ok p →
            kind p ≠ .page) ∧ f = .noPages := by
  rw [← setSheets_failure hcap (Typography.initial.apply (elementStyle e)), setDocument]
  cases hsheets : setSheets (expand render s.componentLimit)
    (setElement render s s.depthLimit (Typography.initial.apply (elementStyle e))) s.pageSize
    (Markup.pieces e.children) with
  | error g => simp [bind, Except.bind]
  | ok result =>
    obtain ⟨sheets, ms⟩ := result
    rw [← setSheets_eq_nil_iff hsheets]
    cases sheets with
    | nil => simp [bind, Except.bind, eq_comm]
    | cons sheet sheets => simp [bind, Except.bind]

theorem pageless_iff {cap : Nat} {root : Node δ} {e : Element δ}
    (hroot : rendered render cap root = e.node) :
    Pageless render cap root ↔ kind e = .document ∧
      ∀ n p, .node n ∈ Markup.pieces e.children → rendered render cap n = p.node →
        kind p ≠ .page := by
  constructor
  · rintro ⟨e', hroot', hpageless⟩
    rw [hroot, ← Markup.Node.element?_eq_some, Markup.Element.element?_node] at hroot'
    cases hroot'
    exact hpageless
  · intro hpageless
    exact ⟨e, hroot, hpageless⟩

/-- **A tree fails with its first fault**, where nodes are rendered at least once. -/
theorem typeset_failure {cap : Nat} (hcap : cap = max s.componentLimit 1) {root : Node δ}
    {f : Fault} :
    typeset render s root = .error f ↔
      firstFault render cap s root = some f ∨
        firstFault render cap s root = none ∧ Pageless render cap root ∧ f = .noPages := by
  have hexpand := @expand_eq δ render s.componentLimit root
  rw [← hcap] at hexpand
  rw [firstFault, walk, walkNode]
  cases he : (rendered render cap root).element? with
  | none =>
    rw [he] at hexpand
    simp [typeset, hexpand, bind, Except.bind, firstIn, Sight.faults]
  | some e =>
    rw [he] at hexpand
    rw [pageless_iff (Markup.Node.element?_eq_some.1 he)]
    simp only [walkRoot]
    by_cases hdoc : kind e = .document
    · have hown : (Sight.element 0 e).faults s = [] := by
        simp [Sight.faults, pageFaults, imageFaults, hdoc]
      rw [typeset_of_document hexpand hdoc, setDocument_eq_error_iff hcap, if_pos hdoc,
        firstIn_cons, hown]
      simp only [expand_eq_ok_iff, ← hcap, hdoc, true_and, List.head?_nil, Option.none_or]
    · rw [typeset_of_not_document hexpand hdoc, if_neg hdoc,
        ← setElement_failure hcap (Nat.add_zero _) .initial e]
      cases setElement render s (s.depthLimit + 1) .initial e <;> simp [Except.map, hdoc]

/-! ## The first fault of a tree -/

/-- A child of a document that comes to no page is as good as none, whatever is in it. -/
theorem typeset_dropped {tag : String} {props : Markup.Props}
    {cs cs' : List (Markup.Child δ)} {before after : List (Piece δ)} {n : Node δ} {p : Element δ}
    (hdoc : Document.Kind.ofTag tag = .document)
    (hcs : Markup.pieces cs = before ++ .node n :: after)
    (hcs' : Markup.pieces cs' = before ++ after)
    (hn : expand render s.componentLimit n = .ok p) (hpage : kind p ≠ .page) :
    typeset render s (.element tag props cs) = typeset render s (.element tag props cs') := by
  have hsheets : ∀ t,
      setSheets (expand render s.componentLimit) (setElement render s s.depthLimit t) s.pageSize
        (Markup.pieces cs) =
      setSheets (expand render s.componentLimit) (setElement render s s.depthLimit t) s.pageSize
        (Markup.pieces cs') := by
    intro t
    rw [hcs, hcs', setSheets_append, setSheets_append, setSheets_of_not_page hn hpage]
  show typeset render s (Element.node ⟨tag, props, cs⟩) =
    typeset render s (Element.node ⟨tag, props, cs'⟩)
  rw [typeset_of_document (expand_node _ ⟨tag, props, cs⟩) hdoc,
    typeset_of_document (expand_node _ ⟨tag, props, cs'⟩) hdoc]
  simp only [setDocument]
  rw [hsheets]
  rfl

/-- **A tree is typeset exactly if it has no fault**, and a document has a page; otherwise it fails
with its first fault. A child of a document that is no page does not matter, whatever is in it. -/
theorem typeset_firstFault (hlimit : 1 ≤ s.componentLimit) :
    (∀ (root : Node δ) (f : Fault), typeset render s root = .error f ↔
      firstFault render s.componentLimit s root = some f ∨
        firstFault render s.componentLimit s root = none ∧ Pageless render s.componentLimit root ∧
          f = .noPages) ∧
    ∀ (tag : String) (props : Markup.Props) (cs cs' : List (Markup.Child δ))
      (before after : List (Piece δ)) (n : Node δ) (p : Element δ),
      Document.Kind.ofTag tag = .document → Markup.pieces cs = before ++ .node n :: after →
      Markup.pieces cs' = before ++ after → rendered render s.componentLimit n = p.node →
      kind p ≠ .page →
        typeset render s (.element tag props cs) = typeset render s (.element tag props cs') := by
  have hcap : s.componentLimit = max s.componentLimit 1 := (max_eq_left hlimit).symm
  refine ⟨fun root f => typeset_failure hcap, ?_⟩
  intro tag props cs cs' before after n p hdoc hcs hcs' hn hpage
  exact typeset_dropped hdoc hcs hcs' (expand_of_rendered le_rfl hn) hpage

/-- A component that renders itself. -/
def again : Rendering Unit := fun definition props => .component "Again" props definition

/-- An image without a source, in a text. -/
def blankImage : Node Unit := .element "text" .empty [.node (.element "img" .empty [])]

/-- A page with two faults, with one more before and one more after it that are not its own. -/
def faultyPages : List (Markup.Child Unit) :=
  [.list [.text "unbound", .node (.element "page" .empty
    [.node blankImage, .list [.node (.component "Again" .empty ())]])],
    .node (.component "Again" .empty ())]

/-- The first fault is that of the image on the page. The image on no page is none. -/
theorem faultyPages_firstFault :
    1 ≤ Settings.Typesetting.default.componentLimit ∧
    typeset again .default (.element "document" .empty (.node blankImage :: faultyPages)) =
      .error .noImageSource ∧
    typeset again .default (.element "document" .empty (.node blankImage :: faultyPages)) =
      typeset again .default (.element "document" .empty faultyPages) := by
  obtain ⟨hfails, hdropped⟩ := @typeset_firstFault _ again .default (by decide)
  refine ⟨by decide, (hfails _ _).2 (.inl rfl), ?_⟩
  exact hdropped "document" .empty _ _ [] _ blankImage ⟨"text", .empty, _⟩ (by decide) rfl rfl rfl
    (by decide)

/-- A component that renders an element. -/
def once : Rendering Unit := fun _ _ => .element "view" .empty []

/-- With a limit of zero, the component at the root comes to no element within the limit, and is
typeset all the same. -/
theorem typeset_zeroLimit :
    firstFault once 0 ⟨0, 128, .a4⟩ (.component "A" .empty ()) =
        some (.endlessComponent "A" "A" 0) ∧
      ∃ d, typeset once ⟨0, 128, .a4⟩ (.component "A" .empty ()) = .ok d :=
  ⟨rfl, _, rfl⟩

end Galley.Typeset
