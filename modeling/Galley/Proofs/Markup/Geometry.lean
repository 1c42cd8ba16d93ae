import Galley.Proofs.Markup.Spelling
import Galley.Proofs.Page.Geometry

/-!
# The geometry that is declared in data

**Theorem (`read_isRead`, `Node.IsRead.element`).** In a tree that is read from a text, every node
is an element whose size and margin have finite numbers, if it declares any, and so are the nodes
within it, at any depth.

Reading goes into an object in two ways: into its properties, which come from two places of the
object, and into its children. All of these are parts of what is read (`Outline.ofMembers_finite`),
and so finite as data. A node within an element is itself read from a part
(`OnlyRead`, by induction on the value that the children are read from), so that one step from an
element to its nodes is enough here.
-/

namespace Galley.Markup

open Json (FiniteMembers)

variable {δ : Type}

/-! ## Properties -/

/-- Size and margin have finite numbers, if they are given. -/
structure Props.FiniteGeometry (p : Props) : Prop where
  size : ∀ size, p.size = some size → size.Finite
  margin : ∀ margin, p.margin = some margin → margin.Finite

namespace Props.FiniteGeometry

variable {p q : Props}

theorem empty : FiniteGeometry .empty := ⟨nofun, nofun⟩

theorem decodeField (hp : p.FiniteGeometry) {v : Json} (hv : v.Finite) {f : Field}
    (h : p.decodeField v f = .ok q) : q.FiniteGeometry := by
  cases f with
  | size =>
    obtain ⟨found, hdecode, rfl⟩ := map_eq_ok.1 h
    refine ⟨?_, hp.margin⟩
    intro size hsize
    obtain rfl : found = some size := hsize
    exact Page.Size.decode_finite (Json.decodeOption_eq_ok hdecode)
  | margin =>
    obtain ⟨found, hdecode, rfl⟩ := map_eq_ok.1 h
    refine ⟨hp.size, ?_⟩
    intro margin hmargin
    obtain rfl : found = some margin := hmargin
    exact Page.Margin.decode_finite hv (Json.decodeOption_eq_ok hdecode)
  | _ =>
    obtain ⟨_, -, rfl⟩ := map_eq_ok.1 h
    exact ⟨hp.size, hp.margin⟩

theorem decodeMembers (hp : p.FiniteGeometry) {given : List Field} {ms : Fields Json}
    (hms : FiniteMembers ms) (h : Props.decodeMembers given p ms = .ok q) : q.FiniteGeometry := by
  induction ms generalizing given p with
  | nil =>
    cases h
    exact hp
  | cons m ms ih =>
    obtain ⟨key, v⟩ := m
    obtain ⟨hv, hms⟩ := List.forall_mem_cons.1 hms
    rw [Props.decodeMembers] at h
    split at h
    · have hextra : ({ p with extra := p.extra.insert key v } : Props).FiniteGeometry :=
        ⟨hp.size, hp.margin⟩
      exact ih hextra hms h
    · split at h
      · cases h
      · obtain ⟨p', hp', h⟩ := bind_eq_ok.1 h
        exact ih (hp.decodeField hv hp') hms h

end Props.FiniteGeometry

/-! ## Outlines -/

namespace Outline

/-- All parts of the outline are finite. -/
structure Finite (o : Outline) : Prop where
  children : ∀ v, o.children = some v → v.Finite
  props : ∀ v, o.props = some v → v.Finite
  inline : FiniteMembers o.inline

theorem rest_finite {ms : Fields Json} (h : FiniteMembers ms) : FiniteMembers (rest ms) :=
  ((h.erase "type").erase "children").erase "props"

theorem ofShorthand_finite {ms : Fields Json} (h : FiniteMembers ms) (key target : String)
    {v : Json} (hv : v.Finite) : (ofShorthand key target v ms).Finite := by
  have herase : FiniteMembers (Fields.erase key ms) := h.erase key
  unfold ofShorthand
  by_cases htarget : target = "children"
  · rw [if_pos htarget]
    refine ⟨?_, fun w hw => herase.get? hw, rest_finite herase⟩
    intro w hw
    cases hw
    exact hv
  · rw [if_neg htarget]
    exact ⟨fun w hw => herase.get? hw, fun w hw => herase.get? hw,
      (rest_finite herase).insert target hv⟩

/-- **The parts of a finite object are finite.** -/
theorem ofMembers_finite {ms : Fields Json} (h : FiniteMembers ms) {o : Outline}
    (ho : ofMembers ms = .ok o) : o.Finite := by
  unfold ofMembers at ho
  split at ho
  · split at ho
    · cases ho
    · cases ho
      exact ⟨fun v hv => h.get? hv, fun v hv => h.get? hv, rest_finite h⟩
  · cases ho
  · split at ho
    · rename_i key target v hshorthand
      cases ho
      exact ofShorthand_finite h key target (h.get? (get?_of_shorthand? hshorthand))
    · cases ho

theorem addMissing_finite {ms es : Fields Json} (hms : FiniteMembers ms) (hes : FiniteMembers es) :
    FiniteMembers (addMissing ms es) := by
  induction es generalizing ms with
  | nil => exact hms
  | cons e es ih =>
    obtain ⟨key, v⟩ := e
    obtain ⟨hv, hes⟩ := List.forall_mem_cons.1 hes
    rw [addMissing]
    split
    · exact ih hms hes
    · exact ih (hms.insert key hv) hes

theorem properties_finite {o : Outline} (h : o.Finite) {ms : Fields Json}
    (hms : o.properties = .ok ms) : FiniteMembers ms := by
  have hnone : FiniteMembers [] := fun m hm => absurd hm List.not_mem_nil
  unfold properties at hms
  split at hms
  · cases hms
    exact addMissing_finite hnone h.inline
  · cases hms
    exact addMissing_finite hnone h.inline
  · rename_i explicit hprops
    cases hms
    cases h.props _ hprops with
    | object hexplicit => exact addMissing_finite hexplicit h.inline
  · cases hms

theorem readProps_finiteGeometry {o : Outline} (h : o.Finite) {p : Props}
    (hp : readProps o = .ok p) : p.FiniteGeometry := by
  unfold readProps at hp
  split at hp
  · cases hp
  · rename_i ms hms
    split at hp
    · rename_i p' hdecode
      cases hp
      exact Props.FiniteGeometry.empty.decodeMembers (properties_finite h hms) hdecode
    · cases hp

end Outline

/-! ## Nodes -/

/-- The node is read from data with finite numbers. -/
def Node.IsRead (n : Node δ) : Prop := ∃ v : Json, v.Finite ∧ readNode v = .ok n

/-- Every node among the pieces is read from data with finite numbers. -/
def OnlyRead (ps : List (Piece δ)) : Prop := ∀ n, .node n ∈ ps → n.IsRead

theorem onlyRead_nil : OnlyRead ([] : List (Piece δ)) := fun _ hn => absurd hn List.not_mem_nil

theorem onlyRead_text (t : String) : OnlyRead [(.text t : Piece δ)] := by
  intro n hn
  cases List.mem_singleton.1 hn

theorem OnlyRead.append {ps qs : List (Piece δ)} (hps : OnlyRead ps) (hqs : OnlyRead qs) :
    OnlyRead (ps ++ qs) := by
  intro n hn
  rcases List.mem_append.1 hn with hn | hn
  · exact hps n hn
  · exact hqs n hn

theorem readItems_onlyRead {items : List Json} {index : Nat} {cs : List (Child δ)}
    (hitems : ∀ v ∈ items, ∀ c : Child δ, readChild v = .ok c → OnlyRead c.pieces)
    (h : readItems index items = .ok cs) : OnlyRead (pieces cs) := by
  induction items generalizing index cs with
  | nil =>
    rw [readItems] at h
    cases h
    exact onlyRead_nil
  | cons v items ih =>
    obtain ⟨hv, hitems⟩ := List.forall_mem_cons.1 hitems
    rw [readItems] at h
    obtain ⟨c, hc, h⟩ := bind_eq_ok.1 h
    obtain ⟨cs', hcs, h⟩ := bind_eq_ok.1 h
    cases h
    rw [pieces]
    exact (hv c (Reading.within_eq_ok hc)).append (ih hitems hcs)

/-- **The nodes of a child are read**, by induction on the value: lists may stand in lists. -/
theorem readChild_onlyRead {v : Json} (hv : v.Finite) {c : Child δ} (h : readChild v = .ok c) :
    OnlyRead c.pieces := by
  induction hv generalizing c with
  | null | bool =>
    rw [readChild] at h
    cases h
    exact onlyRead_nil
  | int | float | text =>
    rw [readChild] at h
    cases h
    exact onlyRead_text _
  | list _ ih =>
    rw [readChild] at h
    obtain ⟨cs, hcs, h⟩ := bind_eq_ok.1 h
    cases h
    exact readItems_onlyRead (fun v hv c hc => ih v hv hc) hcs
  | object hms =>
    rw [readChild] at h
    obtain ⟨n, hn, h⟩ := bind_eq_ok.1 h
    cases h
    intro m hm
    cases List.mem_singleton.1 hm
    exact ⟨_, .object hms, hn⟩

theorem readPart_onlyRead {part : Option Json} (hpart : ∀ v, part = some v → v.Finite)
    {cs : List (Child δ)} (h : Outline.readPart part = .ok cs) : OnlyRead (pieces cs) := by
  cases part with
  | none =>
    cases h
    exact onlyRead_nil
  | some v =>
    have hv : v.Finite := hpart v rfl
    rw [Outline.readPart, readChildren.eq_def] at h
    split at h
    · cases h
      exact onlyRead_nil
    · cases hv with
      | list hitems => exact readItems_onlyRead (fun v hv c hc => readChild_onlyRead (hitems v hv) hc) h
    · obtain ⟨c, hc, h⟩ := bind_eq_ok.1 h
      cases h
      rw [pieces, pieces]
      exact (readChild_onlyRead hv (Reading.within_eq_ok hc)).append onlyRead_nil

/-- **A node that is read is an element** with finite geometry, and the nodes within it are read. -/
theorem Node.IsRead.element {n : Node δ} (h : n.IsRead) :
    ∃ e : Element δ, n = e.node ∧ e.props.FiniteGeometry ∧ OnlyRead (pieces e.children) := by
  obtain ⟨v, hv, hread⟩ := h
  cases hv with
  | object hms =>
    rw [readNode_object] at hread
    split at hread
    · cases hread
    · rename_i o ho
      have hfinite : o.Finite := Outline.ofMembers_finite hms ho
      obtain ⟨children, hchildren, hread⟩ := bind_eq_ok.1 hread
      obtain ⟨props, hprops, hread⟩ := bind_eq_ok.1 hread
      cases hread
      exact ⟨⟨o.tag, props, children⟩, rfl, Outline.readProps_finiteGeometry hfinite hprops,
        readPart_onlyRead hfinite.children hchildren⟩
  | _ =>
    rw [readNode] at hread
    · cases hread
    · exact fun ms hms => by cases hms

/-- **What is read from a text** has finite numbers only. -/
theorem read_isRead {text : String} {n : Node δ} (h : Node.read text = .ok n) : n.IsRead := by
  unfold Node.read at h
  split at h
  · cases h
  · rename_i v hv
    unfold Node.ofJson at h
    split at h
    · rename_i m hm
      cases h
      exact ⟨v, Json.read_finite hv, hm⟩
    · cases h

end Galley.Markup
