import Galley.Proofs.Typeset.FirstFault
import Galley.Proofs.Typeset.Origin

/-!
# The course of typesetting

A component may render itself, so a tree may be endless, and nothing in it gets smaller on the way
down. This file takes typesetting apart into single steps and shows that they come to an end.

What is left to do is a list of jobs (`Job`): to render a node once more, or to enter an element.
The first job is done (`Job.work`), and the jobs that it leaves take its place (`Step`). Rendering
once calls one component, and an element that is entered leaves a job for each node within it.

**Theorem (`typeset_ends`).** From any jobs there are only finitely many steps. The steps from the
root of a tree end with no jobs left if the tree is typeset or has no page, and at a job that
faults if typesetting fails with that fault. On the way elements are come to whose depth is at most
one more than the limit, and those at that depth end it. The blocks of the document come from
elements whose depth is within the limit.

A job has a rank (`Job.rank`): the levels that are left and then the renderings that are left. The
jobs that it leaves, however many, are of smaller rank (`Job.rank_lt`), which is a move of the hydra
game. That the steps end as typesetting does comes from what is still to be seen (`Job.sights`): no
step changes the first fault of it (`Step.firstIn_eq`).
-/

namespace Galley.Typeset

open Document (Block)
open Markup (Element Node Piece Rendering)
open Relation (CutExpand ReflTransGen)

variable {δ : Type}

/-! ## Jobs and steps -/

/-- Where a node stands: at the root, in a document, or in an element, where it has a depth. -/
inductive Place where
  | root
  | sheet
  | inside (depth : Nat)

/-- The depth of what stands at a place. -/
def Place.depth : Place → Nat
  | root => 0
  | sheet => 1
  | inside depth => depth

/-- Something to do. -/
inductive Job (δ : Type) where
  /-- Go on with a node, which the node `first` became when it was rendered `count` times. -/
  | render (place : Place) (first : Node δ) (count : Nat) (n : Node δ)
  | enter (depth : Nat) (e : Element δ)

/-- The jobs of the nodes among pieces. -/
def nodeJobs (place : Place) (ps : List (Piece δ)) : List (Job δ) :=
  ps.filterMap fun
    | .node n => some (.render place n 0 n)
    | .text _ => none

/-- The jobs at an element that a node became. A document is not entered, only its pages are, and
what else stands in it is left alone. -/
def arrive : Place → Element δ → List (Job δ)
  | .root, e =>
    if kind e = .document then nodeJobs .sheet (Markup.pieces e.children) else [.enter 0 e]
  | .sheet, e => if kind e = .page then [.enter 1 e] else []
  | .inside depth, e => [.enter depth e]

/-- The jobs that a job leaves, or its fault. -/
def Job.work (render : Rendering δ) (s : Settings.Typesetting) :
    Job δ → Except Fault (List (Job δ))
  | .render place _ _ (.element tag props children) => .ok (arrive place ⟨tag, props, children⟩)
  | .render place first count (.component name props definition) =>
    if count < max s.componentLimit 1 then
      .ok [.render place first (count + 1) (render definition props)]
    else .error (.endlessComponent first.name name s.componentLimit)
  | .enter depth e =>
    if s.depthLimit < depth then .error (.tooDeep e.tag s.depthLimit)
    else (content s.pageSize e).map fun _ =>
      nodeJobs (.inside (depth + 1)) (Markup.pieces e.children)

/-- One step: the first job is done. -/
inductive Step (render : Rendering δ) (s : Settings.Typesetting) :
    List (Job δ) → List (Job δ) → Prop
  | work {job : Job δ} {new rest : List (Job δ)} (h : job.work render s = .ok new) :
      Step render s (job :: rest) (new ++ rest)

/-- Any number of steps. -/
abbrev Steps (render : Rendering δ) (s : Settings.Typesetting) :
    List (Job δ) → List (Job δ) → Prop :=
  ReflTransGen (Step render s)

/-- What there is to do for a tree. -/
def begin (root : Node δ) : List (Job δ) := [.render .root root 0 root]

/-- The jobs cannot go on, and a result goes with that. -/
inductive Finished (render : Rendering δ) (s : Settings.Typesetting) :
    List (Job δ) → Except Fault Document → Prop
  | done {d : Document} : Finished render s [] (.ok d)
  | pageless : Finished render s [] (.error .noPages)
  | fault {job : Job δ} {rest : List (Job δ)} {f : Fault} (h : job.work render s = .error f) :
      Finished render s (job :: rest) (.error f)

variable {render : Rendering δ} {s : Settings.Typesetting} {root : Node δ}

theorem mem_nodeJobs {place : Place} {ps : List (Piece δ)} {job : Job δ} :
    job ∈ nodeJobs place ps ↔ ∃ n, .node n ∈ ps ∧ job = .render place n 0 n := by
  rw [nodeJobs, List.mem_filterMap]
  constructor
  · rintro ⟨p, hp, hjob⟩
    cases p with
    | text t => cases hjob
    | node n =>
      cases hjob
      exact ⟨n, hp, rfl⟩
  · rintro ⟨n, hn, rfl⟩
    exact ⟨_, hn, rfl⟩

/-- **All that can come of a job** that does not fault. -/
theorem Job.work_eq_ok {job : Job δ} {new : List (Job δ)} (h : job.work render s = .ok new) :
    (∃ place first count e, job = .render place first count (Element.node e) ∧
        new = arrive place e) ∨
      (∃ place first count name props definition,
        job = .render place first count (.component name props definition) ∧
        count < max s.componentLimit 1 ∧
        new = [.render place first (count + 1) (render definition props)]) ∨
      (∃ depth e, job = .enter depth e ∧ depth ≤ s.depthLimit ∧
        new = nodeJobs (.inside (depth + 1)) (Markup.pieces e.children)) := by
  cases job with
  | render place first count n =>
    cases n with
    | element tag props children =>
      cases h
      exact .inl ⟨place, first, count, ⟨tag, props, children⟩, rfl, rfl⟩
    | component name props definition =>
      rw [work] at h
      split at h
      · rename_i hcount
        cases h
        exact .inr (.inl ⟨place, first, count, name, props, definition, rfl, hcount, rfl⟩)
      · cases h
  | enter depth e =>
    rw [work] at h
    split at h
    · cases h
    · rename_i hdepth
      cases hc : content s.pageSize e with
      | error f =>
        rw [hc] at h
        cases h
      | ok c =>
        rw [hc] at h
        cases h
        exact .inr (.inr ⟨depth, e, rfl, Nat.le_of_not_lt hdepth, rfl⟩)

/-! ## The steps come to an end -/

/-- The levels that are left and the renderings that are left. Entering comes after all rendering. -/
def Job.rank (s : Settings.Typesetting) : Job δ → Nat ×ₗ Nat
  | .render place _ count _ =>
    toLex (s.depthLimit + 1 - place.depth, max s.componentLimit 1 - count + 1)
  | .enter depth _ => toLex (s.depthLimit + 1 - depth, 0)

theorem enter_rank_lt (place : Place) (first n : Node δ) (count : Nat) (e : Element δ) :
    (Job.enter place.depth e).rank s < (Job.render place first count n).rank s :=
  Prod.Lex.toLex_lt_toLex.2 (.inr ⟨rfl, Nat.succ_pos _⟩)

theorem arrive_rank_lt {place : Place} {first n : Node δ} {count : Nat} {e : Element δ} :
    ∀ job ∈ arrive place e, job.rank s < (Job.render place first count n).rank s := by
  intro job hjob
  cases place with
  | root =>
    rw [arrive] at hjob
    split at hjob
    · obtain ⟨m, -, rfl⟩ := mem_nodeJobs.1 hjob
      exact Prod.Lex.toLex_lt_toLex.2 (.inl (by simp [Place.depth]))
    · obtain rfl := List.mem_singleton.1 hjob
      exact enter_rank_lt .root first n count e
  | sheet =>
    rw [arrive] at hjob
    split at hjob
    · obtain rfl := List.mem_singleton.1 hjob
      exact enter_rank_lt .sheet first n count e
    · exact absurd hjob List.not_mem_nil
  | inside depth =>
    obtain rfl := List.mem_singleton.1 hjob
    exact enter_rank_lt (.inside depth) first n count e

/-- **The jobs that a job leaves are smaller.** -/
theorem Job.rank_lt {job : Job δ} {new : List (Job δ)} (h : job.work render s = .ok new) :
    ∀ job' ∈ new, job'.rank s < job.rank s := by
  intro job' hmem
  obtain ⟨place, first, count, e, rfl, rfl⟩ | ⟨place, first, count, name, props, definition, rfl,
    hcount, rfl⟩ | ⟨depth, e, rfl, hdepth, rfl⟩ := work_eq_ok h
  · exact arrive_rank_lt job' hmem
  · obtain rfl := List.mem_singleton.1 hmem
    exact Prod.Lex.toLex_lt_toLex.2 (.inr ⟨rfl, by dsimp only; omega⟩)
  · obtain ⟨n, -, rfl⟩ := mem_nodeJobs.1 hmem
    exact Prod.Lex.toLex_lt_toLex.2 (.inl (by simp only [Place.depth]; omega))

/-- The ranks of jobs, in no order. -/
def ranks (s : Settings.Typesetting) (jobs : List (Job δ)) : Multiset (Nat ×ₗ Nat) :=
  (jobs.map (Job.rank s) : List _)

/-- A step takes one rank away and puts smaller ones in its place. -/
theorem Step.cutExpand {jobs after : List (Job δ)} (h : Step render s jobs after) :
    CutExpand (· < ·) (ranks s after) (ranks s jobs) := by
  cases h with
  | @work job new rest hwork =>
    refine ⟨ranks s new, job.rank s, ?_, ?_⟩
    · intro r hr
      obtain ⟨job', hjob', rfl⟩ := List.mem_map.1 (Multiset.mem_coe.1 hr)
      exact Job.rank_lt hwork job' hjob'
    · simp only [ranks, List.map_append, List.map_cons, ← Multiset.coe_add, ← Multiset.cons_coe,
        ← Multiset.singleton_add]
      abel

/-- **There are only finitely many steps from any jobs.** -/
theorem step_wellFounded (render : Rendering δ) (s : Settings.Typesetting) :
    WellFounded fun after jobs : List (Job δ) => Step render s jobs after :=
  Subrelation.wf Step.cutExpand (InvImage.wf (ranks s) (wellFounded_lt.cutExpand))

/-- The steps from any jobs end with none left or at one that faults. -/
theorem exists_stuck (jobs : List (Job δ)) : ∃ last, Steps render s jobs last ∧
    (last = [] ∨ ∃ job rest f, last = job :: rest ∧ job.work render s = .error f) := by
  induction jobs using (step_wellFounded render s).induction with
  | _ jobs ih =>
    cases jobs with
    | nil => exact ⟨[], .refl, .inl rfl⟩
    | cons job rest =>
      cases hwork : job.work render s with
      | error f => exact ⟨job :: rest, .refl, .inr ⟨job, rest, f, rfl, hwork⟩⟩
      | ok new =>
        obtain ⟨last, hsteps, hlast⟩ := ih _ (.work hwork)
        exact ⟨last, .head (.work hwork) hsteps, hlast⟩

/-! ## What the steps come to -/

/-- A node stands at a place of a tree. -/
def Place.Holds (render : Rendering δ) (s : Settings.Typesetting) (root : Node δ) :
    Place → Node δ → Prop
  | .root, n => n = root
  | .sheet, n => ∃ e, expand render s.componentLimit root = .ok e ∧ kind e = .document ∧
      .node n ∈ Markup.pieces e.children
  | .inside depth, n => ∃ around e, depth = around + 1 ∧ around ≤ s.depthLimit ∧
      Reached render s root around e ∧ .node n ∈ Markup.pieces e.children

/-- The job is about the tree: its node comes from one that stands in its place, or its element is
reached at its depth, which is at most one more than the limit. -/
def Job.About (render : Rendering δ) (s : Settings.Typesetting) (root : Node δ) : Job δ → Prop
  | .render place first count n => count ≤ max s.componentLimit 1 ∧
      rendered render count first = n ∧ place.Holds render s root first
  | .enter depth e => Reached render s root depth e ∧ depth ≤ s.depthLimit + 1

theorem begin_about : ∀ job ∈ begin root, Job.About render s root job := by
  intro job hjob
  obtain rfl := List.mem_singleton.1 hjob
  exact ⟨Nat.zero_le _, rfl, rfl⟩

theorem arrive_about {place : Place} {first : Node δ} {e : Element δ}
    (hplace : place.Holds render s root first)
    (he : expand render s.componentLimit first = .ok e) :
    ∀ job ∈ arrive place e, job.About render s root := by
  intro job hjob
  cases place with
  | root =>
    obtain rfl := hplace
    rw [arrive] at hjob
    split at hjob
    · rename_i hdoc
      obtain ⟨n, hn, rfl⟩ := mem_nodeJobs.1 hjob
      exact ⟨Nat.zero_le _, rfl, e, he, hdoc, hn⟩
    · rename_i hdoc
      obtain rfl := List.mem_singleton.1 hjob
      exact ⟨.root he hdoc, Nat.zero_le _⟩
  | sheet =>
    obtain ⟨top, htop, hdoc, hn⟩ := hplace
    rw [arrive] at hjob
    split at hjob
    · rename_i hpage
      obtain rfl := List.mem_singleton.1 hjob
      exact ⟨.page htop hdoc hn he hpage, Nat.le_add_left 1 _⟩
    · exact absurd hjob List.not_mem_nil
  | inside depth =>
    obtain ⟨around, parent, rfl, hdepth, hparent, hn⟩ := hplace
    obtain rfl := List.mem_singleton.1 hjob
    exact ⟨.child hparent hn he, Nat.succ_le_succ hdepth⟩

/-- **A job about a tree leaves only jobs about it.** -/
theorem Job.About.work {job : Job δ} {new : List (Job δ)} (hjob : job.About render s root)
    (h : job.work render s = .ok new) : ∀ job' ∈ new, job'.About render s root := by
  intro job' hmem
  obtain ⟨place, first, count, e, rfl, rfl⟩ | ⟨place, first, count, name, props, definition, rfl,
    hcount, rfl⟩ | ⟨depth, e, rfl, hdepth, rfl⟩ := work_eq_ok h
  · obtain ⟨hcount, hn, hplace⟩ := hjob
    exact arrive_about hplace (expand_eq_ok_iff.2 (rendered_of_le hcount hn)) job' hmem
  · obtain ⟨-, hn, hplace⟩ := hjob
    obtain rfl := List.mem_singleton.1 hmem
    refine ⟨hcount, ?_, hplace⟩
    rw [Nat.add_comm, rendered_add, hn]
    rfl
  · obtain ⟨n, hn, rfl⟩ := mem_nodeJobs.1 hmem
    exact ⟨Nat.zero_le _, rfl, depth, e, rfl, hdepth, hjob.1, hn⟩

/-- All jobs that the steps from a tree come to are about it. -/
theorem Steps.about {jobs : List (Job δ)} (h : Steps render s (begin root) jobs) :
    ∀ job ∈ jobs, job.About render s root := by
  induction h with
  | refl => exact begin_about
  | tail _ hstep ih =>
    cases hstep with
    | work hwork =>
      intro job hjob
      rcases List.mem_append.1 hjob with hjob | hjob
      · exact (ih _ List.mem_cons_self).work hwork job hjob
      · exact ih job (List.mem_cons_of_mem _ hjob)

/-! ## What is still to be seen -/

/-- The walk of an element that stands at a place. -/
def Place.walk (render : Rendering δ) (s : Settings.Typesetting) :
    Place → Element δ → List (Sight δ)
  | .root => walkRoot render (max s.componentLimit 1) s
  | .sheet => walkSheet render (max s.componentLimit 1) s
  | .inside depth => walkElement render (max s.componentLimit 1) (s.depthLimit + 1 - depth) depth

/-- The sights that a job is there for. -/
def Job.sights (render : Rendering δ) (s : Settings.Typesetting) : Job δ → List (Sight δ)
  | .render place first count n =>
    match (rendered render (max s.componentLimit 1 - count) n).element? with
    | some e => place.walk render s e
    | none => [.endless first (rendered render (max s.componentLimit 1 - count) n).name]
  | .enter depth e =>
    walkElement render (max s.componentLimit 1) (s.depthLimit + 1 - depth) depth e

theorem begin_sights :
    (begin root).flatMap (Job.sights render s) = walk render (max s.componentLimit 1) s root :=
  List.flatMap_singleton _ _

theorem nodeJobs_sights (place : Place) (ps : List (Piece δ)) :
    (nodeJobs place ps).flatMap (Job.sights render s) =
      ps.flatMap (walkPiece render (max s.componentLimit 1) (place.walk render s)) := by
  induction ps with
  | nil => rfl
  | cons p ps ih =>
    rw [List.flatMap_cons, ← ih]
    cases p <;> rfl

/-- A document has no faults of its own. -/
theorem arrive_firstIn (place : Place) (e : Element δ) :
    firstIn s ((arrive place e).flatMap (Job.sights render s)) =
      firstIn s (place.walk render s e) := by
  cases place with
  | root =>
    rw [arrive, Place.walk, walkRoot]
    split
    · rename_i hdoc
      have hown : (Sight.element 0 e).faults s = [] := by
        simp [Sight.faults, pageFaults, imageFaults, hdoc]
      rw [nodeJobs_sights, firstIn_cons, hown]
      rfl
    · rw [List.flatMap_singleton]
      rfl
  | sheet =>
    rw [arrive, Place.walk, walkSheet]
    split
    · rw [List.flatMap_singleton]
      rfl
    · rfl
  | inside depth =>
    rw [arrive, List.flatMap_singleton]
    rfl

/-- **The first fault of a job** is its own, or else the first one of the jobs that it leaves. -/
theorem Job.firstIn_eq (job : Job δ) :
    firstIn s (job.sights render s) =
      match job.work render s with
      | .ok new => firstIn s (new.flatMap (Job.sights render s))
      | .error f => some f := by
  cases job with
  | render place first count n =>
    cases n with
    | element tag props children =>
      have hstays := @rendered_node δ render (max s.componentLimit 1 - count) ⟨tag, props, children⟩
      rw [Element.node] at hstays
      rw [sights, hstays]
      exact (arrive_firstIn place _).symm
    | component name props definition =>
      rw [sights, work]
      split_ifs with hcount
      · obtain ⟨left, hleft⟩ := Nat.exists_eq_add_of_lt hcount
        have hnow : max s.componentLimit 1 - count = left + 1 := by omega
        have hthen : max s.componentLimit 1 - (count + 1) = left := by omega
        show firstIn s _ = firstIn s (List.flatMap (sights render s) [_])
        rw [List.flatMap_singleton, sights, hnow, hthen, rendered_component]
      · have hnone : max s.componentLimit 1 - count = 0 := by omega
        rw [hnone]
        rfl
  | enter depth e =>
    rw [sights, work]
    split_ifs with hdepth
    · have hnone : s.depthLimit + 1 - depth = 0 := by omega
      rw [hnone]
      simp [walkElement, firstIn, Sight.faults, hdepth]
    · have hlevels : s.depthLimit + 1 - depth = s.depthLimit - depth + 1 := by omega
      have hbelow : s.depthLimit + 1 - (depth + 1) = s.depthLimit - depth := by omega
      rw [hlevels, walkElement, firstIn_cons, Sight.faults, if_neg hdepth, List.nil_append,
        ← content_failure s.pageSize]
      cases content s.pageSize e with
      | error f => rfl
      | ok c =>
        show firstIn s _ = firstIn s _
        rw [nodeJobs_sights, Place.walk, hbelow]

/-- **No step changes the first fault.** -/
theorem Step.firstIn_eq {jobs after : List (Job δ)} (h : Step render s jobs after) :
    firstIn s (jobs.flatMap (Job.sights render s)) =
      firstIn s (after.flatMap (Job.sights render s)) := by
  cases h with
  | work hwork =>
    rw [List.flatMap_cons, List.flatMap_append, firstIn_append, firstIn_append, Job.firstIn_eq,
      hwork]

theorem Steps.firstFault_eq {jobs : List (Job δ)} (h : Steps render s (begin root) jobs) :
    firstFault render (max s.componentLimit 1) s root =
      firstIn s (jobs.flatMap (Job.sights render s)) := by
  induction h with
  | refl => rw [begin_sights, firstFault]
  | tail _ hstep ih => rw [ih, hstep.firstIn_eq]

/-- Typesetting fails with the fault of a job that the steps come to. -/
theorem Steps.typeset_eq_error {job : Job δ} {rest : List (Job δ)} {f : Fault}
    (h : Steps render s (begin root) (job :: rest)) (hwork : job.work render s = .error f) :
    typeset render s root = .error f := by
  refine (typeset_failure rfl).2 (.inl ?_)
  rw [h.firstFault_eq, List.flatMap_cons, firstIn_append, Job.firstIn_eq, hwork]
  rfl

/-- **The steps finish as typesetting does.** -/
theorem Steps.exists_finished (render : Rendering δ) (s : Settings.Typesetting) (root : Node δ) :
    ∃ last, Steps render s (begin root) last ∧ Finished render s last (typeset render s root) := by
  obtain ⟨last, hsteps, rfl | ⟨job, rest, f, rfl, hwork⟩⟩ := exists_stuck (begin root)
  · refine ⟨[], hsteps, ?_⟩
    cases htypeset : typeset render s root with
    | ok d => exact .done
    | error f =>
      rcases (typeset_failure rfl).1 htypeset with hfault | ⟨-, -, rfl⟩
      · rw [hsteps.firstFault_eq] at hfault
        cases hfault
      · exact .pageless
  · rw [hsteps.typeset_eq_error hwork]
    exact ⟨_, hsteps, .fault hwork⟩

/-! ## The end -/

/-- **Typesetting ends**, and only elements within the limit of depth are entered on the way. -/
theorem typeset_ends (render : Rendering δ) (s : Settings.Typesetting) :
    (WellFounded fun after jobs : List (Job δ) => Step render s jobs after) ∧
    ∀ root : Node δ,
      (∃ last, Steps render s (begin root) last ∧
        Finished render s last (typeset render s root)) ∧
      (∀ depth e rest, Steps render s (begin root) (.enter depth e :: rest) →
        Reached render s root depth e ∧ depth ≤ s.depthLimit + 1 ∧
        (∀ after, Step render s (.enter depth e :: rest) after → depth ≤ s.depthLimit) ∧
        (depth = s.depthLimit + 1 → typeset render s root = .error (.tooDeep e.tag s.depthLimit) ∧
          (Fault.tooDeep e.tag s.depthLimit).report.code = .componentDepthExceeded)) ∧
      ∀ d, typeset render s root = .ok d → ∀ b ∈ d.allBlocks,
        ∃ depth e, depth ≤ s.depthLimit ∧ Reached render s root depth e ∧
          (BlockOf render s depth e b ∨
            ∃ t parent, b = .plain t ∧ .text t ∈ Markup.pieces e.children ∧
              BlockOf render s depth e parent ∧ b ∈ parent.children) := by
  refine ⟨step_wellFounded render s, fun root => ⟨Steps.exists_finished render s root, ?_, ?_⟩⟩
  · intro depth e rest hsteps
    obtain ⟨hreached, hdepth⟩ : Job.About render s root (.enter depth e) :=
      hsteps.about _ List.mem_cons_self
    refine ⟨hreached, hdepth, fun after hstep => ?_, ?_⟩
    · cases hstep with
      | work hwork =>
        by_contra hdeep
        rw [Job.work, if_pos (Nat.lt_of_not_le hdeep)] at hwork
        cases hwork
    · rintro rfl
      exact ⟨hsteps.typeset_eq_error (if_pos (Nat.lt_succ_self _)), rfl⟩
  · intro d hd b hb
    cases typeset_origin hd hb with
    | element he hblock => exact ⟨_, _, hblock.depth_le, he, .inl hblock⟩
    | text he hparent ht hmem =>
      exact ⟨_, _, hparent.depth_le, he, .inr ⟨_, _, rfl, ht, hparent, hmem⟩⟩

/-! ## A nest -/

/-- A nest without end, as a component. -/
def nest : Node Unit := .component "Nest" .empty ()

/-- What a nest is: two nests, with a text between them. -/
def nestView : Element Unit := ⟨"view", .empty, [.node nest, .list [.text "egg", .node nest]]⟩

/-- All components are nests. -/
def nesting : Rendering Unit := fun _ _ => nestView.node

/-- Settings with one level below the root. -/
def shallow : Settings.Typesetting := ⟨1, 1, .a4⟩

/-- Two levels down the nest ends, with one more nest to come on each level. A single egg on a page
is typeset, and comes from within the limit. -/
theorem nest_ends :
    Steps nesting shallow (begin nest)
        [.enter 2 nestView, .render (.inside 2) nest 0 nest, .render (.inside 1) nest 0 nest] ∧
      typeset nesting shallow nest = .error (.tooDeep "view" 1) ∧
      (Fault.tooDeep "view" 1).report.code = .componentDepthExceeded ∧
      ∃ d, typeset nesting shallow (.element "page" .empty [.text "egg"]) = .ok d ∧
        d.allBlocks.length = 1 ∧ ∀ b ∈ d.allBlocks, ∃ depth e, depth ≤ 1 ∧
          Reached nesting shallow (.element "page" .empty [.text "egg"]) depth e := by
  obtain ⟨-, hends⟩ := typeset_ends nesting shallow
  obtain ⟨-, hentered, -⟩ := hends nest
  -- On each level there are three steps: to render the nest, to see what it is, and to enter it.
  have hsteps : Steps nesting shallow (begin nest)
      [.enter 2 nestView, .render (.inside 2) nest 0 nest, .render (.inside 1) nest 0 nest] := by
    iterate 8 refine .head (.work rfl) ?_
    exact .refl
  obtain ⟨-, -, -, hfault⟩ := hentered _ _ _ hsteps
  obtain ⟨hfails, hcode⟩ := hfault rfl
  obtain ⟨-, -, hblocks⟩ := hends (.element "page" .empty [.text "egg"])
  refine ⟨hsteps, hfails, hcode, _, rfl, rfl, fun b hb => ?_⟩
  obtain ⟨depth, e, hdepth, he, -⟩ := hblocks _ rfl b hb
  exact ⟨depth, e, hdepth, he⟩

end Galley.Typeset
