import Galley.Proofs.Asset.History
import Galley.Proofs.Press.Assembly

/-!
# The image cache is not seen

An image is kept under its address, in the name of whoever fetched it first. Others get it in their
own names, so in a world that answers alike they get what they would have fetched.

**Theorem (`resolveImage_transparent`).** Whatever was resolved before, in any order and with any
clears in between (`ReachedByCalls`), an image has the outcome that it has without kept images, and the
images of a document are the same, in whatever order they are fetched.

A store is *faithful* if each image in it is the one that its address has in the world, apart from
its name. Every question of a resolution leaves a faithful store faithful, and so do clears; and
from one faithful store to the next a resolution ends alike (`resolveSource_faithful`). Growth is
not enough here, because a clear may come between two questions.
-/

namespace Galley.Asset

open Image (Source)

variable {α : Type} {A : Answers}

/-! ## Histories in a world that answers alike -/

/-- What the world outside answers in the event is what it always answers. -/
def Event.Steady (A : Answers) : Event → Prop
  | .asked _ (.fetch url mode) reply => reply = A.fetch url mode
  | .asked _ (.produce producer) source => source = A.produce producer
  | _ => True

/-- In a steady event, the answer to a question is that of the world. -/
theorem Event.Steady.answer_eq {B : Answers} {i : Nat} {r : Request} {st : Store}
    (h : Event.Steady A (.asked i r (B.answer st r))) : B.answer st r = A.answer st r := by
  cases r with
  | fetch | produce => exact h
  | cachedFont | keepFont | registered | cachedImage | keepImage => rfl

/-- The changes include registrations and clears. -/
structure Change.Open (ch : Change) : Prop where
  register : ∀ st family d, ch.Holds st (Store.register st family d)
  clear : ∀ st shelf, ch.Holds st (Shelf.clear st shelf)

section Ensures

variable {ch : Change} {Q : Nat → α → Store → Prop} {c d q : Shared α} {e : Event}
  {es : List Event}

/-- Each task ensures something of its own, from the store as it is. -/
def Shared.Ensures (A : Answers) (ch : Change) (Q : Nat → α → Store → Prop) (c : Shared α) : Prop :=
  ∀ (i : Nat) (p : Plan α), c.plans[i]? = some p → p.Ensures A ch (Q i) c.store

/-- **An event is a permitted change**, and after it each task ensures what it did before. -/
theorem Happens.ensures (h : Happens c e d) (hsteady : e.Steady A) (hopen : ch.Open)
    (hQ : ∀ i, ch.Keeps (Q i)) (hc : c.Ensures A ch Q) :
    ch.Holds c.store d.store ∧ d.Ensures A ch Q := by
  cases h with
  | registered family descriptor =>
    exact ⟨hopen.register _ _ _, fun i p hp => (hc i p hp).later (hQ i) (hopen.register _ _ _)⟩
  | cleared shelf =>
    exact ⟨hopen.clear _ _, fun i p hp => (hc i p hp).later (hQ i) (hopen.clear _ _)⟩
  | @asked i B ps st r next hi =>
    obtain ⟨hown, hnext⟩ := hc i _ hi st (ch.refl st)
    rw [← hsteady.answer_eq] at hnext
    refine ⟨hown, fun j p hp => ?_⟩
    by_cases hij : i = j
    · subst hij
      have hlt : i < ps.length := (List.getElem?_eq_some_iff.1 hi).1
      have hp' : (ps.set i (next (B.answer st r)))[i]? = some p := hp
      rw [List.getElem?_set_self hlt] at hp'
      obtain rfl := Option.some.inj hp'
      exact hnext
    · have hp' : (ps.set i (next (B.answer st r)))[j]? = some p := hp
      rw [List.getElem?_set_ne hij] at hp'
      exact (hc j p hp').later (hQ j) hown

/-- **Tasks end as each of them should**, in any steady history. -/
theorem History.ensures (h : History c es q) (hsteady : ∀ e ∈ es, e.Steady A) (hopen : ch.Open)
    (hQ : ∀ i, ch.Keeps (Q i)) (hc : c.Ensures A ch Q) :
    ch.Holds c.store q.store ∧ q.Ensures A ch Q := by
  induction h with
  | nil c => exact ⟨ch.refl _, hc⟩
  | cons h _ ih =>
    obtain ⟨hfirst, hd⟩ := h.ensures (hsteady _ List.mem_cons_self) hopen hQ hc
    obtain ⟨hrest, hq⟩ := ih (fun e he => hsteady e (List.mem_cons_of_mem _ he)) hd
    exact ⟨ch.trans hfirst hrest, hq⟩

end Ensures

/-! ## Faithful stores -/

/-- Every kept image is the one that its address has in the world, in whoever's name. -/
def Store.Faithful (A : Answers) (st : Store) : Prop :=
  ∀ url image, st.images.get? url = some image → ∃ id, imageAt A id url = .ok image

/-- Changes that leave a faithful store faithful. -/
def faithfully (A : Answers) : Change where
  Holds s t := s.Faithful A → t.Faithful A
  refl _ h := h
  trans h h' hs := h' (h hs)

theorem Store.faithful_of_empty {st : Store} (h : st.images = .empty) : st.Faithful A := by
  intro url image himage
  rw [h, Cache.get?_empty] at himage
  cases himage

theorem Store.Faithful.put {st : Store} (h : st.Faithful A) {id url : String} {image : LoadedImage}
    (himage : imageAt A id url = .ok image) :
    Store.Faithful A { st with images := st.images.put url image } := by
  intro url' image' hget
  rcases Cache.eq_some_of_get?_put hget with hold | ⟨rfl, rfl⟩
  · exact h url' image' hold
  · exact ⟨id, himage⟩

theorem faithfully_open : (faithfully A).Open := by
  constructor
  · intro st family d h
    exact h
  · intro st shelf h
    cases shelf with
    | fonts => exact h
    | images => exact Store.faithful_of_empty rfl

/-- What is said of a result alone is not undone. -/
theorem faithfully_keeps (P : α → Prop) : (faithfully A).Keeps fun a _ => P a :=
  fun _ _ _ _ h => h

/-! ## Images over faithful stores -/

section Faithful

variable {st : Store} {limit n : Nat} {id url : String} {source : Source}

/-- The outcome of an address in the world. -/
def urlAlone (A : Answers) (id url : String) : Except Fault LoadedImage :=
  if isRemote url then imageAt A id url else .error (.localFile url)

/-- The outcome of a source in the world, with a number of producers that may still be asked. -/
def sourceAlone (A : Answers) (limit : Nat) (id : String) : Nat → Source → Except Fault LoadedImage
  | _, .url url => urlAlone A id url
  | _, .dataUri uri => resolveDataUri id uri
  | _, .bytes bytes => resolveBytes id bytes
  | 0, .deferred _ => .error (.endlessSource id limit)
  | n + 1, .deferred producer =>
    match A.produce producer with
    | .error report => .error (.reported report)
    | .ok source => sourceAlone A limit id n source

theorem resolveUrl_faithful (hst : st.Faithful A) :
    (resolveUrl id url).outcome.Ensures A (faithfully A) (fun o _ => o = urlAlone A id url) st := by
  by_cases hremote : isRemote url = true
  · rw [resolveUrl_outcome hremote, urlAlone, if_pos hremote]
    -- A kept image is the one of the world, and is taken under the id in question.
    have hfound : ∀ {t : Store} {image : LoadedImage}, t.Faithful A →
        t.images.get? url = some image → .ok { image with id := id } = imageAt A id url := by
      intro t image ht himage
      obtain ⟨id', hid⟩ := ht url image himage
      exact (imageAt_id hid id).symm
    intro t ht
    refine ⟨(faithfully A).refl t, ?_⟩
    show (afterImageCache id url (t.images.get? url)).Ensures A (faithfully A) _ t
    cases hcached : t.images.get? url with
    | some image => exact hfound (ht hst) hcached
    | none =>
      show ((fetchImage id url).outcome.bind (renamed id)).Ensures A (faithfully A) _ t
      rw [fetchImage_outcome]
      intro u hu
      refine ⟨(faithfully A).refl u, ?_⟩
      show ((keepImage url (imageAt A id url)).outcome.bind (renamed id)).Ensures A (faithfully A) _ u
      cases himage : imageAt A id url with
      | error fault => rfl
      | ok image =>
        intro v hv
        have hv' : v.Faithful A := hv (hu (ht hst))
        refine ⟨fun _ => hv'.put himage, ?_⟩
        show Except.ok { (v.images.get? url).getD image with id := id } = .ok image
        cases hkept : v.images.get? url with
        | some other => exact (hfound hv' hkept).trans himage
        | none => exact (imageAt_id himage id).symm.trans himage
  · rw [resolveUrl_of_not_isRemote hremote, urlAlone, if_neg hremote]
    rfl

/-- **A source has its outcome in the world**, by induction on the producers that may be asked. -/
theorem resolveSource_faithful (hst : st.Faithful A) :
    (resolveSource limit id n source).outcome.Ensures A (faithfully A)
      (fun o _ => o = sourceAlone A limit id n source) st := by
  induction n generalizing source st with
  | zero =>
    cases source with
    | url url => exact resolveUrl_faithful hst
    | dataUri | bytes | deferred => rfl
  | succ n ih =>
    cases source with
    | url url => exact resolveUrl_faithful hst
    | dataUri | bytes => rfl
    | deferred producer =>
      rw [resolveSource_deferred, sourceAlone]
      intro t ht
      refine ⟨(faithfully A).refl t, ?_⟩
      show (afterProducer limit id n (A.produce producer)).Ensures A (faithfully A) _ t
      cases A.produce producer with
      | error report => rfl
      | ok next => exact ih (ht hst)

/-- A request for a font keeps no image. -/
theorem FontRequest.resolve_faithful (s : Settings.Fetching) (r : FontRequest) (st : Store) :
    (r.resolve s).outcome.Ensures A (faithfully A) (fun _ _ => True) st := by
  rw [resolve_outcome]
  intro t _
  refine ⟨(faithfully A).refl t, ?_⟩
  show (r.afterCache s (t.fonts.get? r.face)).Ensures A (faithfully A) _ t
  cases t.fonts.get? r.face with
  | some font => trivial
  | none =>
    intro u _
    refine ⟨(faithfully A).refl u, .bind ?_⟩
    refine ((r.load_loads s (u.registry.lookup? r.face)).ensures u u).mono ?_
    intro o v _
    cases o with
    | error fault => trivial
    | ok font => exact fun x _ => ⟨fun hx => hx, trivial⟩

end Faithful

end Galley.Asset

namespace Galley.Press

open Asset
open Document (ImageUsage)
open Image (Source)

variable {σ : Type} {w : World σ} {A : Answers} {s : Settings.Fetching}

/-! ## Stores that resolutions lead to -/

/-- What an item ends with in the world, if it is an image. -/
def EndsAlone (A : Answers) (s : Settings.Fetching) : Item → Outcome → Prop
  | .inl _, _ => True
  | .inr u, o => o = .inr (sourceAlone A s.producerLimit u.id s.producerLimit u.source)

theorem resolution_faithful {st : Store} (hst : st.Faithful A) (item : Item) :
    (resolution s item).Ensures A (faithfully A) (fun o _ => EndsAlone A s item o) st := by
  cases item with
  | inl r => exact .bind ((r.resolve_faithful s st).mono fun _ _ _ => trivial)
  | inr u => exact .bind ((resolveSource_faithful hst).mono fun _ _ ho => congrArg Sum.inr ho)

/-- What a task of some items is to end with. -/
def TaskEnds (A : Answers) (s : Settings.Fetching) (tasks : List Item) (i : Nat) (o : Outcome) :
    Prop :=
  ∀ item, tasks[i]? = some item → EndsAlone A s item o

/-- **In a steady history**, images have their outcomes in the world, and the store is faithful in
the end. -/
theorem history_faithful {tasks : List Item} {st : Store} {es : List Event} {q : Shared Outcome}
    (h : History ⟨tasks.map (resolution s), st⟩ es q) (hsteady : ∀ e ∈ es, e.Steady A)
    (hst : st.Faithful A) :
    q.store.Faithful A ∧
      ∀ (i : Nat) (u : ImageUsage) (o : Outcome),
        tasks[i]? = some (.inr u) → q.plans[i]? = some (.done o) →
        o = .inr (sourceAlone A s.producerLimit u.id s.producerLimit u.source) := by
  have hstart : Shared.Ensures A (faithfully A) (fun i o _ => TaskEnds A s tasks i o)
      ⟨tasks.map (resolution s), st⟩ := by
    intro i p hp
    have hp' : (tasks.map (resolution s))[i]? = some p := hp
    rw [List.getElem?_map, Option.map_eq_some_iff] at hp'
    obtain ⟨item, hitem, rfl⟩ := hp'
    refine (resolution_faithful hst item).mono fun o _ ho item' hitem' => ?_
    rw [hitem] at hitem'
    cases hitem'
    exact ho
  obtain ⟨hkept, hend⟩ :=
    h.ensures hsteady faithfully_open (fun i => faithfully_keeps (TaskEnds A s tasks i)) hstart
  refine ⟨hkept hst, fun i u o hu ho => ?_⟩
  exact hend i (.done o) ho (.inr u) hu

/-- A store that calls lead to, from one without images, in a world that answers alike. -/
inductive ReachedByCalls (w : World σ) (A : Answers) (s : Settings.Fetching) : Store → Prop
  | start {st : Store} (h : st.images = .empty) : ReachedByCalls w A s st
  | resolved {st : Store} (h : ReachedByCalls w A s st) (id : String) (source : Source) (x : σ) :
      ReachedByCalls w A s ((resolveImage s id source).outcome.run w (st, x)).2.1
  | loaded {st : Store} (h : ReachedByCalls w A s st) (us : List ImageUsage) (x : σ) :
      ReachedByCalls w A s ((loadImages s us).run w (st, x)).2.1
  | cleared {st : Store} (h : ReachedByCalls w A s st) : ReachedByCalls w A s st.clear
  /-- Any number of resolutions side by side, done or not, with registrations and clears. -/
  | sideBySide {st st' : Store} {tasks : List Item} {es : List Event}
      {plans : List (Plan Outcome)} (h : ReachedByCalls w A s st)
      (hhistory : History ⟨tasks.map (resolution s), st⟩ es ⟨plans, st'⟩)
      (hsteady : ∀ e ∈ es, e.Steady A) : ReachedByCalls w A s st'

section Calls

variable {st : Store}

/-- The images that some usages have in the world. -/
def imagesAlone (A : Answers) (s : Settings.Fetching) (us : List ImageUsage) : Dict LoadedImage :=
  collectImages ((us.map (·.id)).zip
    (us.map fun u => sourceAlone A s.producerLimit u.id s.producerLimit u.source))

theorem images_forall₂ (hst : st.Faithful A) (us : List ImageUsage) :
    List.Forall₂ (fun u p => p.Ensures A (faithfully A)
        (fun o _ => o = sourceAlone A s.producerLimit u.id s.producerLimit u.source) st)
      us (us.map fun u => (resolveImage s u.id u.source).outcome) :=
  List.forall₂_map_right_iff.2 (List.forall₂_same.2 fun _ _ => resolveSource_faithful hst)

theorem loadImages_faithful (hst : st.Faithful A) (us : List ImageUsage) :
    (loadImages s us).Ensures A (faithfully A) (fun images _ => images = imagesAlone A s us) st := by
  have hturn := Plan.Ensures.inTurn
    (fun u : ImageUsage => faithfully_keeps
      (· = sourceAlone A s.producerLimit u.id s.producerLimit u.source)) (images_forall₂ hst us)
  refine .bind (hturn.mono fun outcomes _ houtcomes => ?_)
  show collectImages ((us.map (·.id)).zip outcomes) = _
  rw [imagesAlone, (forall₂_eq_map (P := fun _ => True) (houtcomes.imp fun _ _ h => ⟨h, trivial⟩)).1]

theorem resolveImage_run (hw : w.Gives A) (hst : st.Faithful A) (id : String) (source : Source)
    (x : σ) :
    ((resolveImage s id source).outcome.run w (st, x)).1 =
        sourceAlone A s.producerLimit id s.producerLimit source ∧
      ((resolveImage s id source).outcome.run w (st, x)).2.1.Faithful A := by
  obtain ⟨houtcome, hkept⟩ := (resolveSource_faithful hst).holds.run hw x
  exact ⟨houtcome, hkept hst⟩

theorem loadImages_run (hw : w.Gives A) (hst : st.Faithful A) (us : List ImageUsage) (x : σ) :
    ((loadImages s us).run w (st, x)).1 = imagesAlone A s us ∧
      ((loadImages s us).run w (st, x)).2.1.Faithful A := by
  obtain ⟨himages, hkept⟩ := (loadImages_faithful hst us).holds.run hw x
  exact ⟨himages, hkept hst⟩

/-- **Whatever was called before, the store is faithful.** -/
theorem ReachedByCalls.faithful (hw : w.Gives A) (h : ReachedByCalls w A s st) : st.Faithful A := by
  induction h with
  | start h => exact Store.faithful_of_empty h
  | resolved _ id source x ih => exact (resolveImage_run hw ih id source x).2
  | loaded _ us x ih => exact (loadImages_run hw ih us x).2
  | cleared _ => exact Store.faithful_of_empty rfl
  | sideBySide _ hhistory hsteady ih => exact (history_faithful hhistory hsteady ih).1

/-- **The image cache is not seen**: over a store that calls led to, images are what they are over
a store without images, one by one and together, in every order. -/
theorem resolveImage_transparent (hw : w.Gives A) (h : ReachedByCalls w A s st) {empty : Store}
    (hempty : empty.images = .empty) (x y : σ) :
    (∀ id source, ((resolveImage s id source).outcome.run w (st, x)).1 =
      ((resolveImage s id source).outcome.run w (empty, y)).1) ∧
    ∀ us, ((loadImages s us).run w (st, x)).1 = ((loadImages s us).run w (empty, y)).1 ∧
      Inevitably w (fun outcomes _ => collectImages ((us.map (·.id)).zip outcomes) =
          ((loadImages s us).run w (empty, y)).1)
        ⟨us.map fun u => (resolveImage s u.id u.source).outcome, (st, x)⟩ := by
  have hst := h.faithful hw
  have hstart : empty.Faithful A := Store.faithful_of_empty hempty
  refine ⟨fun id source => ?_, fun us => ⟨?_, ?_⟩⟩
  · rw [(resolveImage_run hw hst id source x).1, (resolveImage_run hw hstart id source y).1]
  · rw [(loadImages_run hw hst us x).1, (loadImages_run hw hstart us y).1]
  · rw [(loadImages_run hw hstart us y).1]
    refine (inevitably_of_ensures hw (fun u => faithfully_keeps _) (images_forall₂ hst us) x).mono ?_
    rintro outcomes - ⟨houtcomes, -⟩
    rw [imagesAlone,
      (forall₂_eq_map (P := fun _ => True) (houtcomes.imp fun _ _ h => ⟨h, trivial⟩)).1]

end Calls

/-- An image that was kept in one name is asked for in another, through a producer. -/
theorem oneAddress_transparent :
    ∃ st : Store, ReachedByCalls oneAddress.world oneAddress .default st ∧
      (st.images.get? "https://pictures.example/cat").map (·.id) = some "left" ∧
      Store.empty.images = .empty ∧
      ((resolveImage .default "right" (.deferred ⟨"cat", 0⟩)).outcome.run oneAddress.world
          (st, ())).1 =
        ((resolveImage .default "right" (.deferred ⟨"cat", 0⟩)).outcome.run oneAddress.world
          (.empty, ())).1 := by
  let left := (resolveImage .default "left" (.url "https://pictures.example/cat")).outcome
  have hreached : ReachedByCalls oneAddress.world oneAddress .default
      (left.run oneAddress.world (.empty, ())).2.1 :=
    .resolved (.start rfl) "left" _ ()
  refine ⟨_, hreached, rfl, rfl, ?_⟩
  exact (resolveImage_transparent oneAddress.world_gives hreached rfl () ()).1 _ _

end Galley.Press
