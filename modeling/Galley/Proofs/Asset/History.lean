import Galley.Proofs.Asset.Interleaving

/-!
# Histories

Tasks share a store. Each asks its questions one at a time, in any order among the others;
meanwhile fonts are registered and caches cleared, and the world outside may answer differently
every time. A history (`History`) is all that happened, in order.

A question to a cache is about a slot, and it is served the value there or it misses (`Use`). What
was served stays in its slot until the cache is cleared (`Happens.kept`).

**Theorem (`History.served_unique`).** In one period, between two clears of a cache, whoever is
served from a slot is served the same value.
-/

namespace Galley.Asset

open Font (Descriptor Face)

variable {α : Type}

/-! ## Slots of the caches -/

/-- One of the caches of a store. -/
inductive Shelf where
  | fonts
  | images
  deriving DecidableEq

/-- The store with one cache emptied. -/
def Shelf.clear (st : Store) : Shelf → Store
  | .fonts => { st with fonts := .empty }
  | .images => { st with images := .empty }

/-- A place in a cache. -/
inductive Slot where
  | font (face : Face)
  | image (url : String)
  deriving DecidableEq

/-- The cache that has the slot. -/
def Slot.shelf : Slot → Shelf
  | .font _ => .fonts
  | .image _ => .images

/-- The question for the value in a slot. -/
def Slot.get : Slot → Request
  | .font face => .cachedFont face
  | .image url => .cachedImage url

/-- The slot that a question is about, if it is one to a cache. -/
def Request.slot? : Request → Option Slot
  | .cachedFont face => some (.font face)
  | .keepFont font => some (.font font.face)
  | .cachedImage url | .keepImage url _ => some (.image url)
  | .registered _ | .fetch _ _ | .produce _ => none

@[simp] theorem Slot.slot?_get (slot : Slot) : slot.get.slot? = some slot := by
  cases slot <;> rfl

/-- A value in a slot. -/
inductive Held where
  | font (font : LoadedFont)
  | image (image : LoadedImage)
  deriving DecidableEq

/-- The value that a store has in a slot. -/
def Store.held? (st : Store) : Slot → Option Held
  | .font face => (st.fonts.get? face).map .font
  | .image url => (st.images.get? url).map .image

/-- A question with its answer. -/
abbrev Exchange := (r : Request) × r.Answer

/-- What an exchange with a cache comes to, if it is one. -/
inductive Use where
  | none
  | missed (slot : Slot)
  | served (slot : Slot) (held : Held)
  deriving DecidableEq

/-- A look into a slot. -/
def Use.found (slot : Slot) : Option Held → Use
  | some held => served slot held
  | Option.none => missed slot

/-- The slot in question. -/
def Use.slot? : Use → Option Slot
  | none => Option.none
  | missed slot | served slot _ => some slot

/-- The later use, if it is one. -/
def Use.orLater (first : Use) : Use → Use
  | none => first
  | later => later

@[simp] theorem Use.orLater_none (first : Use) : first.orLater none = first := rfl

@[simp] theorem Use.none_orLater (later : Use) : none.orLater later = later := by
  cases later <;> rfl

theorem Use.orLater_eq_none {first later : Use} :
    first.orLater later = none ↔ first = none ∧ later = none := by
  cases later <;> simp [orLater]

@[simp] theorem Use.slot?_found (slot : Slot) (held : Option Held) :
    (found slot held).slot? = some slot := by
  cases held <;> rfl

/-- What an exchange comes to. To keep a value is to be served the one that is kept. -/
def Exchange.use : Exchange → Use
  | ⟨.cachedFont face, answer⟩ => .found (.font face) (Option.map .font answer)
  | ⟨.keepFont font, kept⟩ => .served (.font font.face) (.font kept)
  | ⟨.cachedImage url, answer⟩ => .found (.image url) (Option.map .image answer)
  | ⟨.keepImage url _, kept⟩ => .served (.image url) (.image kept)
  | ⟨.registered _, _⟩ | ⟨.fetch _ _, _⟩ | ⟨.produce _, _⟩ => .none

theorem Exchange.slot?_use (x : Exchange) : x.use.slot? = x.1.slot? := by
  obtain ⟨r, answer⟩ := x
  cases r with
  | cachedFont | cachedImage => exact Use.slot?_found _ _
  | keepFont | keepImage | registered | fetch | produce => rfl

/-- The last use of a cache among exchanges. -/
def lastUse : List Exchange → Use
  | [] => .none
  | x :: log => x.use.orLater (lastUse log)

section Store

variable {A : Answers} {st : Store} {r : Request} {slot : Slot} {held : Held}

/-- **A cache keeps what it has**, whatever is asked. -/
theorem Store.held?_after (h : st.held? slot = some held) : (r.after st).held? slot = some held := by
  cases r with
  | keepFont font =>
    cases slot with
    | image url => exact h
    | font face =>
      obtain ⟨old, hold, rfl⟩ := Option.map_eq_some_iff.1 h
      simp [Request.after, Store.held?, Cache.get?_put, hold]
  | keepImage url image =>
    cases slot with
    | font face => exact h
    | image url' =>
      obtain ⟨old, hold, rfl⟩ := Option.map_eq_some_iff.1 h
      simp [Request.after, Store.held?, Cache.get?_put, hold]
  | cachedFont | registered | cachedImage | fetch | produce => exact h

/-- A question to a cache comes to what is in the slot after it. -/
theorem Exchange.use_answer (hslot : r.slot? = some slot) :
    Exchange.use ⟨r, A.answer st r⟩ = .found slot ((r.after st).held? slot) := by
  cases r with
  | cachedFont | cachedImage =>
    cases hslot
    rfl
  | keepFont font =>
    cases hslot
    cases hget : st.fonts.get? font.face <;>
      simp [use, Use.found, Answers.answer, Request.after, Store.held?, Cache.get?_put, hget]
  | keepImage url image =>
    cases hslot
    cases hget : st.images.get? url <;>
      simp [use, Use.found, Answers.answer, Request.after, Store.held?, Cache.get?_put, hget]
  | registered | fetch | produce => cases hslot

/-- The slot has what was served from it. -/
theorem Exchange.held?_of_served (h : Exchange.use ⟨r, A.answer st r⟩ = .served slot held) :
    (r.after st).held? slot = some held := by
  have hslot : r.slot? = some slot := by
    rw [← slot?_use ⟨r, A.answer st r⟩, h]
    rfl
  rw [use_answer hslot] at h
  cases hafter : (r.after st).held? slot with
  | none =>
    rw [hafter] at h
    cases h
  | some other =>
    rw [hafter] at h
    cases h
    rfl

/-- Whoever asks about a slot that has a value is served it. -/
theorem Exchange.served_of_held? (hslot : r.slot? = some slot) (h : st.held? slot = some held) :
    Exchange.use ⟨r, A.answer st r⟩ = .served slot held := by
  rw [use_answer hslot, Store.held?_after h]
  rfl

end Store

/-! ## What happens -/

/-- What happens to tasks and their store. -/
inductive Event where
  | asked (task : Nat) (r : Request) (answer : r.Answer)
  | registered (family : String) (d : Descriptor)
  | cleared (shelf : Shelf)

namespace Event

/-- What a task asks in the event, with the answer. -/
def exchange? (i : Nat) : Event → Option Exchange
  | asked task r answer => if task = i then some ⟨r, answer⟩ else none
  | _ => none

/-- What the event comes to for a task. -/
def use (i : Nat) (e : Event) : Use :=
  match e.exchange? i with
  | some x => x.use
  | none => .none

/-- An event is a step of one task at most. -/
theorem use_eq_use {i j : Nat} {e : Event} (hi : e.use i ≠ .none) (hj : e.use j ≠ .none) :
    e.use i = e.use j := by
  cases e with
  | registered | cleared => exact absurd rfl hi
  | asked task r answer =>
    by_cases hti : task = i
    · by_cases htj : task = j
      · rw [← hti, ← htj]
      · simp [use, exchange?, htj] at hj
    · simp [use, exchange?, hti] at hi

/-- Is the cache cleared? -/
def clears (shelf : Shelf) : Event → Bool
  | cleared shelf' => shelf' = shelf
  | _ => false

end Event

/-- Tasks by their numbers, with the store that they share. -/
structure Shared (α : Type) where
  plans : List (Plan α)
  store : Store

/-- An event changes tasks and store. The world outside may answer a question in any way. -/
inductive Happens : Shared α → Event → Shared α → Prop
  | asked (i : Nat) (A : Answers) {ps : List (Plan α)} {st : Store} {r : Request}
      {next : r.Answer → Plan α} (h : ps[i]? = some (.ask r next)) :
      Happens ⟨ps, st⟩ (.asked i r (A.answer st r)) ⟨ps.set i (next (A.answer st r)), r.after st⟩
  | registered (family : String) (d : Descriptor) {ps : List (Plan α)} {st : Store} :
      Happens ⟨ps, st⟩ (.registered family d) ⟨ps, st.register family d⟩
  | cleared (shelf : Shelf) {ps : List (Plan α)} {st : Store} :
      Happens ⟨ps, st⟩ (.cleared shelf) ⟨ps, shelf.clear st⟩

/-- One event after another. -/
inductive History : Shared α → List Event → Shared α → Prop
  | nil (c : Shared α) : History c [] c
  | cons {c d q : Shared α} {e : Event} {es : List Event} (h : Happens c e d)
      (hrest : History d es q) : History c (e :: es) q

/-- The number of times that a cache was cleared before a place in a history. -/
def period (es : List Event) (shelf : Shelf) (k : Nat) : Nat :=
  (es.take k).countP (·.clears shelf)

theorem period_succ (e : Event) (es : List Event) (shelf : Shelf) (k : Nat) :
    period (e :: es) shelf (k + 1) = period es shelf k + if e.clears shelf then 1 else 0 := by
  simp [period, List.countP_cons]

/-- In a place of a history, a task asks a cache about a slot. -/
def UsesAt (es : List Event) (i k : Nat) (slot : Slot) : Prop :=
  (es[k]?).bind (fun e => (e.use i).slot?) = some slot

/-- The task asks no cache later. -/
def FinalUse (es : List Event) (i k : Nat) (slot : Slot) : Prop :=
  UsesAt es i k slot ∧ ∀ e ∈ es.drop (k + 1), e.use i = .none

instance (es : List Event) (i k : Nat) (slot : Slot) : Decidable (FinalUse es i k slot) :=
  inferInstanceAs (Decidable (_ = _ ∧ _))

/-- In a place of a history, a task is served a value from a slot. -/
def ServedAt (es : List Event) (i k : Nat) (slot : Slot) (held : Held) : Prop :=
  (es[k]?).map (·.use i) = some (.served slot held)

theorem ServedAt.usesAt {es : List Event} {i k : Nat} {slot : Slot} {held : Held}
    (h : ServedAt es i k slot held) : UsesAt es i k slot := by
  obtain ⟨e, he, huse⟩ := Option.map_eq_some_iff.1 h
  simp [UsesAt, he, huse, Use.slot?]

/-- The use in such a place is one of that slot. -/
theorem UsesAt.slot?_eq {es : List Event} {i k : Nat} {slot : Slot} {use : Use}
    (h : UsesAt es i k slot) (huse : (es[k]?).map (·.use i) = some use) :
    use.slot? = some slot := by
  obtain ⟨e, he, rfl⟩ := Option.map_eq_some_iff.1 huse
  simpa [UsesAt, he] using h

variable {c d q : Shared α} {e : Event} {es fs : List Event} {slot : Slot} {held held' : Held}
  {i j k l : Nat}

namespace Happens

/-- A value stays in its slot while the cache is not cleared. -/
theorem kept (h : Happens c e d) (hclear : e.clears slot.shelf = false)
    (hheld : c.store.held? slot = some held) : d.store.held? slot = some held := by
  cases h with
  | asked i A h => exact Store.held?_after hheld
  | registered family descriptor => cases slot <;> exact hheld
  | cleared shelf =>
    have hshelf : shelf ≠ slot.shelf := by simpa [Event.clears] using hclear
    cases slot <;> cases shelf <;> first | exact hheld | exact absurd rfl hshelf

theorem held?_of_served (h : Happens c e d) (hserved : e.use i = .served slot held) :
    d.store.held? slot = some held := by
  cases h with
  | asked task A h =>
    by_cases hi : task = i
    · simp only [Event.use, Event.exchange?, hi, if_true] at hserved
      exact Exchange.held?_of_served hserved
    · simp [Event.use, Event.exchange?, hi] at hserved
  | registered | cleared => cases hserved

theorem length_plans (h : Happens c e d) : d.plans.length = c.plans.length := by
  cases h with
  | asked => exact List.length_set
  | registered | cleared => rfl

theorem served_of_held? (h : Happens c e d) (hslot : (e.use i).slot? = some slot)
    (hheld : c.store.held? slot = some held) : e.use i = .served slot held := by
  cases h with
  | asked task A h =>
    by_cases hi : task = i
    · simp only [Event.use, Event.exchange?, hi, if_true] at hslot ⊢
      exact Exchange.served_of_held? ((Exchange.slot?_use _).symm.trans hslot) hheld
    · simp [Event.use, Event.exchange?, hi, Use.slot?] at hslot
  | registered | cleared => cases hslot

end Happens

namespace History

theorem append (h : History c es d) (h' : History d fs q) : History c (es ++ fs) q := by
  induction h with
  | nil c => exact h'
  | cons h _ ih => exact .cons h (ih h')

/-- A history can be cut at any place. -/
theorem split (h : History c es q) (k : Nat) :
    ∃ d, History c (es.take k) d ∧ History d (es.drop k) q := by
  induction h generalizing k with
  | nil c => exact ⟨c, by simpa using .nil c, by simpa using .nil c⟩
  | @cons c d q e es h hrest ih =>
    cases k with
    | zero => exact ⟨c, .nil c, .cons h hrest⟩
    | succ k =>
      obtain ⟨middle, hbefore, hafter⟩ := ih k
      exact ⟨middle, .cons h hbefore, hafter⟩

theorem length_plans (h : History c es q) : q.plans.length = c.plans.length := by
  induction h with
  | nil c => rfl
  | cons h _ ih => exact ih.trans h.length_plans

/-- A store is cleared by clearing its caches, one after the other. -/
theorem clear (c : Shared α) :
    History c [.cleared .fonts, .cleared .images] ⟨c.plans, c.store.clear⟩ :=
  .cons (.cleared .fonts) (.cons (.cleared .images) (.nil _))

/-- Whoever asks about a slot in the first period is served what was there at the start. -/
theorem served_again (h : History c es q) (hheld : c.store.held? slot = some held)
    (huse : UsesAt es i k slot) (hperiod : period es slot.shelf k = 0) :
    ServedAt es i k slot held := by
  induction h generalizing k with
  | nil c => simp [UsesAt] at huse
  | @cons c d q e es h _ ih =>
    cases k with
    | zero =>
      have hslot : (e.use i).slot? = some slot := by simpa [UsesAt] using huse
      simp [ServedAt, h.served_of_held? hslot hheld]
    | succ k =>
      rw [period_succ] at hperiod
      have hclear : e.clears slot.shelf = false := by
        cases he : e.clears slot.shelf <;> simp [he] at hperiod ⊢
      have hrest := ih (h.kept hclear hheld) (by simpa [UsesAt] using huse) (by omega)
      simpa [ServedAt] using hrest

/-- Whoever asks about a slot later in a period is served what was served before. -/
theorem served_later (h : History c es q) (hserved : ServedAt es i k slot held) (hkl : k < l)
    (huse : UsesAt es j l slot) (hperiod : period es slot.shelf k = period es slot.shelf l) :
    ServedAt es j l slot held := by
  induction h generalizing k l with
  | nil c => simp [UsesAt] at huse
  | @cons c d q e es h hrest ih =>
    obtain ⟨l, rfl⟩ : ∃ l', l = l' + 1 := ⟨l - 1, by omega⟩
    have huse' : UsesAt es j l slot := by simpa [UsesAt] using huse
    suffices hlater : ServedAt es j l slot held by simpa [ServedAt] using hlater
    cases k with
    | zero =>
      have hfirst : e.use i = .served slot held := by simpa [ServedAt] using hserved
      have hzero : period es slot.shelf l = 0 := by
        rw [period_succ] at hperiod
        simp only [period, List.take_zero, List.countP_nil] at hperiod ⊢
        omega
      exact hrest.served_again (h.held?_of_served hfirst) huse' hzero
    | succ k =>
      rw [period_succ, period_succ] at hperiod
      exact ih (by simpa [ServedAt] using hserved) (by omega) huse' (by omega)

/-- What is served was held by a store on the way, of which all holds that every event keeps. -/
theorem held_of_served {I : Shared α → Prop} (hI : ∀ {c e d}, Happens c e d → I c → I d)
    (h : History c es q) (hc : I c) (hserved : ServedAt es i k slot held) :
    ∃ d, I d ∧ d.store.held? slot = some held := by
  induction h generalizing k with
  | nil c => simp [ServedAt] at hserved
  | @cons c d q e es h _ ih =>
    cases k with
    | zero =>
      have huse : e.use i = .served slot held := by simpa [ServedAt] using hserved
      exact ⟨d, hI h hc, h.held?_of_served huse⟩
    | succ k => exact ih (hI h hc) (by simpa [ServedAt] using hserved)

/-- **In one period, a slot has one value.** -/
theorem served_unique (h : History c es q) (hk : ServedAt es i k slot held)
    (hl : ServedAt es j l slot held')
    (hperiod : period es slot.shelf k = period es slot.shelf l) : held = held' := by
  rcases lt_trichotomy k l with hkl | rfl | hlk
  · have hagain := h.served_later hk hkl hl.usesAt hperiod
    have hsame := hagain.symm.trans hl
    simpa using hsame
  · obtain ⟨e, he, hi⟩ := Option.map_eq_some_iff.1 hk
    have hj : e.use j = .served slot held' := by simpa [ServedAt, he] using hl
    have hsame : e.use i = e.use j := Event.use_eq_use (by simp [hi]) (by simp [hj])
    rw [hi, hj] at hsame
    cases hsame
    rfl
  · have hagain := h.served_later hl hlk hk.usesAt hperiod.symm
    have hsame := hagain.symm.trans hk
    simpa using hsame.symm

end History

/-! ## One task -/

/-- A plan goes on with the answers to its questions. -/
inductive Plan.Answered : Plan α → List Exchange → Plan α → Prop
  | nil (p : Plan α) : Answered p [] p
  | cons {r : Request} {next : r.Answer → Plan α} {answer : r.Answer} {log : List Exchange}
      {p : Plan α} (hrest : Answered (next answer) log p) :
      Answered (.ask r next) (⟨r, answer⟩ :: log) p

/-- What a task asked, with the answers. -/
def exchanges (i : Nat) (es : List Event) : List Exchange := es.filterMap (·.exchange? i)

/-- A history takes each task along its own exchanges. -/
theorem History.answered {p : Plan α} (h : History c es q) (hp : c.plans[i]? = some p) :
    ∃ p', q.plans[i]? = some p' ∧ p.Answered (exchanges i es) p' := by
  induction h generalizing p with
  | nil c => exact ⟨p, hp, .nil p⟩
  | cons h _ ih =>
    cases h with
    | registered | cleared => exact ih hp
    | @asked task A ps st r next hr =>
      by_cases hi : task = i
      · subst hi
        obtain rfl : p = .ask r next := Option.some.inj (hp.symm.trans hr)
        have hlt : task < ps.length := (List.getElem?_eq_some_iff.1 hr).1
        obtain ⟨p', hp', hanswered⟩ := ih (p := next (A.answer st r)) (by simp [hlt])
        refine ⟨p', hp', ?_⟩
        simpa [exchanges, Event.exchange?] using Plan.Answered.cons hanswered
      · obtain ⟨p', hp', hanswered⟩ := ih (p := p) (by simpa [List.getElem?_set_ne hi] using hp)
        refine ⟨p', hp', ?_⟩
        simpa [exchanges, Event.exchange?, hi] using hanswered

theorem lastUse_exchanges_cons (e : Event) (es : List Event) (i : Nat) :
    lastUse (exchanges i (e :: es)) = (e.use i).orLater (lastUse (exchanges i es)) := by
  cases he : e.exchange? i <;> simp [exchanges, Event.use, he, lastUse]

theorem lastUse_exchanges_eq_none :
    lastUse (exchanges i es) = .none ↔ ∀ e ∈ es, e.use i = .none := by
  induction es with
  | nil => exact ⟨fun _ e he => (nomatch he), fun _ => rfl⟩
  | cons e es ih => rw [lastUse_exchanges_cons, Use.orLater_eq_none, ih, List.forall_mem_cons]

theorem FinalUse.lastUse (h : FinalUse es i k slot) :
    (es[k]?).map (·.use i) = some (lastUse (exchanges i es)) := by
  induction es generalizing k with
  | nil => simp [FinalUse, UsesAt] at h
  | cons e es ih =>
    obtain ⟨huse, hlater⟩ := h
    rw [lastUse_exchanges_cons]
    cases k with
    | zero =>
      rw [lastUse_exchanges_eq_none.2 (by simpa using hlater)]
      rfl
    | succ k =>
      have hrest : (es[k]?).map (·.use i) = some (Asset.lastUse (exchanges i es)) :=
        ih ⟨by simpa [UsesAt] using huse, by simpa using hlater⟩
      have hlast : UsesAt es i k slot := by simpa [UsesAt] using huse
      have hslot : (Asset.lastUse (exchanges i es)).slot? = some slot := hlast.slot?_eq hrest
      show (es[k]?).map (·.use i) = _
      rw [hrest]
      cases hcase : Asset.lastUse (exchanges i es) with
      | none =>
        rw [hcase] at hslot
        cases hslot
      | missed | served => rfl

theorem exists_finalUse (h : (lastUse (exchanges i es)).slot? = some slot) :
    ∃ k, FinalUse es i k slot := by
  induction es with
  | nil => cases h
  | cons e es ih =>
    rw [lastUse_exchanges_cons] at h
    cases hlast : lastUse (exchanges i es) with
    | none =>
      rw [hlast] at h
      exact ⟨0, by simpa [UsesAt] using h, by simpa using lastUse_exchanges_eq_none.1 hlast⟩
    | missed | served =>
      rw [hlast] at h ih
      obtain ⟨k, huse, hlater⟩ := ih h
      exact ⟨k + 1, by simpa [UsesAt] using huse, by simpa using hlater⟩

/-- A task that was served last has a final use, where it was served. -/
theorem exists_finalUse_of_served (h : lastUse (exchanges i es) = .served slot held) :
    ∃ k, FinalUse es i k slot ∧ ServedAt es i k slot held := by
  have hslot : (lastUse (exchanges i es)).slot? = some slot := by
    rw [h]
    rfl
  obtain ⟨k, hk⟩ := exists_finalUse hslot
  exact ⟨k, hk, hk.lastUse.trans (congrArg some h)⟩

end Galley.Asset
