import Galley.Proofs.Asset.ImageResolution
import Galley.Proofs.Asset.InTurn

/-!
# Sources that producers hand out

A producer hands out a source, which may be a producer's again. What is asked along such a chain is
logged (`HandsOut`), and whoever resolves the first source asks just that.

**Theorem (`resolveImage_follows`).** A chain that is no longer than the limit makes no difference:
what is left to ask after it is what the last source asks alone. A longer chain, and one without an
end, fails after exactly as many producers as the limit says; and the report of a producer before
that is passed on. The store has not changed so far.

By induction on the chain, what is left after it is what the last source asks with fewer producers
(`HandsOut.answered`); if that one is no producer's, it makes no difference how many they are.
-/

namespace Galley.Image

/-- The source is no producer's. -/
def Source.IsFinal (source : Source) : Prop := ∀ producer, source ≠ .deferred producer

theorem Source.isFinal_or (source : Source) :
    source.IsFinal ∨ ∃ producer, source = .deferred producer := by
  cases source with
  | deferred producer => exact .inr ⟨producer, rfl⟩
  | url | dataUri | bytes => exact .inl nofun

end Galley.Image

namespace Galley.Asset

open Image (Producer Source)

variable {α σ : Type} {w : World σ}

/-! ## What a world answers -/

/-- A world answers questions as they are logged, from one state to another. -/
inductive World.Tells (w : World σ) : Store × σ → List Exchange → Store × σ → Prop
  | nil (state : Store × σ) : Tells w state [] state
  | cons (r : Request) {state after : Store × σ} {log : List Exchange}
      (h : Tells w (w.answer r state).2 log after) :
      Tells w state (⟨r, (w.answer r state).1⟩ :: log) after

theorem World.Tells.take {state after : Store × σ} {log : List Exchange}
    (h : w.Tells state log after) (n : Nat) : ∃ middle, w.Tells state (log.take n) middle := by
  induction h generalizing n with
  | nil state => exact ⟨state, by simpa using .nil state⟩
  | cons r _ ih =>
    cases n with
    | zero => exact ⟨_, .nil _⟩
    | succ n =>
      obtain ⟨middle, hmiddle⟩ := ih n
      exact ⟨middle, .cons r hmiddle⟩

theorem World.Tells.snoc {state after : Store × σ} {log : List Exchange}
    (h : w.Tells state log after) (r : Request) :
    w.Tells state (log ++ [⟨r, (w.answer r after).1⟩]) (w.answer r after).2 := by
  induction h with
  | nil state => exact .cons r (.nil _)
  | cons r' _ ih => exact .cons r' ih

namespace Plan.Answered

variable {p p' p'' : Plan α} {log log' : List Exchange}

theorem append (h : p.Answered log p') (h' : p'.Answered log' p'') :
    p.Answered (log ++ log') p'' := by
  induction h with
  | nil p => exact h'
  | cons _ ih => exact .cons (ih h')

/-- What is left after some answers goes on with the others. -/
theorem of_append (h : p.Answered log p') (h' : p.Answered (log ++ log') p'') :
    p'.Answered log' p'' := by
  induction h with
  | nil p => exact h'
  | cons _ ih =>
    cases h' with
    | cons h' => exact ih h'

/-- A plan that is run goes on with the answers of the world. -/
theorem run_eq (h : p.Answered log p') {state after : Store × σ}
    (htells : w.Tells state log after) : p.run w state = p'.run w after := by
  induction h generalizing state with
  | nil p =>
    cases htells
    rfl
  | cons _ ih =>
    cases htells with
    | cons r htells => exact ih htells

end Plan.Answered

/-! ## Chains of producers -/

/-- Producers hand out sources in turn, from a first source to a last one. -/
inductive HandsOut : Source → List Exchange → Source → Prop
  | nil (source : Source) : HandsOut source [] source
  | cons {producer : Producer} {next last : Source} {chain : List Exchange}
      (h : HandsOut next chain last) :
      HandsOut (.deferred producer) (⟨.produce producer, .ok next⟩ :: chain) last

/-- Only producers are asked. -/
def OnlyProducers (log : List Exchange) : Prop := ∀ x ∈ log, ∃ producer, x.1 = .produce producer

theorem OnlyProducers.store_eq {log : List Exchange} (h : OnlyProducers log)
    {state after : Store × σ} (htells : w.Tells state log after) : after.1 = state.1 := by
  induction htells with
  | nil state => rfl
  | @cons r state after log _ ih =>
    obtain ⟨producer, hr⟩ := h _ List.mem_cons_self
    obtain rfl : r = .produce producer := hr
    exact ih fun x hx => h x (List.mem_cons_of_mem _ hx)

theorem OnlyProducers.lastUse_append {chain : List Exchange} (h : OnlyProducers chain)
    (log : List Exchange) : lastUse (chain ++ log) = lastUse log := by
  induction chain with
  | nil => rfl
  | cons x chain ih =>
    obtain ⟨r, answer⟩ := x
    obtain ⟨producer, hr⟩ := h _ List.mem_cons_self
    obtain rfl : r = .produce producer := hr
    rw [List.cons_append, lastUse, ih fun y hy => h y (List.mem_cons_of_mem _ hy)]
    exact Use.none_orLater _

namespace HandsOut

variable {n : Nat} {source last : Source} {producer : Producer} {chain : List Exchange}

theorem onlyProducers (h : HandsOut source chain last) : OnlyProducers chain := by
  induction h with
  | nil source => exact fun x hx => nomatch hx
  | @cons producer next last chain _ ih =>
    exact fun x hx => (List.mem_cons.1 hx).elim (fun heq => ⟨producer, heq ▸ rfl⟩) (ih x)

/-- Before the end of a chain there is a producer. -/
theorem take (h : HandsOut source chain last) (hn : n < chain.length) :
    ∃ producer, HandsOut source (chain.take n) (.deferred producer) := by
  induction h generalizing n with
  | nil source => exact absurd hn (Nat.not_lt_zero n)
  | @cons producer next last chain _ ih =>
    cases n with
    | zero => exact ⟨producer, .nil _⟩
    | succ n =>
      obtain ⟨producer', hchain⟩ := ih (Nat.lt_of_succ_lt_succ hn)
      exact ⟨producer', .cons hchain⟩

/-- A chain goes on with what its last producer hands out. -/
theorem snoc {next : Source} (h : HandsOut source chain (.deferred producer)) :
    HandsOut source (chain ++ [⟨.produce producer, .ok next⟩]) next := by
  generalize hlast : Source.deferred producer = last at h
  induction h with
  | nil source =>
    subst hlast
    exact .cons (.nil next)
  | cons _ ih => exact .cons (ih hlast)

/-- **What is left after a chain** is what its last source asks, with fewer producers. -/
theorem answered (h : HandsOut source chain last) (limit : Nat) (id : String)
    (hn : chain.length ≤ n) :
    (resolveSource limit id n source).outcome.Answered chain
      (resolveSource limit id (n - chain.length) last).outcome := by
  induction h generalizing n with
  | nil source => exact .nil _
  | @cons producer next last chain _ ih =>
    obtain ⟨k, rfl⟩ : ∃ k, n = k + 1 := ⟨n - 1, by simp at hn; omega⟩
    have hk : chain.length ≤ k := by simpa using hn
    rw [resolveSource_deferred, List.length_cons, Nat.add_sub_add_right]
    exact .cons (ih hk)

end HandsOut

/-- Without a producer, it makes no difference how many may be asked. -/
theorem resolveSource_of_isFinal {source : Source} (h : source.IsFinal) (limit : Nat) (id : String)
    (n m : Nat) : resolveSource limit id n source = resolveSource limit id m source := by
  cases source with
  | deferred producer => exact absurd rfl (h producer)
  | url | dataUri | bytes => cases n <;> cases m <;> rfl

/-- In every world, a chain from a source leads to an end, to a failing producer, or up to a
length. -/
theorem exists_handsOut (w : World σ) (source : Source) (state : Store × σ) (n : Nat) :
    ∃ chain last after, HandsOut source chain last ∧ w.Tells state chain after ∧
      chain.length ≤ n ∧ (last.IsFinal ∨ ∃ producer, last = .deferred producer ∧
        (chain.length = n ∨ ∃ report, (w.answer (.produce producer) after).1 = .error report)) := by
  induction n with
  | zero =>
    refine ⟨[], source, state, .nil _, .nil _, Nat.le_refl _, ?_⟩
    exact source.isFinal_or.imp_right fun ⟨producer, h⟩ => ⟨producer, h, .inl rfl⟩
  | succ n ih =>
    obtain ⟨chain, last, after, hchain, htells, hlength, hlast⟩ := ih
    rcases hlast with hfinal | ⟨producer, rfl, hlength' | ⟨report, hreport⟩⟩
    · exact ⟨chain, last, after, hchain, htells, by omega, .inl hfinal⟩
    · -- One more producer may be asked, and there is one.
      cases hanswer : (w.answer (.produce producer) after).1 with
      | error report =>
        exact ⟨chain, _, after, hchain, htells, by omega,
          .inr ⟨producer, rfl, .inr ⟨report, hanswer⟩⟩⟩
      | ok next =>
        have htells' := htells.snoc (.produce producer)
        rw [hanswer] at htells'
        refine ⟨_, next, _, hchain.snoc, htells', by simp [hlength'], ?_⟩
        exact next.isFinal_or.imp_right fun ⟨producer', h⟩ => ⟨producer', h, .inl (by simp [hlength'])⟩
    · exact ⟨chain, _, after, hchain, htells, by omega,
        .inr ⟨producer, rfl, .inr ⟨report, hreport⟩⟩⟩

/-! ## Chains and the limit -/

/-- A plan asks producers only, as logged, and goes on as another plan: also in a world that answers
so, and over the same store. -/
structure Plan.Becomes (p : Plan α) (log : List Exchange) (p' : Plan α) : Prop where
  answered : p.Answered log p'
  onlyProducers : OnlyProducers log
  run : ∀ {σ : Type} (w : World σ) (state after : Store × σ), w.Tells state log after →
    after.1 = state.1 ∧ p.run w state = p'.run w after

theorem Plan.Answered.becomes {p p' : Plan α} {log : List Exchange} (h : p.Answered log p')
    (hlog : OnlyProducers log) : p.Becomes log p' :=
  ⟨h, hlog, fun _ _ _ htells => ⟨hlog.store_eq htells, h.run_eq htells⟩⟩

/-- The chains from a source, with the limit of the settings. -/
structure FollowsProducers (s : Settings.Fetching) (id : String) (source : Source) : Prop where
  within : ∀ {chain last}, HandsOut source chain last → last.IsFinal →
    chain.length ≤ s.producerLimit →
      (resolveImage s id source).outcome.Becomes chain (resolveImage s id last).outcome
  beyond : ∀ {chain last}, HandsOut source chain last → s.producerLimit < chain.length →
    ∃ fault : Fault, fault.report.code = .invalidImageSource ∧
      (resolveImage s id source).outcome.Becomes (chain.take s.producerLimit) (.done (.error fault))
  failed : ∀ {chain producer report}, HandsOut source chain (.deferred producer) →
    chain.length < s.producerLimit → ∃ fault : Fault, fault.report = report ∧
      (resolveImage s id source).outcome.Becomes (chain ++ [⟨.produce producer, .error report⟩])
        (.done (.error fault))
  /-- A chain without an end is asked for as many producers as the limit says. -/
  endless : ∀ {σ : Type} (w : World σ) (state : Store × σ),
    (∀ n, ∃ chain last after, chain.length = n ∧ HandsOut source chain last ∧
      w.Tells state chain after) →
    ∃ (fault : Fault) (chain : List Exchange) (after : Store × σ),
      fault.report.code = .invalidImageSource ∧ chain.length = s.producerLimit ∧
      w.Tells state chain after ∧ after.1 = state.1 ∧
      (resolveImage s id source).outcome.Becomes chain (.done (.error fault)) ∧
      (resolveImage s id source).outcome.run w state = (.error fault, after)
  /-- There are no other cases. -/
  complete : ∀ {σ : Type} (w : World σ) (state : Store × σ), ∃ chain last after,
    HandsOut source chain last ∧ w.Tells state chain after ∧ chain.length ≤ s.producerLimit ∧
      (last.IsFinal ∨ ∃ producer, last = .deferred producer ∧ (chain.length = s.producerLimit ∨
        ∃ report, (w.answer (.produce producer) after).1 = .error report))

section Limit

variable {s : Settings.Fetching} {id : String} {source last : Source} {chain : List Exchange}

theorem becomes_of_isFinal (h : HandsOut source chain last) (hlast : last.IsFinal)
    (hlength : chain.length ≤ s.producerLimit) :
    (resolveImage s id source).outcome.Becomes chain (resolveImage s id last).outcome := by
  have hanswered := h.answered s.producerLimit id hlength
  rw [resolveSource_of_isFinal hlast _ _ _ s.producerLimit] at hanswered
  exact hanswered.becomes h.onlyProducers

theorem becomes_of_lt (h : HandsOut source chain last) (hlength : s.producerLimit < chain.length) :
    (resolveImage s id source).outcome.Becomes (chain.take s.producerLimit)
      (.done (.error (.endlessSource id s.producerLimit))) := by
  obtain ⟨producer, hchain⟩ := h.take hlength
  have htake : (chain.take s.producerLimit).length = s.producerLimit := by
    rw [List.length_take]
    omega
  have hanswered := hchain.answered s.producerLimit id htake.le
  rw [htake, Nat.sub_self] at hanswered
  exact hanswered.becomes hchain.onlyProducers

theorem becomes_of_error {producer : Producer} (report : Report)
    (h : HandsOut source chain (.deferred producer)) (hlength : chain.length < s.producerLimit) :
    (resolveImage s id source).outcome.Becomes (chain ++ [⟨.produce producer, .error report⟩])
      (.done (.error (.reported report))) := by
  have hanswered := h.answered s.producerLimit id hlength.le
  obtain ⟨k, hk⟩ : ∃ k, s.producerLimit - chain.length = k + 1 := ⟨_, (Nat.succ_pred (by omega)).symm⟩
  rw [hk, resolveSource_deferred] at hanswered
  refine (hanswered.append (.cons (.nil _))).becomes fun x hx => ?_
  rcases List.mem_append.1 hx with hx | hx
  · exact h.onlyProducers x hx
  · obtain rfl := List.mem_singleton.1 hx
    exact ⟨producer, rfl⟩

end Limit

/-- **Producers are followed up to the limit**, and up to there they make no difference. -/
theorem resolveImage_follows (s : Settings.Fetching) (id : String) (source : Source) :
    FollowsProducers s id source := by
  constructor
  case within => exact becomes_of_isFinal
  case beyond => exact fun h hlength => ⟨_, rfl, becomes_of_lt h hlength⟩
  case failed => exact fun {chain producer report} h hlength =>
    ⟨_, rfl, becomes_of_error report h hlength⟩
  case endless =>
    intro σ w state hendless
    obtain ⟨chain, last, after, hlength, hchain, htells⟩ := hendless (s.producerLimit + 1)
    obtain ⟨middle, hmiddle⟩ := htells.take s.producerLimit
    have hbecomes : (resolveImage s id source).outcome.Becomes _ _ :=
      becomes_of_lt hchain (by omega)
    obtain ⟨hstore, hrun⟩ := hbecomes.run w state middle hmiddle
    exact ⟨_, _, middle, rfl, by simp [hlength], hmiddle, hstore, hbecomes, hrun⟩
  case complete => exact fun w state => exists_handsOut w source state s.producerLimit

/-! ## A nest of two -/

/-- Settings with a limit. -/
def nestSettings (limit : Nat) : Settings.Fetching :=
  { Settings.Fetching.default with producerLimit := limit }

/-- A producer that hands out a second one. -/
def nest : Source := .deferred ⟨"nest", 0⟩

/-- The head of a picture. -/
def egg : Bytes := Bytes.ofText "GIF89a"

/-- The second one hands out bytes. -/
def nestChain : List Exchange := [
  ⟨.produce ⟨"nest", 0⟩, .ok (.deferred ⟨"nest", 1⟩)⟩,
  ⟨.produce ⟨"nest", 1⟩, .ok (.bytes egg)⟩]

/-- The world of these producers. -/
def nestWorld : World Unit where
  fetch _ _ x := (.error "offline", x)
  produce producer x :=
    (if producer.stage = 0 then .ok (.deferred ⟨"nest", 1⟩) else .ok (.bytes egg), x)

/-- With a limit of two the nest is its bytes, with one and with none it fails after so many. -/
theorem nest_follows :
    (resolveImage (nestSettings 2) "egg" nest).outcome.Becomes nestChain
      (.done (.ok (.of "egg" .gif egg))) ∧
    (∀ limit < 2, ∃ fault : Fault, fault.report.code = .invalidImageSource ∧
      (resolveImage (nestSettings limit) "egg" nest).outcome.Becomes (nestChain.take limit)
        (.done (.error fault))) ∧
    ((resolveImage (nestSettings 2) "egg" nest).outcome.run nestWorld (.empty, ())).1 =
      .ok (.of "egg" .gif egg) ∧
    ((resolveImage (nestSettings 0) "egg" nest).outcome.run nestWorld (.empty, ())).1 =
      .error (.endlessSource "egg" 0) := by
  have hchain : HandsOut nest nestChain (.bytes egg) := .cons (.cons (.nil _))
  have hfinal : (Source.bytes egg).IsFinal := nofun
  have hwithin := (resolveImage_follows (nestSettings 2) "egg" nest).within hchain hfinal
  refine ⟨hwithin (Nat.le_refl 2), fun limit hlimit => ?_, rfl, rfl⟩
  exact (resolveImage_follows (nestSettings limit) "egg" nest).beyond hchain hlimit

end Galley.Asset
