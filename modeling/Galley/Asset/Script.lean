import Galley.Asset.Store

/-!
# Scripted worlds

A script says what a network and the producers of sources answer, and a transcript tells what was
asked of them. An address answers its replies in turn and its last one from then on; an address
without replies refuses.
-/

namespace Galley.Asset

open Image (Producer Source)

/-- Producers that hand out one another, and what the last of them hands out. -/
structure Production where
  levels : Nat
  outcome : Except Report Source

/-- What a world answers. -/
structure Script where
  replies : Dict (List Reply)
  productions : Dict Production

/-- What was asked of a world, latest first. -/
structure Transcript where
  fetched : List (String × Mode)
  produced : List String

namespace Script

/-- The transcript at the start. -/
def start : Transcript := ⟨[], []⟩

/-- The message of an address without replies. -/
def refusal : String := "connection refused"

/-- The reply in a place, or the last one. -/
def nth : List Reply → Nat → Reply
  | [], _ => .error refusal
  | [r], _ => r
  | r :: _, 0 => r
  | _ :: rs, n + 1 => nth rs n

/-- The reply of an address that was asked before a number of times. -/
def reply (s : Script) (url : String) (before : Nat) : Reply :=
  nth ((s.replies.get? url).getD []) before

/-- What a producer hands out: the producer of the next stage, and the outcome in the end. -/
def production (s : Script) (p : Producer) : Except Report Source :=
  match s.productions.get? p.name with
  | none => .error (.of .renderFailed ("no producer " ++ Text.quoted p.name))
  | some d =>
    if p.stage + 1 < d.levels then .ok (.deferred { p with stage := p.stage + 1 }) else d.outcome

/-- The world of a script. -/
def world (s : Script) : World Transcript where
  fetch url mode t :=
    (s.reply url (t.fetched.countP fun f => f.1 = url),
      { t with fetched := (url, mode) :: t.fetched })
  produce p t := (s.production p, { t with produced := p.name :: t.produced })

end Script

end Galley.Asset
