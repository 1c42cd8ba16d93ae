import Galley.Image.Source
import Galley.Proofs.Decimal.Natural
import Mathlib

/-!
# What an identity tells

The identity of a source is the digest of some bytes: a tag for the variant of the source, and then
its address, its data URI, its bytes or, for a producer, the place in memory where the producer is
(`Source.tagged`). A place in memory is nothing to rely on, so identities name a producer instead.

The tags keep the variants apart, so that the tagged bytes tell all of a source
(`tagged_injective`). What is left is the digest, of which only eight bytes are kept.

**Theorem (`identity_eq_iff`, `digestName_tagged_eq_iff`).** Among sources whose tagged bytes the
digest does not mix up (`ToldApart`), two have one identity only if they are the same, whether
producers are known by their names or by their places.
-/

namespace Galley

/-! ## Texts as bytes -/

theorem Bytes.ofText_injective : Function.Injective Bytes.ofText := by
  intro s t h
  have hbytes : ∀ u : String, (Bytes.ofText u).toByteArray = u.toByteArray := fun u =>
    String.utf8Encode_toList
  rw [← String.toByteArray_inj, ← hbytes, ← hbytes, h]

namespace Image

/-! ## Producers -/

/-- A producer is known by its stage and its name, and the colon after the stage ends it. -/
theorem Producer.identity_injective : Function.Injective Producer.identity := by
  intro p q h
  obtain ⟨name, stage⟩ := p
  obtain ⟨name', stage'⟩ := q
  have hchars := congrArg String.toList h
  unfold identity at hchars
  split_ifs at hchars with hstage hstage' hstage'
  · obtain rfl : stage = 0 := hstage
    obtain rfl : stage' = 0 := hstage'
    have hname : name.toList = name'.toList := by simpa using hchars
    rw [String.toList_injective hname]
  · simp at hchars
  · simp at hchars
  · have hrest : (Decimal.natural stage).toList ++ ':' :: name.toList =
        (Decimal.natural stage').toList ++ ':' :: name'.toList := by simpa using hchars
    obtain ⟨rfl, hname⟩ := Decimal.natural_ended_inj (by decide) hrest
    rw [String.toList_injective hname]

/-- A producer is not known by a digest. -/
theorem Producer.identity_ne_digestName (p : Producer) (bs : Bytes) :
    p.identity ≠ Source.digestName bs := by
  intro h
  have hchars := congrArg String.toList h
  unfold identity Source.digestName at hchars
  split_ifs at hchars <;> simp at hchars

namespace Source

/-! ## Tagged bytes -/

/-- What the digest of a source is taken of, given the places of producers in memory. -/
def tagged (place : Producer → Bytes) : Source → Bytes
  | url s => Bytes.ofText "url:" ++ Bytes.ofText s
  | dataUri uri => Bytes.ofText "uri:" ++ Bytes.ofText uri
  | bytes bs => Bytes.ofText "bytes:" ++ bs
  | deferred p => Bytes.ofText "deferred:" ++ place p

/-- Unless it comes from a producer, a source is known by the digest of its tagged bytes. -/
theorem identity_eq_digestName (place : Producer → Bytes) {source : Source}
    (h : ∀ p, source ≠ deferred p) : source.identity = digestName (source.tagged place) := by
  cases source with
  | deferred p => exact absurd rfl (h p)
  | url | dataUri | bytes => rfl

@[simp] theorem ofText_url : Bytes.ofText "url:" = [0x75, 0x72, 0x6c, 0x3a] := by decide

@[simp] theorem ofText_uri : Bytes.ofText "uri:" = [0x75, 0x72, 0x69, 0x3a] := by decide

@[simp] theorem ofText_bytes :
    Bytes.ofText "bytes:" = [0x62, 0x79, 0x74, 0x65, 0x73, 0x3a] := by decide

@[simp] theorem ofText_deferred :
    Bytes.ofText "deferred:" = [0x64, 0x65, 0x66, 0x65, 0x72, 0x72, 0x65, 0x64, 0x3a] := by decide

/-- **The tagged bytes tell the source**, if the places of its producers tell them. -/
theorem tagged_injective {place : Producer → Bytes} {a b : Source}
    (hplace : ∀ p q, a = deferred p → b = deferred q → place p = place q → p = q)
    (h : a.tagged place = b.tagged place) : a = b := by
  -- Where the variants differ, so do the tags, within their first three bytes.
  cases a with
  | url s =>
    cases b with
    | url t => rw [Bytes.ofText_injective (List.append_cancel_left h)]
    | dataUri | bytes | deferred => simp [tagged] at h
  | dataUri uri =>
    cases b with
    | dataUri uri' => rw [Bytes.ofText_injective (List.append_cancel_left h)]
    | url | bytes | deferred => simp [tagged] at h
  | bytes bs =>
    cases b with
    | bytes cs => rw [List.append_cancel_left (show _ ++ bs = _ ++ cs from h)]
    | url | dataUri | deferred => simp [tagged] at h
  | deferred p =>
    cases b with
    | deferred q => rw [hplace p q rfl rfl (List.append_cancel_left h)]
    | url | dataUri | bytes => simp [tagged] at h

/-! ## Sources told apart -/

/-- The digest does not mix up the tagged bytes of the sources in question, and no two of their
producers are in one place. -/
structure ToldApart (place : Producer → Bytes) (P : Source → Prop) : Prop where
  digest {a b : Source} : P a → P b → digestName (a.tagged place) = digestName (b.tagged place) →
    a.tagged place = b.tagged place
  place {p q : Producer} : P (deferred p) → P (deferred q) → place p = place q → p = q

variable {place : Producer → Bytes} {P : Source → Prop} {a b : Source}

/-- **One digest, one source**, where a producer is known by its place. -/
theorem digestName_tagged_eq_iff (h : ToldApart place P) (ha : P a) (hb : P b) :
    digestName (a.tagged place) = digestName (b.tagged place) ↔ a = b := by
  refine ⟨fun hdigest => tagged_injective ?_ (h.digest ha hb hdigest), fun hab => by rw [hab]⟩
  rintro p q rfl rfl
  exact h.place ha hb

/-- **One identity, one source**, where a producer is known by its name. -/
theorem identity_eq_iff (h : ToldApart place P) (ha : P a) (hb : P b) :
    a.identity = b.identity ↔ a = b := by
  refine ⟨fun hid => ?_, fun hab => by rw [hab]⟩
  by_cases hda : ∃ p, a = deferred p
  · obtain ⟨p, rfl⟩ := hda
    by_cases hdb : ∃ q, b = deferred q
    · obtain ⟨q, rfl⟩ := hdb
      rw [Producer.identity_injective hid]
    · rw [identity_eq_digestName place (not_exists.1 hdb)] at hid
      exact absurd hid (p.identity_ne_digestName _)
  · rw [identity_eq_digestName place (not_exists.1 hda)] at hid
    by_cases hdb : ∃ q, b = deferred q
    · obtain ⟨q, rfl⟩ := hdb
      exact absurd hid.symm (q.identity_ne_digestName _)
    · rw [identity_eq_digestName place (not_exists.1 hdb)] at hid
      exact (digestName_tagged_eq_iff h ha hb).1 hid

end Source

end Image

end Galley
