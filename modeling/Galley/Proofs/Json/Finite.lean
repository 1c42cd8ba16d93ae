import Galley.Json.Reader
import Galley.Proofs.Decimal.Finite
import Galley.Proofs.Except

/-!
# Numbers that are read

**Theorem (`read_finite`).** Every number in a value that is read from a text is finite as a
double. A number with a point or an exponent is refused if it is not, and a whole number fits 64
bits.
-/

namespace Galley.Json

/-- Every number in the value is finite as a double. -/
inductive Finite : Json → Prop
  | null : Finite .null
  | bool (b : Bool) : Finite (.bool b)
  | int {n : Int} (h : Decimal.isFinite (Decimal.ofInt n) = true) : Finite (.int n)
  | float {x : Float} (h : Decimal.isFinite x = true) : Finite (.float x)
  | text (s : String) : Finite (.text s)
  | list {items : List Json} (h : ∀ v ∈ items, Finite v) : Finite (.list items)
  | object {ms : Fields Json} (h : ∀ m ∈ ms, Finite m.2) : Finite (.object ms)

/-- All values of the members are finite. -/
def FiniteMembers (ms : Fields Json) : Prop := ∀ m ∈ ms, m.2.Finite

namespace FiniteMembers

variable {ms : Fields Json}

theorem get? (h : FiniteMembers ms) {k : String} {v : Json} (hv : ms.get? k = some v) : v.Finite :=
  h _ (Fields.mem_of_get? hv)

theorem erase (h : FiniteMembers ms) (k : String) : FiniteMembers (ms.erase k) :=
  fun m hm => h m (List.mem_of_mem_filter hm)

theorem insert (h : FiniteMembers ms) (k : String) {v : Json} (hv : v.Finite) :
    FiniteMembers (ms.insert k v) := by
  intro m hm
  rcases Fields.mem_insert hm with rfl | hm
  · exact hv
  · exact h m hm

end FiniteMembers

namespace Finite

/-- The double that a finite value denotes is finite. -/
theorem number? {v : Json} (h : v.Finite) {x : Float} (hx : v.number? = some x) :
    Decimal.isFinite x = true := by
  cases h with
  | int h | float h =>
    cases hx
    exact h
  | null | bool | text | list | object => cases hx

theorem ofMembers {ms : Fields Json} (h : FiniteMembers ms) : (Json.ofMembers ms).Finite := by
  refine .object fun m hm => ?_
  have hget := Dict.mem_entries.1 hm
  rw [Dict.get?_ofList] at hget
  exact h m (List.mem_reverse.1 (Fields.mem_of_get? hget))

end Finite

namespace Reader

/-! ## Numbers -/

theorem appendDigits_le {n : Nat} (h : n ≤ maxWord) (ds : List Char) :
    (appendDigits n ds).1 ≤ maxWord := by
  induction ds generalizing n with
  | nil => exact h
  | cons c ds ih =>
    simp only [appendDigits]
    by_cases hnext : n * 10 + (c.toNat - '0'.toNat) ≤ maxWord
    · rw [if_pos hnext]
      exact ih hnext
    · rw [if_neg hnext]
      exact h

theorem integer_finite {n : Nat} (negative : Bool) (h : n ≤ maxWord) :
    (integer negative n).Finite := by
  have hbits : n < 2 ^ 64 := by
    simp only [maxWord] at h
    omega
  unfold integer
  cases negative with
  | false => exact .int (Decimal.isFinite_ofInt (by simpa using hbits))
  | true =>
    simp only [Bool.not_true, Bool.false_eq_true, if_false]
    split
    · exact .float (Decimal.isFinite_neg (Decimal.isFinite_ofNat hbits))
    · exact .int (Decimal.isFinite_ofInt (by simpa using hbits))

section Rules

variable {rules : Rules} (hhuge : rules.keepHuge = false)

include hhuge

theorem float_finite {negative : Bool} {significand : Nat} {e : Int} {s rest : List Char} {v : Json}
    (h : float rules negative significand e s = .ok (v, rest)) : v.Finite := by
  have hchecked : ∀ {x : Float} {s' : List Char},
      (if rules.keepHuge || Decimal.isFinite x then
        .ok (.float (if negative then -x else x), s') else .error s' : Except Stop _) =
          .ok (v, rest) → v.Finite := by
    intro x s' h
    rw [hhuge, Bool.false_or] at h
    by_cases hfinite : Decimal.isFinite x = true
    · rw [if_pos hfinite] at h
      cases h
      cases negative with
      | false => exact .float hfinite
      | true => exact .float (Decimal.isFinite_neg hfinite)
    · rw [if_neg hfinite] at h
      cases h
  unfold float at h
  dsimp only at h
  split at h
  · obtain ⟨⟨e', s'⟩, -, h⟩ := bind_eq_ok.1 h
    exact hchecked h
  · obtain ⟨⟨e', s'⟩, -, h⟩ := bind_eq_ok.1 h
    exact hchecked h
  · exact hchecked h

theorem number_finite {negative : Bool} {s rest : List Char} {v : Json}
    (h : number rules negative s = .ok (v, rest)) : v.Finite := by
  unfold number at h
  split at h
  rename_i ds rest' _
  split at h
  · cases h
  split at h
  · cases h
  have hle : (appendDigits 0 ds).1 ≤ maxWord := appendDigits_le (Nat.zero_le _) ds
  split at h
  rename_i significand taken hdigits
  rw [hdigits] at hle
  split at h
  · split at h
    split at h
    · cases h
    · exact float_finite hhuge h
  · exact float_finite hhuge h
  · exact float_finite hhuge h
  · dsimp only at h
    split at h
    · cases h
      exact integer_finite negative hle
    · exact float_finite hhuge h

end Rules

/-! ## Values -/

/-- Whatever the reader reads is finite. -/
def Yields (scan : Scanner Json) : Prop := ∀ s v rest, scan s = .ok (v, rest) → v.Finite

theorem word_yields {v : Json} (hv : v.Finite) (letters : List Char) : Yields (word v letters) := by
  intro s v' rest h
  induction letters generalizing s with
  | nil =>
    cases h
    exact hv
  | cons e es ih =>
    cases s with
    | nil => cases h
    | cons c s =>
      rw [word] at h
      by_cases hc : c = e
      · rw [if_pos hc] at h
        exact ih s h
      · rw [if_neg hc] at h
        cases h

theorem items_yields {item : Scanner Json} (hitem : Yields item) (fuel : Nat) {acc : List Json}
    (hacc : ∀ v ∈ acc, v.Finite) : Yields (items item fuel acc) := by
  intro s v rest h
  induction fuel generalizing acc s with
  | zero => cases h
  | succ fuel ih =>
    rw [items] at h
    obtain ⟨⟨w, s'⟩, hw, h⟩ := bind_eq_ok.1 h
    have hcons : ∀ u ∈ w :: acc, u.Finite := List.forall_mem_cons.2 ⟨hitem _ _ _ hw, hacc⟩
    dsimp only at h
    split at h
    · cases h
      exact .list fun u hu => hcons u (List.mem_reverse.1 hu)
    · split at h
      · cases h
      · exact ih hcons _ h
    · cases h

theorem list_yields {item : Scanner Json} (hitem : Yields item) : Yields (list item) := by
  intro s v rest h
  unfold list at h
  split at h
  · cases h
    exact .list fun u hu => absurd hu List.not_mem_nil
  · exact items_yields hitem _ (fun u hu => absurd hu List.not_mem_nil) _ _ _ h

/-- Members with names all have names, and the values stay. -/
theorem mem_of_mapM {ms : List (Option String × Json)} {named : Fields Json}
    (h : (ms.mapM fun (k, v) => k.map (·, v)) = some named) {m : String × Json} (hm : m ∈ named) :
    (some m.1, m.2) ∈ ms := by
  induction ms generalizing named with
  | nil =>
    cases h
    cases hm
  | cons first ms ih =>
    obtain ⟨k, v⟩ := first
    rw [List.mapM_cons] at h
    obtain ⟨found, hfound, h⟩ := Option.bind_eq_some_iff.1 h
    obtain ⟨others, hothers, h⟩ := Option.bind_eq_some_iff.1 h
    cases h
    obtain ⟨name, rfl, rfl⟩ := Option.map_eq_some_iff.1 hfound
    rcases List.mem_cons.1 hm with rfl | hm
    · exact List.mem_cons_self
    · exact List.mem_cons_of_mem _ (ih hothers hm)

theorem assemble_finite {rules : Rules} {ms : List (Option String × Json)}
    (h : ∀ m ∈ ms, m.2.Finite) : (assemble rules ms).Finite := by
  unfold assemble
  split
  · rename_i named hnamed
    have hmembers : FiniteMembers named :=
      fun m hm => h _ (List.mem_reverse.1 (mem_of_mapM hnamed hm))
    split
    · exact .object hmembers
    · exact .ofMembers hmembers
  · exact .null

theorem members_yields {rules : Rules} {value : Scanner Json} (hvalue : Yields value) (fuel : Nat)
    {acc : List (Option String × Json)} (hacc : ∀ m ∈ acc, m.2.Finite) :
    Yields (members rules value fuel acc) := by
  intro s v rest h
  induction fuel generalizing acc s with
  | zero => cases h
  | succ fuel ih =>
    unfold members at h
    split at h
    · obtain ⟨⟨k, s'⟩, -, h⟩ := bind_eq_ok.1 h
      dsimp only at h
      split at h
      · obtain ⟨⟨w, s''⟩, hw, h⟩ := bind_eq_ok.1 h
        have hcons : ∀ m ∈ (k, w) :: acc, m.2.Finite :=
          List.forall_mem_cons.2 ⟨hvalue _ _ _ hw, hacc⟩
        dsimp only at h
        split at h
        · cases h
          exact assemble_finite hcons
        · exact ih hcons _ h
        · cases h
      · cases h
    · cases h

theorem object_yields {rules : Rules} {value : Scanner Json} (hvalue : Yields value) :
    Yields (object rules value) := by
  intro s v rest h
  unfold object at h
  split at h
  · cases h
    exact .object fun m hm => absurd hm List.not_mem_nil
  · exact members_yields hvalue _ (fun m hm => absurd hm List.not_mem_nil) _ _ _ h

section Value

variable {rules : Rules} (hhuge : rules.keepHuge = false)

include hhuge

theorem value_yields_of {levels : Nat}
    (hlower : ∀ lower, levels = lower + 1 → Yields (value rules lower)) :
    Yields (value rules levels) := by
  intro s v rest h
  unfold value at h
  split at h
  · cases h
  · exact word_yields .null _ _ _ _ h
  · exact word_yields (.bool true) _ _ _ _ h
  · exact word_yields (.bool false) _ _ _ _ h
  · exact number_finite hhuge h
  · obtain ⟨⟨w, s'⟩, -, h⟩ := bind_eq_ok.1 h
    cases h
    cases w with
    | none => exact .null
    | some w => exact .text w
  · cases levels with
    | zero => cases h
    | succ lower => exact list_yields (hlower lower rfl) _ _ _ h
  · cases levels with
    | zero => cases h
    | succ lower => exact object_yields (hlower lower rfl) _ _ _ h
  · split at h
    · exact number_finite hhuge h
    · cases h

/-- **A reader that refuses numbers beyond the doubles** reads finite values, by induction on the
levels that may be opened. -/
theorem value_yields (levels : Nat) : Yields (value rules levels) := by
  induction levels with
  | zero => exact value_yields_of hhuge fun lower hlower => absurd hlower (Nat.succ_ne_zero lower).symm
  | succ levels ih =>
    refine value_yields_of hhuge fun lower hlower => ?_
    obtain rfl := Nat.succ.inj hlower
    exact ih

theorem readWith_finite {s : List Char} {v : Json} (h : readWith rules s = .ok v) : v.Finite := by
  unfold readWith at h
  obtain ⟨⟨w, rest⟩, hw, h⟩ := bind_eq_ok.1 h
  dsimp only at h
  split at h
  · cases h
    exact value_yields hhuge _ _ _ _ hw
  · cases h

end Value

end Reader

/-- **What is read from a text is finite.** -/
theorem read_finite {text : String} {v : Json} (h : read text = .ok v) : v.Finite := by
  unfold read at h
  dsimp only at h
  cases hread : Reader.readWith .standard text.toList with
  | error stop =>
    rw [hread] at h
    cases h
  | ok w =>
    rw [hread] at h
    cases h
    exact Reader.readWith_finite rfl hread

end Galley.Json
