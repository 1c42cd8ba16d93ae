import Galley.Text.Blank
import Mathlib

/-!
# Words of a text

What is in the words of a text is in the text and no blank. A blank keeps the words on its two
sides apart (`words_append`), and words put together with blanks are found again
(`words_joinWith`).
-/

namespace Galley.Text

/-! ## What is in words -/

theorem mem_pieces {sep : Char → Bool} {s w : List Char} (h : w ∈ pieces sep s) :
    ∀ c ∈ w, c ∈ s ∧ sep c = false := by
  induction s generalizing w with
  | nil => simp_all [pieces]
  | cons a s ih =>
    have hrest : ∀ v ∈ pieces sep s, ∀ c ∈ v, c ∈ a :: s ∧ sep c = false := fun v hv c hc =>
      ⟨List.mem_cons_of_mem _ (ih hv c hc).1, (ih hv c hc).2⟩
    unfold pieces at h
    split at h
    · rcases List.mem_cons.1 h with rfl | h
      · intro c hc
        exact absurd hc List.not_mem_nil
      · exact hrest w h
    · rename_i ha
      split at h
      · rename_i heq
        exact absurd heq (pieces_ne_nil sep s)
      · rename_i p ps heq
        rw [heq] at hrest
        rcases List.mem_cons.1 h with rfl | h
        · intro c hc
          rcases List.mem_cons.1 hc with rfl | hc
          · exact ⟨List.mem_cons_self, by simpa using ha⟩
          · exact hrest p List.mem_cons_self c hc
        · exact hrest w (List.mem_cons_of_mem _ h)

theorem pieces_of_forall {sep : Char → Bool} {s : List Char} (h : ∀ c ∈ s, sep c = false) :
    pieces sep s = [s] := by
  induction s with
  | nil => rfl
  | cons a s ih =>
    have ha := h a List.mem_cons_self
    rw [pieces, ih fun c hc => h c (List.mem_cons_of_mem _ hc)]
    simp [ha]

/-- What changes every character, but no separator and into none, changes the pieces. -/
theorem pieces_map {sep : Char → Bool} {f : Char → Char} {s : List Char}
    (h : ∀ c ∈ s, sep (f c) = sep c) : pieces sep (s.map f) = (pieces sep s).map (List.map f) := by
  induction s with
  | nil => rfl
  | cons a s ih =>
    have ha : sep (f a) = sep a := h a List.mem_cons_self
    rw [List.map_cons, pieces, pieces, ha, ih fun c hc => h c (List.mem_cons_of_mem _ hc)]
    split
    · rfl
    · obtain ⟨p, ps, hps⟩ := List.exists_cons_of_ne_nil (pieces_ne_nil sep s)
      rw [hps]
      rfl

theorem mem_of_mem_words {s w : List Char} {c : Char} (hw : w ∈ words s) (hc : c ∈ w) :
    c ∈ s ∧ isBlank c = false :=
  mem_pieces (List.mem_filter.1 hw).1 c hc

theorem ne_nil_of_mem_words {s w : List Char} (hw : w ∈ words s) : w ≠ [] := by
  simpa using (List.mem_filter.1 hw).2

theorem words_of_forall {s : List Char} (h : ∀ c ∈ s, isBlank c = false) :
    words s = if s = [] then [] else [s] := by
  rw [words, pieces_of_forall h]
  cases s <;> simp

theorem joinWith_cons_cons (sep w v : List Char) (vs : List (List Char)) :
    joinWith sep (w :: v :: vs) = w ++ (sep ++ joinWith sep (v :: vs)) := by
  simp [joinWith]

theorem joinWith_eq_nil_iff {sep : List Char} {ws : List (List Char)} (h : ∀ w ∈ ws, w ≠ []) :
    joinWith sep ws = [] ↔ ws = [] := by
  cases ws with
  | nil => simp [joinWith]
  | cons w ws =>
    have hw : w ≠ [] := h w List.mem_cons_self
    cases ws with
    | nil => simpa [joinWith] using hw
    | cons v vs => simp [joinWith_cons_cons, hw]

theorem mem_joinWith {sep : List Char} {ws : List (List Char)} {c : Char}
    (h : c ∈ joinWith sep ws) : c ∈ sep ∨ ∃ w ∈ ws, c ∈ w := by
  induction ws with
  | nil => simp [joinWith] at h
  | cons w ws ih =>
    cases ws with
    | nil => exact .inr ⟨w, List.mem_cons_self, by simpa [joinWith] using h⟩
    | cons v vs =>
      rw [joinWith_cons_cons, List.mem_append, List.mem_append] at h
      rcases h with h | h | h
      · exact .inr ⟨w, List.mem_cons_self, h⟩
      · exact .inl h
      · rcases ih h with h | ⟨u, hu, hc⟩
        · exact .inl h
        · exact .inr ⟨u, List.mem_cons_of_mem _ hu, hc⟩

/-- What changes every character changes the words and the separators. -/
theorem map_joinWith (f : Char → Char) (sep : List Char) (ws : List (List Char)) :
    (joinWith sep ws).map f = joinWith (sep.map f) (ws.map (List.map f)) := by
  induction ws with
  | nil => rfl
  | cons w ws ih =>
    cases ws with
    | nil => simp [joinWith]
    | cons v vs =>
      rw [joinWith_cons_cons, List.map_append, List.map_append, ih]
      simp only [List.map_cons, joinWith_cons_cons]

/-! ## Blanks at the start -/

theorem trimStart_append {blanks s : List Char} (hblanks : ∀ c ∈ blanks, isBlank c = true)
    (hs : ∀ c ∈ s.head?, isBlank c = false) : trimStart (blanks ++ s) = s := by
  rw [trimStart, List.dropWhile_append_of_pos hblanks]
  cases s with
  | nil => rfl
  | cons c s => exact List.dropWhile_cons_of_neg (by simp [hs c rfl])

theorem exists_trimStart (s : List Char) :
    ∃ blanks, s = blanks ++ trimStart s ∧ ∀ c ∈ blanks, isBlank c = true :=
  ⟨s.takeWhile isBlank, List.takeWhile_append_dropWhile.symm,
    fun _ hc => List.mem_takeWhile_imp hc⟩

/-! ## Words around blanks -/

theorem pieces_append_sep {sep : Char → Bool} {c : Char} (hc : sep c = true) (s t : List Char) :
    pieces sep (s ++ c :: t) = pieces sep s ++ pieces sep t := by
  induction s with
  | nil => simp [pieces, hc]
  | cons x s ih =>
    rw [List.cons_append, pieces, pieces, ih]
    by_cases hx : sep x = true
    · simp [hx]
    · obtain ⟨p, ps, hps⟩ := List.exists_cons_of_ne_nil (pieces_ne_nil sep s)
      simp [hx, hps]

theorem words_append_blank {c : Char} (hc : isBlank c = true) (s t : List Char) :
    words (s ++ c :: t) = words s ++ words t := by
  rw [words, pieces_append_sep hc, List.filter_append, ← words, ← words]

theorem words_blank_append {w : List Char} (hw : ∀ c ∈ w, isBlank c = true) (s : List Char) :
    words (w ++ s) = words s := by
  induction w with
  | nil => rfl
  | cons c w ih =>
    have hrest : words (w ++ s) = words s := ih fun d hd => hw d (List.mem_cons_of_mem _ hd)
    have hfirst := words_append_blank (hw c List.mem_cons_self) [] (w ++ s)
    rw [List.nil_append] at hfirst
    rw [List.cons_append, hfirst, hrest]
    rfl

/-- Blanks between two texts keep their words apart. -/
theorem words_append {w : List Char} (hne : w ≠ []) (hw : ∀ c ∈ w, isBlank c = true)
    (s t : List Char) : words (s ++ w ++ t) = words s ++ words t := by
  obtain ⟨c, w, rfl⟩ := List.exists_cons_of_ne_nil hne
  rw [List.append_assoc, List.cons_append, words_append_blank (hw c List.mem_cons_self),
    words_blank_append fun d hd => hw d (List.mem_cons_of_mem _ hd)]

theorem words_append_blanks {w : List Char} (hw : ∀ c ∈ w, isBlank c = true) (s : List Char) :
    words (s ++ w) = words s := by
  by_cases hnil : w = []
  · rw [hnil, List.append_nil]
  · have hnone : words [] = [] := rfl
    have happend := words_append hnil hw s []
    rwa [List.append_nil, hnone, List.append_nil] at happend

/-- Words with single spaces between them are the words of that text. -/
theorem words_joinWith {ws : List (List Char)}
    (h : ∀ w ∈ ws, w ≠ [] ∧ ∀ c ∈ w, isBlank c = false) : words (joinWith [' '] ws) = ws := by
  have hword : ∀ w ∈ ws, words w = [w] := by
    intro w hw
    rw [words_of_forall (h w hw).2, if_neg (h w hw).1]
  induction ws with
  | nil => rfl
  | cons w ws ih =>
    cases ws with
    | nil => simpa [joinWith] using hword w List.mem_cons_self
    | cons v vs =>
      have hrest : words (joinWith [' '] (v :: vs)) = v :: vs :=
        ih (fun u hu => h u (List.mem_cons_of_mem _ hu))
          fun u hu => hword u (List.mem_cons_of_mem _ hu)
      rw [joinWith_cons_cons, List.singleton_append, words_append_blank (by decide),
        hword w List.mem_cons_self, hrest]
      rfl

end Galley.Text
