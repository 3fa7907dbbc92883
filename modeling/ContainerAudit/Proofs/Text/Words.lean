import ContainerAudit.Text.Blank

/-!
# The words of a text

A text is made of its words: they have no blank in them, and there are blanks between two of them
and nowhere else but at the ends (`spaced_words`).
-/

namespace ContainerAudit.Text

/-! ## Words by the first characters of a text -/

section Words

-- The equations of `words` are read off its definition, which must not be opened further.
attribute [local irreducible] isBlank

theorem words_blank {c : Char} (h : isBlank c = true) (rest : List Char) :
    words (c :: rest) = words rest := by
  show (if isBlank c then words rest else _) = _
  rw [if_pos h]

theorem words_last {c d : Char} (hc : isBlank c = false) (hd : isBlank d = true)
    (rest : List Char) : words (c :: d :: rest) = [c] :: words rest := by
  show (if isBlank c then words (d :: rest) else _) = _
  rw [if_neg (by simp [hc]), words_blank hd]
  cases words rest with
  | nil => rfl
  | cons w ws => exact if_pos hd

theorem words_more {c d : Char} (hc : isBlank c = false) (hd : isBlank d = false)
    {rest w : List Char} {ws : List (List Char)} (hrest : words (d :: rest) = w :: ws) :
    words (c :: d :: rest) = (c :: w) :: ws := by
  show (if isBlank c then words (d :: rest) else _) = _
  rw [if_neg (by simp [hc]), hrest]
  exact if_neg (by simp [hd])

theorem words_only {c : Char} (h : isBlank c = false) : words [c] = [[c]] := by
  show (if isBlank c then words [] else _) = _
  rw [if_neg (by simp [h])]
  rfl

end Words

theorem words_append_space {s : List Char} (hne : s ≠ []) (h : ∀ c ∈ s, isBlank c = false)
    (rest : List Char) : words (s ++ ' ' :: rest) = s :: words rest := by
  induction s with
  | nil => exact absurd rfl hne
  | cons c s ih =>
      obtain ⟨hc, hs⟩ := List.forall_mem_cons.mp h
      cases s with
      | nil => exact words_last hc (by decide) rest
      | cons d s => exact words_more hc (hs d List.mem_cons_self) (ih (List.cons_ne_nil d s) hs)

/-! ## Texts made of words -/

/-- The text is made of the words, which have no blank in them, with blanks around them and at least
one between two neighbours. -/
inductive Spaced : List (List Char) → List Char → Prop
  | blanks {s : List Char} (h : ∀ c ∈ s, isBlank c = true) : Spaced [] s
  | word (lead : List Char) {w rest : List Char} {ws : List (List Char)}
      (hlead : ∀ c ∈ lead, isBlank c = true) (hne : w ≠ []) (hw : ∀ c ∈ w, isBlank c = false)
      (hend : ∀ c, rest.head? = some c → isBlank c = true) (hrest : Spaced ws rest) :
      Spaced (w :: ws) (lead ++ w ++ rest)

theorem Spaced.cons_blank {ws : List (List Char)} {s : List Char} (h : Spaced ws s) {c : Char}
    (hc : isBlank c = true) : Spaced ws (c :: s) := by
  cases h with
  | blanks h => exact .blanks (List.forall_mem_cons.mpr ⟨hc, h⟩)
  | @word lead w rest ws hlead hne hw hend hrest =>
      exact .word (c :: lead) (List.forall_mem_cons.mpr ⟨hc, hlead⟩) hne hw hend hrest

/-- A character that is not blank begins a word, or goes to the front of the word after it. -/
theorem Spaced.cons_solid {ws : List (List Char)} {d : Char} {s : List Char}
    (h : Spaced ws (d :: s)) (hd : isBlank d = false) {c : Char} (hc : isBlank c = false) :
    ∃ w ws', ws = w :: ws' ∧ Spaced ((c :: w) :: ws') (c :: d :: s) := by
  generalize htext : d :: s = t at h
  cases h with
  | blanks h =>
      subst htext
      exact absurd (h d List.mem_cons_self) (by simp [hd])
  | @word lead w rest ws hlead hne hw hend hrest =>
      cases lead with
      | nil =>
          refine ⟨w, ws, rfl, .word [] (by simp) (List.cons_ne_nil c w) ?_ hend hrest⟩
          exact List.forall_mem_cons.mpr ⟨hc, hw⟩
      | cons e lead =>
          obtain ⟨rfl, -⟩ := List.cons.inj htext
          exact absurd (hlead d List.mem_cons_self) (by simp [hd])

/-- A text is made of its words. -/
theorem spaced_words (s : List Char) : Spaced (words s) s := by
  induction s with
  | nil => exact .blanks (by simp)
  | cons c s ih =>
      cases hc : isBlank c with
      | true =>
          rw [words_blank hc]
          exact ih.cons_blank hc
      | false =>
          cases s with
          | nil =>
              rw [words_only hc]
              exact .word [] (by simp) (by simp) (by simpa using hc) (by simp) ih
          | cons d s =>
              cases hd : isBlank d with
              | true =>
                  rw [words_blank hd] at ih
                  rw [words_last hc hd]
                  exact .word [] (by simp) (by simp) (by simpa using hc)
                    (by simpa using hd) ih
              | false =>
                  obtain ⟨w, ws, hws, hspaced⟩ := ih.cons_solid hd hc
                  rwa [words_more hc hd hws]

theorem Spaced.isBlank_of_mem {ws : List (List Char)} {s : List Char} (h : Spaced ws s) :
    ∀ w ∈ ws, ∀ c ∈ w, isBlank c = false := by
  induction h with
  | blanks => simp
  | word _ _ _ hw _ _ ih => exact List.forall_mem_cons.mpr ⟨hw, ih⟩

end ContainerAudit.Text
