import ContainerAudit.Dockerfile.Read
import ContainerAudit.Proofs.Text.Blank
import ContainerAudit.Proofs.Text.LetterCase

/-!
# What a line gives an instruction

A line is skipped exactly if nothing is left of it once its comment is stripped
(`stripComment_eq_nil_iff`).  Everything else turns on the first character that is not blank:
trimming keeps it, stripping a comment drops it only if it starts the comment, and the joined line
of an instruction begins with that of its first piece.  So the joined line is never empty and always
begins with a keyword.
-/

namespace ContainerAudit.Dockerfile

open ContainerAudit.Text (trim trimEnd isBlank joinWith)

/-! ## Skipped lines and comments -/

theorem isSkipped_eq (l : Line) : isSkipped l = (l.find? (!isBlank ·)).all (· = '#') := by
  rw [← Text.head?_trim, isSkipped]
  cases trim l <;> rfl

theorem isSkipped_trimEnd (l : Line) : isSkipped (trimEnd l) = isSkipped l := by
  rw [isSkipped_eq, Text.find?_trimEnd, isSkipped_eq]

/-- At the start of a line a blank neither opens quotes nor starts a comment. -/
theorem beforeComment_blank {previous c : Char} (hc : isBlank c = true) (l : Line) :
    beforeComment none previous (c :: l) = c :: beforeComment none c l := by
  have hsign : c ≠ '#' := fun h => absurd hc (by rw [h]; decide)
  have hsingle : c ≠ '\'' := fun h => absurd hc (by rw [h]; decide)
  have hdouble : c ≠ '"' := fun h => absurd hc (by rw [h]; decide)
  simp [beforeComment, nextQuotes, hsign, hsingle, hdouble]

/-- The first character that is not blank stays, unless it starts the comment. -/
theorem find?_beforeComment {previous : Char} (hprevious : isBlank previous = true) (l : Line) :
    (beforeComment none previous l).find? (!isBlank ·) =
      (l.find? (!isBlank ·)).filter (· ≠ '#') := by
  induction l generalizing previous with
  | nil => rfl
  | cons c l ih =>
      cases hc : isBlank c with
      | true =>
          rw [beforeComment_blank hc]
          simp only [List.find?_cons, hc, Bool.not_true]
          exact ih hc
      | false =>
          by_cases hsign : c = '#'
          · subst hsign
            simp [beforeComment, isBare, hprevious, hc, Option.filter]
          · simp [beforeComment, hsign, hc, Option.filter]

theorem beforeComment_isPrefix (quotes : Quotes) (previous : Char) (l : Line) :
    beforeComment quotes previous l <+: l := by
  induction l generalizing quotes previous with
  | nil => exact List.prefix_rfl
  | cons c l ih =>
      rw [beforeComment]
      split
      · exact List.nil_prefix
      · exact List.cons_prefix_cons.mpr ⟨rfl, ih _ _⟩

theorem stripComment_isInfix (l : Line) : stripComment l <:+: l :=
  (Text.trim_isInfix _).trans (beforeComment_isPrefix none ' ' l).isInfix

theorem stripComment_eq_nil_iff {l : Line} : stripComment l = [] ↔ isSkipped l = true := by
  rw [stripComment, Text.trim_eq_nil_iff, find?_beforeComment (by decide), isSkipped_eq]
  cases l.find? (!isBlank ·) <;> simp

/-! ## The joined line -/

/-- The text does not begin with a blank. -/
def BeginsSolid (s : List Char) : Prop :=
  ∀ c, s.head? = some c → isBlank c = false

theorem beginsSolid_trim (s : List Char) : BeginsSolid (trim s) := by
  intro c hc
  rw [Text.head?_trim] at hc
  simpa using List.find?_some hc

theorem beginsSolid_joinPieces {pieces : List (List Char)} (h : ∀ p ∈ pieces, BeginsSolid p) :
    BeginsSolid (joinPieces pieces) := by
  intro c hc
  rw [joinPieces] at hc
  cases hp : pieces.filter (!·.isEmpty) with
  | nil => simp [hp, joinWith] at hc
  | cons p ps =>
      have hmem : p ∈ pieces.filter (!·.isEmpty) := hp ▸ List.mem_cons_self
      obtain ⟨hmem, hne⟩ := List.mem_filter.mp hmem
      cases p with
      | nil => simp at hne
      | cons d p =>
          have hd : d = c := by
            cases ps <;> simpa [hp, joinWith] using hc
          exact h _ hmem c (by rw [hd]; rfl)

theorem joinPieces_ne_nil {pieces : List (List Char)} {p : List Char} (hp : p ∈ pieces)
    (hne : p ≠ []) : joinPieces pieces ≠ [] := by
  have hmem : p ∈ pieces.filter (!·.isEmpty) := List.mem_filter.mpr ⟨hp, by simpa using hne⟩
  rw [joinPieces]
  cases hq : pieces.filter (!·.isEmpty) with
  | nil => exact absurd (hq ▸ hmem) List.not_mem_nil
  | cons q qs =>
      have hq' : q ≠ [] := by
        have hmem : q ∈ pieces.filter (!·.isEmpty) := hq ▸ List.mem_cons_self
        simpa [List.isEmpty_iff] using (List.mem_filter.mp hmem).2
      exact Text.joinWith_ne_nil hq'

theorem joinPieces_singleton {p : List Char} (hne : p ≠ []) : joinPieces [p] = p := by
  rw [joinPieces, List.filter_cons_of_pos (by simpa using hne)]
  rfl

/-- The last line of an instruction leaves something of itself, since it is not skipped. -/
theorem joinPieces_concat_ne_nil (pieces : List (List Char)) {l : Line}
    (hl : isSkipped l = false) : joinPieces (pieces ++ [stripComment (trimEnd l)]) ≠ [] := by
  refine joinPieces_ne_nil (List.mem_append_right _ List.mem_cons_self) ?_
  rw [Ne, stripComment_eq_nil_iff, isSkipped_trimEnd, hl]
  exact Bool.false_ne_true

/-! ## Keywords -/

/-- The keyword is there and has no blanks in it. -/
def Statement.Named (s : Statement) : Prop :=
  s.keyword ≠ [] ∧ ∀ c ∈ s.keyword, isBlank c = false

theorem header_named (start : Nat) {logical : List Char} (hne : logical ≠ [])
    (hbegin : BeginsSolid logical) : (header start logical).Named := by
  have hsolid : ∀ c ∈ logical.takeWhile (!isBlank ·), isBlank c = false := by
    intro c hc
    simpa using List.mem_takeWhile_imp hc
  refine ⟨Text.upper_ne_nil ?_ hsolid, Text.upper_not_blank hsolid⟩
  cases logical with
  | nil => exact absurd rfl hne
  | cons c logical => simp [hbegin c rfl]

/-! ## The escape character -/

theorem escapeChar_of_not_skipped {l : Line} (h : isSkipped l = false) (ls : List Line) :
    escapeChar (l :: ls) = '\\' := by
  have hdirective : directive? l = none := by
    unfold directive?
    unfold isSkipped at h
    split
    · rename_i heq
      exact absurd h (by simp [heq])
    · rfl
  rw [escapeChar, hdirective]

/-- What is no directive ends the head of the file. -/
theorem escapeChar_append_cons (ls : List Line) {l : Line} (h : isSkipped l = false)
    (rest : List Line) : escapeChar (ls ++ l :: rest) = escapeChar ls := by
  induction ls with
  | nil => exact escapeChar_of_not_skipped h rest
  | cons m ls ih => simp only [List.cons_append, escapeChar, ih]

theorem isBlank_escapeChar (ls : List Line) : isBlank (escapeChar ls) = false := by
  fun_induction escapeChar ls with
  | case1 => decide
  | case2 => decide
  | case3 => decide
  | case4 => decide
  | case5 _ _ _ _ _ _ _ _ ih => exact ih
  | case6 _ _ _ _ _ _ ih => exact ih

end ContainerAudit.Dockerfile
