import ContainerAudit.Text.Blank
import Mathlib.Data.List.DropRight
import Mathlib.Data.List.TakeWhile

/-!
# Lines and trimming

What the two ways of cutting a text at its blanks keep.  Lines are cut at the end of one text
regardless of what comes after it, provided that the text ends with a line feed: a carriage return
there would join a line feed at the start of the next text (`lines_append`).  Lines joined with line
feeds are cut apart again (`lines_joinWith`), unless the last of them is empty and leaves no trace.
Trimming leaves the first character that is not blank in its place (`head?_trim`), which is all that
decides whether a line is skipped, and has nothing left to do on a trimmed text (`trim_trim`).
Lines and trimmed texts stand in their text as they are (`isInfix_of_mem_lines`, `trim_isInfix`).
-/

namespace ContainerAudit.Text

-- The equations of both are made here, once.  Made on demand, all proofs below would wait for them
-- together.
attribute [local simp] lines joinWith

/-! ## Lines of a text behind another -/

/-- The text is empty or ends with a line feed, so that nothing put after it joins its last line. -/
def EndsLine (s : List Char) : Prop :=
  s = [] ∨ s.getLast? = some '\n'

theorem EndsLine.tail {c : Char} {s : List Char} (h : EndsLine (c :: s)) : EndsLine s := by
  cases s with
  | nil => exact Or.inl rfl
  | cons d s =>
      rcases h with h | h
      · exact absurd h (List.cons_ne_nil _ _)
      · exact Or.inr (by simpa using h)

/-- A carriage return and the line feed of another text do not meet where a line ends. -/
theorem EndsLine.no_joined_end {c : Char} {s : List Char} (h : EndsLine (c :: s))
    (hcr : ∀ rest, c = '\r' → s = '\n' :: rest → False) (t : List Char) :
    ∀ rest, c = '\r' → s ++ t = '\n' :: rest → False := by
  intro rest hc hs
  cases s with
  | nil =>
      subst hc
      exact absurd h (by simp [EndsLine])
  | cons d s =>
      obtain ⟨rfl, -⟩ := List.cons.inj hs
      exact hcr s hc rfl

/-- A text with a character in it has a line. -/
theorem lines_ne_nil {s : List Char} (h : s ≠ []) : lines s ≠ [] := by
  fun_cases lines s <;> simp_all

theorem lines_append {s : List Char} (h : EndsLine s) (t : List Char) :
    lines (s ++ t) = lines s ++ lines t := by
  fun_induction lines s with
  | case1 => rfl
  | case2 rest ih =>
      simp only [List.cons_append, lines, ih h.tail.tail]
  | case3 c rest hcr hend ih =>
      rw [List.cons_append, lines.eq_3 c (rest ++ t) (h.no_joined_end hcr t), if_pos hend,
        ih h.tail, List.cons_append]
  | case4 c rest hcr hend hl ih =>
      -- a character that ends no line has another one after it, so the rest has a line
      have hrest : rest = [] := by
        by_contra hne
        exact lines_ne_nil hne hl
      subst hrest
      have hc : c = '\n' := by simpa [EndsLine] using h
      exact absurd (by rw [hc]; decide) hend
  | case5 c rest hcr hend l ls hl ih =>
      rw [List.cons_append, lines.eq_3 c (rest ++ t) (h.no_joined_end hcr t), if_neg hend,
        ih h.tail, hl]
      rfl

/-! ## Lines of joined lines -/

/-- No character of the text ends a line. -/
def OneLine (s : List Char) : Prop :=
  ∀ c ∈ s, isLineEnd c = false

theorem oneLine_of_mem_lines {s l : List Char} (h : l ∈ lines s) : OneLine l := by
  fun_induction lines s generalizing l with
  | case1 => exact absurd h List.not_mem_nil
  | case2 rest ih =>
      rcases List.mem_cons.mp h with rfl | h
      · exact fun _ hc => absurd hc List.not_mem_nil
      · exact ih h
  | case3 c rest _ _ ih =>
      rcases List.mem_cons.mp h with rfl | h
      · exact fun _ hc => absurd hc List.not_mem_nil
      · exact ih h
  | case4 c rest _ hend _ _ =>
      rw [List.mem_singleton.mp h]
      exact List.forall_mem_singleton.mpr (Bool.eq_false_iff.mpr hend)
  | case5 c rest _ hend l' ls hl ih =>
      rw [hl] at ih
      rcases List.mem_cons.mp h with rfl | h
      · exact List.forall_mem_cons.mpr ⟨Bool.eq_false_iff.mpr hend, ih List.mem_cons_self⟩
      · exact ih (List.mem_cons_of_mem _ h)

theorem isPrefix_of_lines {s l : List Char} {ls : List (List Char)} (h : lines s = l :: ls) :
    l <+: s := by
  fun_induction lines s generalizing l ls with
  | case1 => exact absurd h (by simp)
  | case2 rest _ =>
      obtain ⟨rfl, -⟩ := List.cons.inj h
      exact List.nil_prefix
  | case3 c rest _ _ _ =>
      obtain ⟨rfl, -⟩ := List.cons.inj h
      exact List.nil_prefix
  | case4 c rest _ _ _ _ =>
      obtain ⟨rfl, -⟩ := List.cons.inj h
      exact List.cons_prefix_cons.mpr ⟨rfl, List.nil_prefix⟩
  | case5 c rest _ _ l' ls' hl ih =>
      obtain ⟨rfl, -⟩ := List.cons.inj h
      exact List.cons_prefix_cons.mpr ⟨rfl, ih hl⟩

/-- A line stands in its text as it is. -/
theorem isInfix_of_mem_lines {s l : List Char} (h : l ∈ lines s) : l <:+: s := by
  fun_induction lines s with
  | case1 => exact absurd h List.not_mem_nil
  | case2 rest ih =>
      rcases List.mem_cons.mp h with rfl | h
      · exact List.nil_infix
      · exact List.infix_cons (List.infix_cons (ih h))
  | case3 c rest _ _ ih =>
      rcases List.mem_cons.mp h with rfl | h
      · exact List.nil_infix
      · exact List.infix_cons (ih h)
  | case4 c rest _ _ _ _ =>
      rw [List.mem_singleton.mp h]
      exact (List.cons_prefix_cons.mpr ⟨rfl, List.nil_prefix⟩).isInfix
  | case5 c rest _ _ l' ls hl ih =>
      rcases List.mem_cons.mp h with rfl | h
      · exact (List.cons_prefix_cons.mpr ⟨rfl, isPrefix_of_lines hl⟩).isInfix
      · exact List.infix_cons (ih (hl ▸ List.mem_cons_of_mem l' h))

/-- A character that ends no line goes to the front of the first line after it. -/
theorem lines_cons_of_lines {c : Char} {s l : List Char} {ls : List (List Char)}
    (hc : isLineEnd c = false) (h : lines s = l :: ls) : lines (c :: s) = (c :: l) :: ls := by
  rw [lines.eq_3 c s (fun _ hcr _ => absurd hc (by rw [hcr]; decide)), if_neg (by simp [hc]), h]

theorem lines_append_newline {l : List Char} (h : OneLine l) (s : List Char) :
    lines (l ++ '\n' :: s) = l :: lines s := by
  induction l with
  | nil => rfl
  | cons c l ih =>
      obtain ⟨hc, hl⟩ := List.forall_mem_cons.mp h
      exact lines_cons_of_lines hc (ih hl)

theorem lines_of_oneLine {l : List Char} (h : OneLine l) (hne : l ≠ []) : lines l = [l] := by
  induction l with
  | nil => exact absurd rfl hne
  | cons c l ih =>
      obtain ⟨hc, hl⟩ := List.forall_mem_cons.mp h
      cases l with
      | nil => simp [hc]
      | cons d l => exact lines_cons_of_lines hc (ih hl (List.cons_ne_nil d l))

/-- Lines joined with line feeds are read back, if the last of them can be seen. -/
theorem lines_joinWith {ls : List (List Char)} (h : ∀ l ∈ ls, OneLine l)
    (hlast : ls.getLast? ≠ some []) : lines (joinWith ['\n'] ls) = ls := by
  induction ls with
  | nil => rfl
  | cons l ls ih =>
      obtain ⟨hl, hls⟩ := List.forall_mem_cons.mp h
      cases ls with
      | nil => exact lines_of_oneLine hl (fun h => hlast (congrArg some h))
      | cons m ls =>
          rw [joinWith, List.append_assoc, List.singleton_append, lines_append_newline hl,
            ih hls (by simpa using hlast)]

/-- Joining commutes with cutting a joined list in two. -/
theorem joinWith_cons_joinWith (separator s : List Char) (ss ts : List (List Char)) :
    joinWith separator (joinWith separator (s :: ss) :: ts) =
      joinWith separator (s :: ss ++ ts) := by
  induction ss generalizing s with
  | nil => rfl
  | cons t ss ih =>
      cases ts with
      | nil => simp
      | cons u ts =>
          simp only [List.cons_append, joinWith, List.append_assoc] at ih ⊢
          rw [ih]

theorem joinWith_append_cons (separator p s : List Char) (ss : List (List Char)) :
    joinWith separator ((p ++ s) :: ss) = p ++ joinWith separator (s :: ss) := by
  cases ss with
  | nil => rfl
  | cons t ss => simp only [joinWith, List.append_assoc]

theorem joinWith_eq_intercalate (separator : List Char) (ss : List (List Char)) :
    joinWith separator ss = separator.intercalate ss := by
  induction ss with
  | nil => rfl
  | cons s ss ih =>
      cases ss with
      | nil => simp
      | cons t ss => rw [joinWith, ih, List.intercalate_cons_cons]

theorem joinWith_concat {separator s : List Char} {ss : List (List Char)} (h : ss ≠ []) :
    joinWith separator (ss ++ [s]) = joinWith separator ss ++ separator ++ s := by
  induction ss with
  | nil => exact absurd rfl h
  | cons t ss ih =>
      cases ss with
      | nil => rfl
      | cons u ss =>
          simp only [List.cons_append, joinWith, List.append_assoc] at ih ⊢
          rw [ih (List.cons_ne_nil u ss)]

theorem mem_joinWith {separator : List Char} {ss : List (List Char)} {c : Char}
    (h : c ∈ joinWith separator ss) : c ∈ separator ∨ ∃ s ∈ ss, c ∈ s := by
  induction ss with
  | nil => exact absurd h List.not_mem_nil
  | cons s ss ih =>
      cases ss with
      | nil => exact Or.inr ⟨s, List.mem_cons_self, h⟩
      | cons t ss =>
          rw [joinWith, List.mem_append, List.mem_append] at h
          rcases h with (h | h) | h
          · exact Or.inr ⟨s, List.mem_cons_self, h⟩
          · exact Or.inl h
          · refine (ih h).imp_right ?_
            rintro ⟨u, hu, hc⟩
            exact ⟨u, List.mem_cons_of_mem _ hu, hc⟩

theorem joinWith_ne_nil {separator s : List Char} {ss : List (List Char)} (h : s ≠ []) :
    joinWith separator (s :: ss) ≠ [] := by
  cases ss with
  | nil => exact h
  | cons t ss =>
      rw [joinWith, List.append_assoc]
      exact List.append_ne_nil_of_left_ne_nil h _

theorem getLast?_joinWith {separator s : List Char} {ss : List (List Char)}
    (h : ss.getLast? = some s) (hne : s ≠ []) :
    (joinWith separator ss).getLast? = s.getLast? := by
  induction ss with
  | nil => exact absurd h (by simp)
  | cons t ss ih =>
      cases ss with
      | nil =>
          obtain rfl : t = s := by simpa using h
          rfl
      | cons u ss =>
          have hlast := ih (by simpa using h)
          have hrest : joinWith separator (u :: ss) ≠ [] := by
            intro hnil
            rw [hnil, List.getLast?_nil, eq_comm, List.getLast?_eq_none_iff] at hlast
            exact hne hlast
          rw [joinWith, List.getLast?_append_of_ne_nil _ hrest, hlast]

/-- Lines joined with line feeds are read back when a line feed and another text come behind
them. -/
theorem lines_joinWith_append {ls : List (List Char)} (hne : ls ≠ []) (h : ∀ l ∈ ls, OneLine l)
    (t : List Char) : lines (joinWith ['\n'] ls ++ '\n' :: t) = ls ++ lines t := by
  induction ls with
  | nil => exact absurd rfl hne
  | cons l ls ih =>
      obtain ⟨hl, hls⟩ := List.forall_mem_cons.mp h
      cases ls with
      | nil => exact lines_append_newline hl t
      | cons m ls =>
          rw [joinWith, List.append_assoc, List.append_assoc, List.singleton_append,
            lines_append_newline hl, ih (List.cons_ne_nil m ls) hls]
          rfl

/-! ## Trimming -/

/-- Trimming the end of a text drops blanks only. -/
theorem exists_trimEnd_append (s : List Char) :
    ∃ blanks, s = trimEnd s ++ blanks ∧ ∀ c ∈ blanks, isBlank c = true :=
  ⟨s.rtakeWhile isBlank, List.rdropWhile_append_rtakeWhile.symm,
    fun _ hc => List.mem_rtakeWhile_imp hc⟩

theorem exists_trim_append (s : List Char) :
    ∃ lead tail, s = lead ++ trim s ++ tail ∧ (∀ c ∈ lead, isBlank c = true) ∧
      ∀ c ∈ tail, isBlank c = true := by
  obtain ⟨tail, hs, htail⟩ := exists_trimEnd_append (trimStart s)
  refine ⟨s.takeWhile isBlank, tail, ?_, fun c hc => List.mem_takeWhile_imp hc, htail⟩
  rw [List.append_assoc, trim, ← hs]
  exact List.takeWhile_append_dropWhile.symm

theorem find?_trimEnd (s : List Char) :
    (trimEnd s).find? (!isBlank ·) = s.find? (!isBlank ·) := by
  obtain ⟨blanks, hs, hblank⟩ := exists_trimEnd_append s
  have hnone : blanks.find? (!isBlank ·) = none := by
    rw [List.find?_eq_none]
    intro c hc
    simp [hblank c hc]
  conv_rhs => rw [hs, List.find?_append, hnone, Option.or_none]

theorem head?_trimStart (s : List Char) : (trimStart s).head? = s.find? (!isBlank ·) :=
  (List.find?_not_eq_head?_dropWhile isBlank s).symm

/-- The first character of a trimmed text is the first one that is not blank. -/
theorem head?_trim (s : List Char) : (trim s).head? = s.find? (!isBlank ·) := by
  rw [← head?_trimStart, trim]
  cases ht : trimEnd (trimStart s) with
  | cons c t =>
      obtain ⟨blanks, hs, -⟩ := exists_trimEnd_append (trimStart s)
      rw [hs, ht]
      rfl
  | nil =>
      have hnone : (trimStart s).find? (!isBlank ·) = none := by
        rw [← find?_trimEnd, ht, List.find?_nil]
      cases hs : trimStart s with
      | nil => rfl
      | cons c t =>
          have hc : s.find? (!isBlank ·) = some c := by rw [← head?_trimStart, hs, List.head?_cons]
          have hblank := List.find?_some hc
          rw [hs, List.find?_cons, hblank] at hnone
          exact absurd hnone (Option.some_ne_none c)

theorem trim_eq_nil_iff {s : List Char} : trim s = [] ↔ s.find? (!isBlank ·) = none := by
  rw [← head?_trim, List.head?_eq_none_iff]

theorem trimEnd_eq_self {s : List Char} (h : ∀ c, s.getLast? = some c → isBlank c = false) :
    trimEnd s = s := by
  refine List.rdropWhile_eq_self_iff.mpr fun hne => ?_
  rw [h _ (List.getLast?_eq_some_getLast hne)]
  exact Bool.false_ne_true

theorem trimStart_eq_self {s : List Char} (h : ∀ c, s.head? = some c → isBlank c = false) :
    trimStart s = s := by
  cases s with
  | nil => rfl
  | cons c s =>
      have hc : ¬isBlank c = true := Bool.eq_false_iff.mp (h c rfl)
      rw [trimStart, List.dropWhile_cons_of_neg hc]

theorem getLast?_trim {s : List Char} {c : Char} (h : (trim s).getLast? = some c) :
    isBlank c = false := by
  have hne : trim s ≠ [] := fun hnil => absurd h (by simp [hnil])
  rw [List.getLast?_eq_some_getLast hne, Option.some.injEq] at h
  have hlast : ¬isBlank ((trim s).getLast hne) = true := List.rdropWhile_last_not _ _ hne
  rw [h] at hlast
  exact Bool.eq_false_iff.mpr hlast

theorem trim_eq_self {s : List Char} (hhead : ∀ c, s.head? = some c → isBlank c = false)
    (hlast : ∀ c, s.getLast? = some c → isBlank c = false) : trim s = s := by
  rw [trim, trimStart_eq_self hhead, trimEnd_eq_self hlast]

theorem trim_trim (s : List Char) : trim (trim s) = trim s := by
  refine trim_eq_self (fun c hc => ?_) fun c => getLast?_trim
  rw [head?_trim] at hc
  simpa using List.find?_some hc

/-- Blanks around a text that has none at its ends are what trimming takes away. -/
theorem trim_append_of_blanks {before s after : List Char} (hne : s ≠ []) (hs : trim s = s)
    (hbefore : ∀ c ∈ before, isBlank c = true) (hafter : ∀ c ∈ after, isBlank c = true) :
    trim (before ++ s ++ after) = s := by
  have hhead : ∀ c, (s ++ after).head? = some c → isBlank c = false := by
    intro c hc
    rw [List.head?_append_of_ne_nil _ hne, ← hs, head?_trim] at hc
    simpa using List.find?_some hc
  have hlast : trimEnd s = s := trimEnd_eq_self fun c hc => getLast?_trim (hs.symm ▸ hc)
  rw [trim, List.append_assoc, trimStart, List.dropWhile_append_of_pos hbefore]
  change trimEnd (trimStart (s ++ after)) = s
  rw [trimStart_eq_self hhead, trimEnd, List.reverse_append,
    List.dropWhile_append_of_pos (by simpa using hafter)]
  exact hlast

/-- Blanks behind a text are trimmed away with those at its end. -/
theorem trim_append_blanks (s : List Char) {blanks : List Char}
    (h : ∀ c ∈ blanks, isBlank c = true) : trim (s ++ blanks) = trim s := by
  have hend : ∀ t, trimEnd (t ++ blanks) = trimEnd t := by
    intro t
    rw [trimEnd, List.reverse_append, List.dropWhile_append_of_pos (by simpa using h), trimEnd]
  rw [trim, trimStart, List.dropWhile_append, trim, trimStart]
  split
  · next hnil => rw [List.isEmpty_iff.mp hnil, List.dropWhile_eq_nil_iff.mpr h]
  · exact hend _

theorem trim_trimEnd (s : List Char) : trim (trimEnd s) = trim s := by
  obtain ⟨blanks, hs, hblanks⟩ := exists_trimEnd_append s
  conv_rhs => rw [hs, trim_append_blanks _ hblanks]

theorem trimEnd_isPrefix (s : List Char) : trimEnd s <+: s :=
  List.rdropWhile_prefix isBlank s

theorem trim_isInfix (s : List Char) : trim s <:+: s :=
  (trimEnd_isPrefix _).isInfix.trans (List.dropWhile_suffix isBlank).isInfix

theorem mem_of_mem_trimEnd {s : List Char} {c : Char} (h : c ∈ trimEnd s) : c ∈ s :=
  (trimEnd_isPrefix s).subset h

theorem mem_of_mem_trim {s : List Char} {c : Char} (h : c ∈ trim s) : c ∈ s :=
  (trim_isInfix s).subset h

end ContainerAudit.Text
