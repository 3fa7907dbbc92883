import ContainerAudit.Proofs.Dockerfile.Line

/-!
# Comments behind instructions

What stripping a comment keeps is described without the scan: of all front parts of a line in which
no comment starts it is the longest, trimmed (`stripComment_projects`).  Whether a comment can start
depends on the quotes that are open, which `Quoting` derives from the characters before.

A line that is stripped has no comment any more, so that stripping it again changes nothing.
Trimming does not bring one back: the blanks in front open no quotes, and behind them a comment
could have started just as it can at the start of a line.
-/

namespace ContainerAudit.Dockerfile

open ContainerAudit.Text (trim isBlank)

/-! ## Quotes -/

/-- The quotes that are open behind a text.  Quotes open at a quotation mark outside of quotes, and
close at the same mark if no backslash precedes it. -/
inductive Quoting : Line → Quotes → Prop
  | start : Quoting [] none
  | opens {l : Line} {c : Char} : Quoting l none → c = '\'' ∨ c = '"' → Quoting (l ++ [c]) (some c)
  | outside {l : Line} {c : Char} : Quoting l none → c ≠ '\'' → c ≠ '"' → Quoting (l ++ [c]) none
  | closes {l : Line} {quote : Char} : Quoting l (some quote) → l.getLast? ≠ some '\\' →
      Quoting (l ++ [quote]) none
  | inside {l : Line} {quote c : Char} : Quoting l (some quote) →
      c ≠ quote ∨ l.getLast? = some '\\' → Quoting (l ++ [c]) (some quote)

/-- The quotes that are open behind a text, if those before it and the character before it are
known. -/
def quotesFrom (quotes : Quotes) (previous : Char) : Line → Quotes
  | [] => quotes
  | c :: rest => quotesFrom (nextQuotes quotes previous c) c rest

theorem quotesFrom_concat (quotes : Quotes) (previous : Char) (l : Line) (c : Char) :
    quotesFrom quotes previous (l ++ [c]) =
      nextQuotes (quotesFrom quotes previous l) (l.getLastD previous) c := by
  induction l generalizing quotes previous with
  | nil => rfl
  | cons d l ih => rw [List.cons_append, quotesFrom, ih, List.getLastD_cons, quotesFrom]

theorem getLastD_eq_backslash_iff {l : Line} : l.getLastD ' ' = '\\' ↔ l.getLast? = some '\\' := by
  rw [List.getLastD_eq_getLast?]
  cases l.getLast? with
  | none => decide
  | some c => simp

theorem Quoting.quotesFrom_eq {l : Line} {quotes : Quotes} (h : Quoting l quotes) :
    quotesFrom none ' ' l = quotes := by
  induction h with
  | start => rfl
  | opens _ hc ih => rw [quotesFrom_concat, ih, nextQuotes, if_pos hc]
  | outside _ hsingle hdouble ih =>
      rw [quotesFrom_concat, ih, nextQuotes, if_neg (not_or.mpr ⟨hsingle, hdouble⟩)]
  | closes _ hbackslash ih =>
      rw [quotesFrom_concat, ih, nextQuotes,
        if_pos ⟨rfl, mt getLastD_eq_backslash_iff.mp hbackslash⟩]
  | inside _ hc ih =>
      rw [quotesFrom_concat, ih, nextQuotes, if_neg]
      rintro ⟨hquote, hbackslash⟩
      exact hc.elim (· hquote) fun h => hbackslash (getLastD_eq_backslash_iff.mpr h)

theorem quoting_quotesFrom (l : Line) : Quoting l (quotesFrom none ' ' l) := by
  induction l using List.reverseRecOn with
  | nil => exact .start
  | append_singleton l c ih =>
      rw [quotesFrom_concat]
      cases hquotes : quotesFrom none ' ' l with
      | none =>
          rw [hquotes] at ih
          rw [nextQuotes]
          split
          · next hc => exact .opens ih hc
          · next hc => exact .outside ih (not_or.mp hc).1 (not_or.mp hc).2
      | some quote =>
          rw [hquotes] at ih
          rw [nextQuotes]
          split
          · next hc =>
              obtain ⟨rfl, hbackslash⟩ := hc
              exact .closes ih (mt getLastD_eq_backslash_iff.mpr hbackslash)
          · next hc =>
              refine .inside ih ?_
              rw [← getLastD_eq_backslash_iff]
              exact (not_and_or.mp hc).imp_right not_not.mp

/-- The scan knows which quotes are open. -/
theorem quoting_iff {l : Line} {quotes : Quotes} :
    Quoting l quotes ↔ quotesFrom none ' ' l = quotes :=
  ⟨Quoting.quotesFrom_eq, fun h => h ▸ quoting_quotesFrom l⟩

/-! ## Where a comment starts -/

/-- A number sign behind the text starts a comment: it is outside of quotes, and at the start of the
line or behind a blank. -/
def CommentBehind (before : Line) : Prop :=
  Quoting before none ∧ ∀ c, before.getLast? = some c → isBlank c = true

def HasComment (l : Line) : Prop :=
  ∃ before after, l = before ++ '#' :: after ∧ CommentBehind before

theorem commentBehind_iff {before : Line} :
    CommentBehind before ↔
      quotesFrom none ' ' before = none ∧ isBlank (before.getLastD ' ') = true := by
  rw [CommentBehind, quoting_iff, List.getLastD_eq_getLast?]
  refine and_congr_right fun _ => ?_
  cases before.getLast? with
  | none => simp [isBlank]
  | some c => simp

/-- Blanks open no quotes, and what precedes a text matters only inside of quotes. -/
theorem quotesFrom_blanks_append {lead : Line} (hlead : ∀ c ∈ lead, isBlank c = true)
    (previous : Char) (l : Line) :
    quotesFrom none previous (lead ++ l) = quotesFrom none ' ' l := by
  induction lead generalizing previous with
  | nil => cases l <;> rfl
  | cons c lead ih =>
      obtain ⟨hc, hlead⟩ := List.forall_mem_cons.mp hlead
      have hquote : ¬(c = '\'' ∨ c = '"') := by
        rintro (rfl | rfl) <;> exact absurd hc (by decide)
      rw [List.cons_append, quotesFrom, nextQuotes, if_neg hquote, ih hlead]

theorem CommentBehind.blanks_append {before lead : Line} (h : CommentBehind before)
    (hlead : ∀ c ∈ lead, isBlank c = true) : CommentBehind (lead ++ before) := by
  rw [CommentBehind, quoting_iff] at h ⊢
  refine ⟨by rw [quotesFrom_blanks_append hlead, h.1], fun c hc => ?_⟩
  rw [List.getLast?_append, Option.or_eq_some_iff] at hc
  rcases hc with hc | ⟨-, hc⟩
  · exact h.2 c hc
  · exact hlead c (List.mem_of_getLast? hc)

theorem HasComment.of_trim {l : Line} (h : HasComment (trim l)) : HasComment l := by
  obtain ⟨before, after, htrim, hbefore⟩ := h
  obtain ⟨lead, tail, hl, hlead, -⟩ := Text.exists_trim_append l
  refine ⟨lead ++ before, after ++ tail, ?_, hbefore.blanks_append hlead⟩
  rw [hl, htrim]
  simp

/-! ## The line before its comment -/

theorem starts_comment_iff {before : Line} {c : Char} :
    (isBare (quotesFrom none ' ' before) c && c = '#' && isBlank (before.getLastD ' ')) = true ↔
      c = '#' ∧ CommentBehind before := by
  rw [commentBehind_iff]
  by_cases hc : c = '#'
  · subst hc
    simp [isBare]
  · simp [hc]

/-- The line up to a comment, read on from behind a text. -/
def keptBehind (done rest : Line) : Line :=
  beforeComment (quotesFrom none ' ' done) (done.getLastD ' ') rest

theorem keptBehind_of_comment {done : Line} (h : CommentBehind done) (rest : Line) :
    keptBehind done ('#' :: rest) = [] := by
  rw [keptBehind, beforeComment, if_pos (starts_comment_iff.mpr ⟨rfl, h⟩)]

theorem keptBehind_cons {done : Line} {c : Char} (h : ¬(c = '#' ∧ CommentBehind done))
    (rest : Line) :
    keptBehind done (c :: rest) = c :: keptBehind (done ++ [c]) rest := by
  rw [keptBehind, beforeComment, if_neg (mt starts_comment_iff.mp h), keptBehind, quotesFrom_concat,
    List.getLastD_concat]

/-- No comment starts in what is kept. -/
theorem not_commentBehind_of_keptBehind {done rest before after : Line}
    (h : keptBehind done rest = before ++ '#' :: after) : ¬CommentBehind (done ++ before) := by
  induction rest generalizing done before with
  | nil => simp [keptBehind, beforeComment] at h
  | cons c rest ih =>
      by_cases hstart : c = '#' ∧ CommentBehind done
      · obtain ⟨rfl, hdone⟩ := hstart
        simp [keptBehind_of_comment hdone] at h
      · rw [keptBehind_cons hstart] at h
        cases before with
        | nil =>
            obtain ⟨rfl, -⟩ := List.cons.inj h
            rw [List.append_nil]
            exact fun hdone => hstart ⟨rfl, hdone⟩
        | cons d before =>
            obtain ⟨rfl, hrest⟩ := List.cons.inj h
            rw [List.append_cons]
            exact ih hrest

/-- All is kept, or a comment starts right behind what is kept. -/
theorem keptBehind_eq_or (done rest : Line) :
    rest = keptBehind done rest ∨
      ∃ after, rest = keptBehind done rest ++ '#' :: after ∧
        CommentBehind (done ++ keptBehind done rest) := by
  induction rest generalizing done with
  | nil => exact .inl rfl
  | cons c rest ih =>
      by_cases hstart : c = '#' ∧ CommentBehind done
      · obtain ⟨rfl, hdone⟩ := hstart
        rw [keptBehind_of_comment hdone, List.append_nil]
        exact .inr ⟨rest, rfl, hdone⟩
      · rw [keptBehind_cons hstart]
        refine (ih (done ++ [c])).imp (congrArg (c :: ·)) ?_
        rintro ⟨after, heq, hcomment⟩
        rw [List.append_assoc] at hcomment
        exact ⟨after, congrArg (c :: ·) heq, hcomment⟩

theorem not_hasComment_beforeComment (l : Line) : ¬HasComment (beforeComment none ' ' l) := by
  rintro ⟨before, after, heq, hbefore⟩
  have hkept : keptBehind [] l = before ++ '#' :: after := heq
  exact not_commentBehind_of_keptBehind hkept hbefore

theorem beforeComment_eq_or (l : Line) :
    l = beforeComment none ' ' l ∨
      ∃ after, l = beforeComment none ' ' l ++ '#' :: after ∧
        CommentBehind (beforeComment none ' ' l) :=
  keptBehind_eq_or [] l

theorem beforeComment_of_not_hasComment {l : Line} (h : ¬HasComment l) :
    beforeComment none ' ' l = l := by
  rcases beforeComment_eq_or l with heq | ⟨after, heq, hcomment⟩
  · exact heq.symm
  · exact absurd ⟨_, after, heq, hcomment⟩ h

/-- No front part without a comment is longer. -/
theorem isPrefix_beforeComment {l p : Line} (hp : p <+: l) (h : ¬HasComment p) :
    p <+: beforeComment none ' ' l := by
  rcases beforeComment_eq_or l with heq | ⟨after, heq, hcomment⟩
  · rwa [← heq]
  generalize beforeComment none ' ' l = kept at heq hcomment ⊢
  subst heq
  rcases List.prefix_or_prefix_of_prefix hp (List.prefix_append kept _) with hle | ⟨rest, rfl⟩
  · exact hle
  cases rest with
  | nil => simp
  | cons c rest =>
      -- the part goes past the number sign, which starts a comment in it too
      obtain ⟨rfl, -⟩ := List.cons_prefix_cons.mp ((List.prefix_append_right_inj kept).mp hp)
      exact absurd ⟨kept, rest, rfl, hcomment⟩ h

/-- **Stripping comments is a projection.**  A line is stripped to its longest front part without a
comment, trimmed.  Stripping it again changes nothing, and it leaves nothing of a blank line and of
one whose first character that is not blank is a number sign, and of no other line. -/
theorem stripComment_projects (l : Line) :
    (∃ kept, (kept <+: l ∧ ¬HasComment kept ∧ ∀ p, p <+: l → ¬HasComment p → p <+: kept) ∧
      stripComment l = trim kept) ∧
    stripComment (stripComment l) = stripComment l ∧
    (stripComment l = [] ↔
      (∀ c ∈ l, isBlank c = true) ∨ l.find? (!isBlank ·) = some '#') := by
  refine ⟨⟨beforeComment none ' ' l, ⟨beforeComment_isPrefix none ' ' l,
    not_hasComment_beforeComment l, fun p => isPrefix_beforeComment⟩, rfl⟩, ?_, ?_⟩
  · have hclean : ¬HasComment (stripComment l) :=
      mt HasComment.of_trim (not_hasComment_beforeComment l)
    calc stripComment (stripComment l)
        = trim (beforeComment none ' ' (stripComment l)) := rfl
      _ = trim (stripComment l) := by rw [beforeComment_of_not_hasComment hclean]
      _ = stripComment l := Text.trim_trim _
  · have hblank : (∀ c ∈ l, isBlank c = true) ↔ l.find? (!isBlank ·) = none := by
      simp [List.find?_eq_none]
    rw [stripComment_eq_nil_iff, isSkipped_eq, hblank]
    cases l.find? (!isBlank ·) <;> simp

/-- Of three number signs the first is quoted and the second stands inside a word. -/
example : stripComment "echo '# a' b#c # d".toList = "echo '# a' b#c".toList := by
  decide

end ContainerAudit.Dockerfile
