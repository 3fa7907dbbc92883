import ContainerAudit.Proofs.Text.Words
import ContainerAudit.Text.ShellWords
import Mathlib.Data.List.Forall2

/-!
# Spelling shell words

A command line is written word by word, and each word can be spelled in many ways.  What matters of
a spelling is where it leads: read from between two words, it leaves the splitting inside a word
that is as far as the word spelled (`SpellsWord`).  Spellings with a space between two of them are
then split into the words they spell (`shellWords?_joinWith`).

Two spellings are used here.  A text without blanks, quotes and backslashes spells itself
(`spellsWord_literals`).  Any text at all is spelled between single quotes, if each quote in it is
taken out of them and put between double quotes (`shellWordsFrom_singleQuoted`).
-/

namespace ContainerAudit.Text

/-- A character that is taken into a word as it is. -/
def IsOrdinary (c : Char) : Prop :=
  isShellBlank c = false ∧ c ≠ '\'' ∧ c ≠ '"' ∧ c ≠ '\\'

/-- A character that stands for itself in a command line: no blank of any kind, no quote and no
backslash. -/
def IsLiteral (c : Char) : Prop :=
  isBlank c = false ∧ c ≠ '\'' ∧ c ≠ '"' ∧ c ≠ '\\'

instance (c : Char) : Decidable (IsOrdinary c) :=
  inferInstanceAs (Decidable (_ ∧ _ ∧ _ ∧ _))

instance (c : Char) : Decidable (IsLiteral c) :=
  inferInstanceAs (Decidable (_ ∧ _ ∧ _ ∧ _))

theorem isLiteral_of_all {s : List Char} (h : s.all (IsLiteral ·) = true) :
    ∀ c ∈ s, IsLiteral c :=
  fun c hc => of_decide_eq_true (List.all_eq_true.mp h c hc)

theorem isBlank_of_isShellBlank {c : Char} (h : isShellBlank c = true) : isBlank c = true := by
  simp only [isShellBlank, Bool.or_eq_true, decide_eq_true_eq] at h
  rcases h with ((rfl | rfl) | rfl) | rfl <;> decide

theorem IsLiteral.isOrdinary {c : Char} (h : IsLiteral c) : IsOrdinary c := by
  refine ⟨Bool.eq_false_iff.mpr fun hc => ?_, h.2⟩
  exact absurd (isBlank_of_isShellBlank hc) (by simp [h.1])

/-! ## Reading a literal text -/

theorem shellWordsFrom_between {c : Char} (h : IsOrdinary c) (word rest : List Char) :
    shellWordsFrom .between word (c :: rest) = shellWordsFrom .inWord [c] rest := by
  rw [shellWordsFrom, if_neg (by simp [h.1]), if_neg h.2.2.2, if_neg (not_or.mpr ⟨h.2.1, h.2.2.1⟩)]

theorem shellWordsFrom_inWord {c : Char} (h : IsOrdinary c) (word rest : List Char) :
    shellWordsFrom .inWord word (c :: rest) = shellWordsFrom .inWord (c :: word) rest := by
  rw [shellWordsFrom, if_neg (by simp [h.1]), if_neg h.2.2.2, if_neg (not_or.mpr ⟨h.2.1, h.2.2.1⟩)]

theorem shellWordsFrom_literals {s : List Char} (h : ∀ c ∈ s, IsLiteral c)
    (word rest : List Char) :
    shellWordsFrom .inWord word (s ++ rest) = shellWordsFrom .inWord (s.reverse ++ word) rest := by
  induction s generalizing word with
  | nil => rfl
  | cons c s ih =>
      obtain ⟨hc, hs⟩ := List.forall_mem_cons.mp h
      rw [List.cons_append, shellWordsFrom_inWord hc.isOrdinary, ih hs, List.reverse_cons,
        List.append_assoc]
      rfl

/-- A blank ends a word. -/
theorem shellWordsFrom_space (word rest : List Char) :
    shellWordsFrom .inWord word (' ' :: rest) = (shellWords? rest).map (word.reverse :: ·) := by
  rw [shellWordsFrom, if_pos (by decide)]
  rfl

/-! ## Words and their spellings -/

/-- The text spells the word: whatever comes behind it is read inside a word that is as far. -/
def SpellsWord (t w : List Char) : Prop :=
  ∀ rest, shellWordsFrom .between [] (t ++ rest) = shellWordsFrom .inWord w.reverse rest

theorem spellsWord_literals {s : List Char} (hne : s ≠ []) (h : ∀ c ∈ s, IsLiteral c) :
    SpellsWord s s := by
  intro rest
  obtain ⟨c, s, rfl⟩ := List.exists_cons_of_ne_nil hne
  obtain ⟨hc, hs⟩ := List.forall_mem_cons.mp h
  rw [List.cons_append, shellWordsFrom_between hc.isOrdinary, shellWordsFrom_literals hs,
    List.reverse_cons]

theorem SpellsWord.shellWords?_append {t w : List Char} (h : SpellsWord t w) (rest : List Char) :
    shellWords? (t ++ ' ' :: rest) = (shellWords? rest).map (w :: ·) := by
  rw [shellWords?, h, shellWordsFrom_space, List.reverse_reverse]

/-- Spellings with a space between two of them are split into the words they spell. -/
theorem shellWords?_joinWith {ts ws : List (List Char)} (h : List.Forall₂ SpellsWord ts ws) :
    shellWords? (joinWith [' '] ts) = some ws := by
  induction h with
  | nil => rfl
  | @cons t w ts ws htw hrest ih =>
      cases hrest with
      | nil =>
          have hend := htw []
          rw [List.append_nil] at hend
          show shellWordsFrom .between [] t = some [w]
          rw [hend, shellWordsFrom, List.reverse_reverse]
      | cons =>
          rw [joinWith, List.append_assoc, List.singleton_append, htw.shellWords?_append, ih]
          rfl

/-! ## Single quotes -/

/-- A character between single quotes.  A quote is taken out of them and put between double
quotes. -/
def inSingleQuotes (c : Char) : List Char :=
  if c = '\'' then ['\'', '"', '\'', '"', '\''] else [c]

/-- Any text as a word between single quotes. -/
def singleQuoted (s : List Char) : List Char :=
  '\'' :: (s.flatMap inSingleQuotes ++ ['\''])

theorem shellWordsFrom_inSingleQuotes (s word rest : List Char) :
    shellWordsFrom (.inQuotes '\'') word (s.flatMap inSingleQuotes ++ rest) =
      shellWordsFrom (.inQuotes '\'') (s.reverse ++ word) rest := by
  induction s generalizing word with
  | nil => rfl
  | cons c s ih =>
      have hc : ∀ rest, shellWordsFrom (.inQuotes '\'') word (inSingleQuotes c ++ rest) =
          shellWordsFrom (.inQuotes '\'') (c :: word) rest := by
        intro rest
        rw [inSingleQuotes]
        split
        · next heq => rw [heq]; rfl
        · next hne =>
            rw [List.singleton_append, shellWordsFrom, if_neg hne, if_neg (by simp)]
      rw [List.flatMap_cons, List.append_assoc, hc, ih, List.reverse_cons, List.append_assoc]
      rfl

theorem shellWordsFrom_singleQuoted (s word rest : List Char) :
    shellWordsFrom .inWord word (singleQuoted s ++ rest) =
      shellWordsFrom .inWord (s.reverse ++ word) rest := by
  have hopen : ∀ rest, shellWordsFrom .inWord word ('\'' :: rest) =
      shellWordsFrom (.inQuotes '\'') word rest := fun rest => rfl
  have hclose : ∀ word, shellWordsFrom (.inQuotes '\'') word ('\'' :: rest) =
      shellWordsFrom .inWord word rest := fun word => rfl
  rw [singleQuoted, List.cons_append, hopen, List.append_assoc, shellWordsFrom_inSingleQuotes,
    List.singleton_append, hclose]

end ContainerAudit.Text
