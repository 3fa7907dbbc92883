import ContainerAudit.Text.Pattern
import ContainerAudit.Text.Search
import Mathlib.Data.List.Infix

/-!
# Where a text occurs

Searches are told as what they look for.  A part is found exactly if it stands in the text as it is
(`hasPart_iff`).  A pattern is found exactly if the text can be cut in two where it matches
(`Pattern.foundIn_iff`), and a very text that is looked for at the start or behind some character is
found exactly if it stands there (`Pattern.foundIn_behind_iff`).
-/

namespace ContainerAudit.Text

theorem hasPart_iff {part s : List Char} : hasPart part s = true ↔ part <:+: s := by
  induction s with
  | nil => rw [hasPart, List.isEmpty_iff, List.infix_nil]
  | cons c s ih =>
      rw [hasPart, Bool.or_eq_true, List.isPrefixOf_iff_prefix, ih, List.infix_cons_iff]

/-! ## Pieces -/

theorem splitAt_of_notMem {sep : Char} {s : List Char} (h : sep ∉ s) : splitAt sep s = [s] := by
  induction s with
  | nil => rfl
  | cons c s ih =>
      obtain ⟨hc, hs⟩ := not_or.mp (mt List.mem_cons.mpr h)
      rw [splitAt, if_neg (Ne.symm hc), ih hs]

theorem splitAt_append_cons {sep : Char} {s : List Char} (h : sep ∉ s) (t : List Char) :
    splitAt sep (s ++ sep :: t) = s :: splitAt sep t := by
  induction s with
  | nil => rw [List.nil_append, splitAt, if_pos rfl]
  | cons c s ih =>
      obtain ⟨hc, hs⟩ := not_or.mp (mt List.mem_cons.mpr h)
      rw [List.cons_append, splitAt, if_neg (Ne.symm hc), ih hs]

/-- Pieces without the separator are got back from the text that joins them. -/
theorem splitAt_joinWith {sep : Char} {pieces : List (List Char)} (hne : pieces ≠ [])
    (h : ∀ piece ∈ pieces, sep ∉ piece) : splitAt sep (joinWith [sep] pieces) = pieces := by
  induction pieces with
  | nil => exact absurd rfl hne
  | cons piece pieces ih =>
      obtain ⟨hpiece, hpieces⟩ := List.forall_mem_cons.mp h
      cases pieces with
      | nil => exact splitAt_of_notMem hpiece
      | cons next pieces =>
          rw [joinWith, List.append_assoc, List.singleton_append, splitAt_append_cons hpiece,
            ih (List.cons_ne_nil next pieces) hpieces]

/-! ## Places -/

/-- The last character read, if the first one is counted to what stood before. -/
theorem getLast?_cons_or (c : Char) (s : List Char) (before : Option Char) :
    (c :: s).getLast?.or before = s.getLast?.or (some c) := by
  rw [List.getLast?_cons]
  cases s.getLast? <;> rfl

theorem mem_placesFrom {before : Option Char} {s : List Char} {place : Place} :
    place ∈ placesFrom before s ↔
      ∃ read rest, s = read ++ rest ∧ place = ⟨read.getLast?.or before, rest⟩ := by
  induction s generalizing before with
  | nil => simp [placesFrom]
  | cons c s ih =>
      rw [placesFrom, List.mem_cons, ih]
      constructor
      · rintro (rfl | ⟨read, rest, rfl, rfl⟩)
        · exact ⟨[], c :: s, rfl, rfl⟩
        · exact ⟨c :: read, rest, rfl, by rw [getLast?_cons_or]⟩
      · rintro ⟨read, rest, hs, rfl⟩
        cases read with
        | nil =>
            obtain rfl : c :: s = rest := hs
            exact .inl rfl
        | cons d read =>
            obtain ⟨rfl, rfl⟩ := List.cons.inj hs
            exact .inr ⟨read, rest, rfl, by rw [getLast?_cons_or]⟩

namespace Pattern

theorem foundIn_iff {a : Pattern} {s : List Char} :
    a.foundIn s = true ↔
      ∃ before after, s = before ++ after ∧ a.matchesAt ⟨before.getLast?, after⟩ = true := by
  rw [foundIn, List.any_eq_true]
  constructor
  · rintro ⟨place, hplace, hmatch⟩
    obtain ⟨before, after, hs, rfl⟩ := mem_placesFrom.mp hplace
    rw [Option.or_none] at hmatch
    exact ⟨before, after, hs, hmatch⟩
  · rintro ⟨before, after, hs, hmatch⟩
    refine ⟨⟨before.getLast?, after⟩, mem_placesFrom.mpr ⟨before, after, hs, ?_⟩, hmatch⟩
    rw [Option.or_none]

theorem leads_one {accepts : Char → Bool} {next : Place → Bool} {p : Place} :
    (one accepts).leads next p = true ↔
      ∃ c rest, p.rest = c :: rest ∧ accepts c = true ∧ next ⟨.some c, rest⟩ = true := by
  obtain ⟨before, text⟩ := p
  cases text with
  | nil => simp [leads]
  | cons c text => simp [leads]

/-- The very text is passed, and what comes next is behind it. -/
theorem leads_lit {s : List Char} {next : Place → Bool} {p : Place} :
    (lit s).leads next p = true ↔
      ∃ rest, p.rest = s ++ rest ∧ next ⟨s.getLast?.or p.before, rest⟩ = true := by
  induction s generalizing p with
  | nil =>
      show next p = true ↔ _
      simp
  | cons c s ih =>
      show (one (· == c)).leads ((lit s).leads next) p = true ↔ _
      rw [leads_one]
      constructor
      · rintro ⟨d, text, htext, hd, hnext⟩
        obtain rfl := beq_iff_eq.mp hd
        obtain ⟨rest, rfl, hnext⟩ := ih.mp hnext
        exact ⟨rest, htext, by rwa [getLast?_cons_or]⟩
      · rintro ⟨rest, htext, hnext⟩
        rw [getLast?_cons_or] at hnext
        exact ⟨c, s ++ rest, htext, beq_self_eq_true c, ih.mpr ⟨rest, rfl, hnext⟩⟩

/-- The very text is found at the start or behind a character that `opens` accepts, with a place
behind it from which the last pattern matches. -/
theorem foundIn_behind_iff {opens : Char → Bool} {part s : List Char} {a : Pattern} :
    (all [alt textStart (one opens), lit part, a]).foundIn s = true ↔
      ∃ before after, s = before ++ part ++ after ∧
        (∀ c ∈ before.getLast?, opens c = true) ∧
        a.matchesAt ⟨part.getLast?.or before.getLast?, after⟩ = true := by
  rw [foundIn_iff]
  constructor
  · rintro ⟨before, text, rfl, hmatch⟩
    rcases Bool.or_eq_true_iff.mp hmatch with hstart | hone
    · obtain ⟨hnone, hlit⟩ := Bool.and_eq_true_iff.mp hstart
      obtain ⟨after, rfl, ha⟩ := leads_lit.mp hlit
      obtain rfl : before = [] := List.getLast?_eq_none_iff.mp (Option.isNone_iff_eq_none.mp hnone)
      exact ⟨[], after, rfl, by simp, ha⟩
    · obtain ⟨c, rest, rfl, hc, hlit⟩ := leads_one.mp hone
      obtain ⟨after, rfl, ha⟩ := leads_lit.mp hlit
      refine ⟨before ++ [c], after, by simp, by simpa using hc, ?_⟩
      rwa [List.getLast?_concat]
  · rintro ⟨before, after, rfl, hopens, ha⟩
    -- The character in front belongs to the match, so the place is one character further back.
    rcases List.eq_nil_or_concat before with rfl | ⟨front, c, rfl⟩
    · refine ⟨[], part ++ after, rfl, Bool.or_eq_true_iff.mpr (.inl ?_)⟩
      exact Bool.and_eq_true_iff.mpr ⟨rfl, leads_lit.mpr ⟨after, rfl, ha⟩⟩
    · rw [List.concat_eq_append, List.getLast?_concat] at hopens ha
      refine ⟨front, c :: (part ++ after), by simp, Bool.or_eq_true_iff.mpr (.inr ?_)⟩
      exact leads_one.mpr ⟨c, part ++ after, rfl, hopens c rfl, leads_lit.mpr ⟨after, rfl, ha⟩⟩

/-- The text ends, or a character follows that `closes` accepts; a last line feed is such a
character. -/
theorem matchesAt_ending_iff (closes : Char → Bool) (hfeed : closes '\n' = true) {p : Place} :
    (alt textEnd (one closes)).matchesAt p = true ↔ ∀ c ∈ p.rest.head?, closes c = true := by
  obtain ⟨before, text⟩ := p
  cases text with
  | nil => simp [matchesAt, leads]
  | cons c text =>
      simp only [matchesAt, leads, List.isEmpty_cons, Bool.false_or, Bool.and_true,
        Bool.or_eq_true, decide_eq_true_eq, List.head?_cons, Option.mem_some_iff, forall_eq']
      constructor
      · rintro (hline | hc)
        · rwa [(List.cons.inj hline).1]
        · exact hc
      · exact .inr

end Pattern

end ContainerAudit.Text
