import ContainerAudit.Text.Blank
import ContainerAudit.Text.LetterCase
import Mathlib.Data.List.Basic

/-!
# Upper case keeps blanks and small letters out

A text without blanks has none in upper case either, and does not become empty.  For ASCII and for
the letters that become several this is read off the tables entry by entry.  For the runs it is not:
a run moves a whole stretch of letters by one offset, and it is enough that the stretch it moves
them to lies apart from every range of blanks.  In the same way no text in upper case has a small
letter of ASCII, so upper case is not changed by taking it again if it is ASCII
(`upper_upper_of_ascii`).  Lower case does not depend on the case of ASCII letters
(`lower_map_toLower`), not even next to a sigma, whose form depends on its neighbours.
-/

namespace ContainerAudit.Text

/-- The blank characters as ranges of code points. -/
def blankRanges : List (Nat × Nat) :=
  [(0x09, 0x0d), (0x1c, 0x20), (0x85, 0x85), (0xa0, 0xa0), (0x1680, 0x1680), (0x2000, 0x200a),
   (0x2028, 0x2029), (0x202f, 0x202f), (0x205f, 0x205f), (0x3000, 0x3000)]

theorem isBlank_eq_inRanges (c : Char) : isBlank c = inRanges blankRanges c := by
  rw [Bool.eq_iff_iff]
  simp only [isBlank, inRanges, blankRanges, List.any_cons, List.any_nil, Bool.or_eq_true,
    Bool.and_eq_true, decide_eq_true_eq, beq_iff_eq, Bool.or_false]
  omega

theorem isBlank_eq_false_iff {c : Char} :
    isBlank c = false ↔ ∀ blanks ∈ blankRanges, c.toNat < blanks.1 ∨ blanks.2 < c.toNat := by
  rw [isBlank_eq_inRanges, inRanges, List.any_eq_false]
  refine forall₂_congr fun blanks _ => ?_
  simp only [Bool.and_eq_true, decide_eq_true_eq]
  omega

/-- A number that is no code point stands for the null character. -/
theorem toNat_ofNat (n : Nat) : (Char.ofNat n).toNat = n ∨ (Char.ofNat n).toNat = 0 := by
  by_cases h : n.isValidChar
  · rw [Char.ofNat, dif_pos h]
    exact .inl rfl
  · rw [Char.ofNat, dif_neg h]
    exact .inr rfl

/-! ## The tables -/

theorem blankRanges_pos : ∀ blanks ∈ blankRanges, 0 < blanks.1 := by
  decide

theorem toUpper_not_blank_of_ascii :
    ∀ n < 128, isBlank (Char.ofNat n) = false → isBlank (Char.ofNat n).toUpper = false := by
  decide

theorem upperExpansions_not_blank :
    ∀ e ∈ upperExpansions, e.2 ≠ [] ∧ ∀ n ∈ e.2, isBlank (Char.ofNat n) = false := by
  decide

set_option maxRecDepth 2000 in
theorem upperRuns_apart_from_blanks :
    ∀ r ∈ upperRuns, ∀ blanks ∈ blankRanges,
      r.high + r.offset < blanks.1 ∨ blanks.2 < r.low + r.offset := by
  decide

/-! ## Letters and texts -/

theorem shiftBy_upperRuns_not_blank {c : Char} (hc : isBlank c = false) :
    isBlank (shiftBy upperRuns c) = false := by
  unfold shiftBy
  split
  · rename_i r hr
    have hcovers := List.find?_some hr
    simp only [CaseRun.covers, Bool.and_eq_true, decide_eq_true_eq] at hcovers
    obtain ⟨⟨hlow, hhigh⟩, -⟩ := hcovers
    rw [isBlank_eq_false_iff]
    intro blanks hblanks
    have hapart := upperRuns_apart_from_blanks r (List.mem_of_find?_eq_some hr) blanks hblanks
    have hpos := blankRanges_pos blanks hblanks
    rcases toNat_ofNat (c.toNat + r.offset).toNat with h | h <;> omega
  · exact hc

theorem upperLetter_not_blank {c : Char} (hc : isBlank c = false) :
    upperLetter c ≠ [] ∧ ∀ d ∈ upperLetter c, isBlank d = false := by
  unfold upperLetter
  split
  · rename_i hascii
    have h := toUpper_not_blank_of_ascii c.toNat hascii
    rw [Char.ofNat_toNat] at h
    simpa using h hc
  · split
    · rename_i letters hfind
      obtain ⟨hne, hletters⟩ := upperExpansions_not_blank _ (List.mem_of_find?_eq_some hfind)
      refine ⟨by simpa using hne, ?_⟩
      intro d hd
      obtain ⟨n, hn, rfl⟩ := List.mem_map.mp hd
      exact hletters n hn
    · simpa using shiftBy_upperRuns_not_blank hc

theorem upper_not_blank {s : List Char} (hs : ∀ c ∈ s, isBlank c = false) :
    ∀ c ∈ upper s, isBlank c = false := by
  intro c hc
  obtain ⟨d, hd, hcd⟩ := List.mem_flatMap.mp hc
  exact (upperLetter_not_blank (hs d hd)).2 c hcd

theorem upper_ne_nil {s : List Char} (hne : s ≠ []) (hs : ∀ c ∈ s, isBlank c = false) :
    upper s ≠ [] := by
  cases s with
  | nil => exact absurd rfl hne
  | cons c s =>
      intro h
      rw [upper, List.flatMap_cons, List.append_eq_nil_iff] at h
      exact (upperLetter_not_blank (hs c List.mem_cons_self)).1 h.1

/-! ## Small letters -/

/-- The small letters of ASCII as a range of code points. -/
def IsSmall (n : Nat) : Prop :=
  97 ≤ n ∧ n ≤ 122

instance : DecidablePred IsSmall :=
  fun n => inferInstanceAs (Decidable (97 ≤ n ∧ n ≤ 122))

theorem toUpper_of_ascii :
    ∀ n < 128, ¬IsSmall (Char.ofNat n).toUpper.toNat ∧
      (¬IsSmall n → (Char.ofNat n).toUpper = Char.ofNat n) := by
  decide

theorem upperExpansions_not_small :
    ∀ e ∈ upperExpansions, ∀ n ∈ e.2, ¬IsSmall (Char.ofNat n).toNat := by
  decide

set_option maxRecDepth 2000 in
theorem upperRuns_apart_from_small :
    ∀ r ∈ upperRuns, r.high + r.offset < 97 ∨ 122 < r.low + r.offset := by
  decide

theorem shiftBy_upperRuns_not_small {c : Char} (hc : 128 ≤ c.toNat) :
    ¬IsSmall (shiftBy upperRuns c).toNat := by
  unfold shiftBy IsSmall
  split
  · rename_i r hr
    have hcovers := List.find?_some hr
    simp only [CaseRun.covers, Bool.and_eq_true, decide_eq_true_eq] at hcovers
    have hapart := upperRuns_apart_from_small r (List.mem_of_find?_eq_some hr)
    rcases toNat_ofNat (c.toNat + r.offset).toNat with h | h <;> omega
  · omega

theorem upperLetter_not_small {c d : Char} (hd : d ∈ upperLetter c) : ¬IsSmall d.toNat := by
  unfold upperLetter at hd
  split at hd
  · rename_i hascii
    rw [List.mem_singleton.mp hd]
    have h := (toUpper_of_ascii c.toNat hascii).1
    rwa [Char.ofNat_toNat] at h
  · rename_i hascii
    split at hd
    · rename_i letters hfind
      obtain ⟨n, hn, rfl⟩ := List.mem_map.mp hd
      exact upperExpansions_not_small _ (List.mem_of_find?_eq_some hfind) n hn
    · rw [List.mem_singleton.mp hd]
      exact shiftBy_upperRuns_not_small (Nat.le_of_not_lt hascii)

/-- Upper case of an ASCII text in upper case is that text. -/
theorem upper_upper_of_ascii {s : List Char} (h : ∀ c ∈ upper s, c.toNat < 128) :
    upper (upper s) = upper s := by
  have hfixed : ∀ c ∈ upper s, upperLetter c = [c] := by
    intro c hc
    obtain ⟨d, -, hcd⟩ := List.mem_flatMap.mp hc
    have hupper := (toUpper_of_ascii c.toNat (h c hc)).2 (upperLetter_not_small hcd)
    rw [Char.ofNat_toNat] at hupper
    rw [upperLetter, if_pos (h c hc), hupper]
  rw [upper, List.flatMap_congr hfixed, List.flatMap_singleton']

/-! ## ASCII letters in lower case -/

theorem toLower_eq_self {c : Char} (hc : 128 ≤ c.toNat) : c.toLower = c := by
  refine dif_neg fun h => ?_
  have hle : c.toNat ≤ 90 := UInt32.le_iff_toNat_le.mp h.2
  omega

/-- To see that a function takes a letter of ASCII for its small letter, it is enough to look at
ASCII. -/
theorem apply_toLower {α : Type} (f : Char → α)
    (hascii : ∀ n < 128, f (Char.ofNat n).toLower = f (Char.ofNat n)) (c : Char) :
    f c.toLower = f c := by
  by_cases hc : c.toNat < 128
  · have h := hascii c.toNat hc
    rwa [Char.ofNat_toNat] at h
  · rw [toLower_eq_self (Nat.le_of_not_lt hc)]

theorem isCaseIgnorable_toLower (c : Char) : isCaseIgnorable c.toLower = isCaseIgnorable c :=
  apply_toLower isCaseIgnorable (by decide) c

theorem isCased_toLower (c : Char) : isCased c.toLower = isCased c :=
  apply_toLower isCased (by decide) c

theorem wordGoesOn_map_toLower (s : List Char) :
    wordGoesOn (s.map Char.toLower) = wordGoesOn s := by
  induction s with
  | nil => rfl
  | cons c s ih =>
      rw [List.map_cons, wordGoesOn, wordGoesOn, isCaseIgnorable_toLower, isCased_toLower, ih]

theorem lowerFrom_map_toLower (inWord : Bool) (s : List Char) :
    lowerFrom inWord (s.map Char.toLower) = lowerFrom inWord s := by
  have hletter (c : Char) : lowerLetter c.toLower = lowerLetter c :=
    apply_toLower lowerLetter (by decide) c
  have hsigma (c : Char) : (c.toLower.toNat == 0x3a3) = (c.toNat == 0x3a3) :=
    apply_toLower (·.toNat == 0x3a3) (by decide) c
  induction s generalizing inWord with
  | nil => rfl
  | cons c s ih =>
      rw [List.map_cons, lowerFrom, lowerFrom, hletter, hsigma, wordGoesOn_map_toLower,
        isCaseIgnorable_toLower, isCased_toLower, ih]

/-- Texts that differ only in the case of ASCII letters are the same in lower case. -/
theorem lower_map_toLower (s : List Char) : lower (s.map Char.toLower) = lower s :=
  lowerFrom_map_toLower false s

end ContainerAudit.Text
