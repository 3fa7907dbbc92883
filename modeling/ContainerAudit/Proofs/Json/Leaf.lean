import ContainerAudit.Json.Reader
import ContainerAudit.Json.Writer
import Mathlib.Data.List.Basic
import Mathlib.Tactic.SplitIfs

/-!
# Reading back what has no parts

A written string is read as the text it was written for (`stringRest_escaped`), a written number
as the number (`leafValue_int`), and a word as what it stands for (`leafValue_word`), whatever comes
behind it that can stand behind a value.

The care is in two places.  A character beyond the first plane is written as two units, so a unit
that is no first half must be read alone although another escape follows it (`stringRest_unit`).
And a numeral must be read to its end: the reader takes a leading zero for a whole numeral, so what
is written must not start with one unless it is zero (`wholePart_toDigits`).
-/

namespace ContainerAudit.Json

open ContainerAudit.Text (hexDigit hexDigits)
open ContainerAudit.Decimal (digit? decimalDigit? natFrom)

-- The equations are made here, once.  Made on demand, all proofs on strings would wait for them
-- together.
attribute [local simp] stringRest

/-! ## Escapes of one unit -/

theorem hexValue?_hexDigit : ∀ k < 16, hexValue? (hexDigit k) = some k := by
  decide

theorem unitEscape_eq (n : Nat) :
    unitEscape n = ['\\', 'u', hexDigit (n / 16 / 16 / 16 % 16), hexDigit (n / 16 / 16 % 16),
      hexDigit (n / 16 % 16), hexDigit (n % 16)] :=
  rfl

theorem unit?_hexDigit {n : Nat} (h : n < 0x10000) :
    unit? (hexDigit (n / 16 / 16 / 16 % 16)) (hexDigit (n / 16 / 16 % 16)) (hexDigit (n / 16 % 16))
      (hexDigit (n % 16)) = some n := by
  have hdigit (m : Nat) : hexValue? (hexDigit (m % 16)) = some (m % 16) :=
    hexValue?_hexDigit (m % 16) (Nat.mod_lt m (by decide))
  rw [unit?, hdigit, hdigit, hdigit, hdigit]
  simp only [Option.pure_def, Option.bind_eq_bind, Option.bind_some, Option.some.injEq]
  omega

/-- An escape in a string that can be read is well formed. -/
theorem exists_unit?_of_stringRest {a b c d : Char} {rest : List Char}
    {p : List Char × List Char}
    (h : stringRest ('\\' :: 'u' :: a :: b :: c :: d :: rest) = some p) :
    ∃ n, unit? a b c d = some n := by
  cases hn : unit? a b c d with
  | some n => exact ⟨n, rfl⟩
  | none =>
      by_cases hpair : ∃ e f g i t, rest = '\\' :: 'u' :: e :: f :: g :: i :: t
      · obtain ⟨e, f, g, i, t, rfl⟩ := hpair
        simp [hn] at h
      · rw [stringRest, hn] at h
        · exact absurd h (by simp)
        · exact fun e f g i t ht => hpair ⟨e, f, g, i, t, ht⟩

/-- A unit that is no first half is read alone, also in front of another escape. -/
theorem stringRest_unit {a b c d : Char} {n : Nat} (hn : unit? a b c d = some n)
    (hhigh : isHighUnit n = false) {t : List Char} {p : List Char × List Char}
    (ht : stringRest t = some p) :
    stringRest ('\\' :: 'u' :: a :: b :: c :: d :: t) = some (unitChar n :: p.1, p.2) := by
  by_cases hpair : ∃ e f g i rest, t = '\\' :: 'u' :: e :: f :: g :: i :: rest
  · obtain ⟨e, f, g, i, rest, rfl⟩ := hpair
    obtain ⟨m, hm⟩ := exists_unit?_of_stringRest ht
    rw [stringRest, hn, hm]
    simp [hhigh, ht, prepend]
  · rw [stringRest, hn]
    · simp [ht, prepend]
    · exact fun e f g i rest h => hpair ⟨e, f, g, i, rest, h⟩

/-! ## Strings -/

theorem toNat_valid (c : Char) : c.toNat < 0xd800 ∨ 0xdfff < c.toNat ∧ c.toNat < 0x110000 :=
  c.valid

theorem stringRest_unitEscape {c : Char} (hc : c.toNat < 0x10000) {t : List Char}
    {p : List Char × List Char} (ht : stringRest t = some p) :
    stringRest (unitEscape c.toNat ++ t) = some (c :: p.1, p.2) := by
  have hvalid := toNat_valid c
  have hhigh : isHighUnit c.toNat = false := by
    simp only [isHighUnit, Bool.and_eq_false_iff, decide_eq_false_iff_not]
    omega
  have hlow : isLowUnit c.toNat = false := by
    simp only [isLowUnit, Bool.and_eq_false_iff, decide_eq_false_iff_not]
    omega
  have hself : unitChar c.toNat = c := by
    simp [unitChar, hhigh, hlow]
  have hread := stringRest_unit (unit?_hexDigit hc) hhigh ht
  rwa [hself] at hread

/-- The two units of a character beyond the first plane are read as one. -/
theorem stringRest_unitEscapes {c : Char} (hc : 0x10000 ≤ c.toNat) {t : List Char}
    {p : List Char × List Char} (ht : stringRest t = some p) :
    stringRest (unitEscape (0xd800 + (c.toNat - 0x10000) / 0x400) ++
        unitEscape (0xdc00 + (c.toNat - 0x10000) % 0x400) ++ t) = some (c :: p.1, p.2) := by
  have hvalid := toNat_valid c
  generalize hn : 0xd800 + (c.toNat - 0x10000) / 0x400 = n
  generalize hm : 0xdc00 + (c.toNat - 0x10000) % 0x400 = m
  have hhigh : isHighUnit n = true := by
    simp only [isHighUnit, Bool.and_eq_true, decide_eq_true_eq]
    omega
  have hlow : isLowUnit m = true := by
    simp only [isLowUnit, Bool.and_eq_true, decide_eq_true_eq]
    omega
  have hjoin : 0x10000 + (n - 0xd800) * 0x400 + (m - 0xdc00) = c.toNat := by
    omega
  rw [unitEscape_eq, unitEscape_eq]
  simp only [List.cons_append, List.nil_append]
  rw [stringRest, unit?_hexDigit (by omega), unit?_hexDigit (by omega)]
  simp only [hhigh, hlow, hjoin, ht, prepend, Char.ofNat_toNat, Bool.and_self, if_true]

theorem stringRest_plain {c : Char} (hquote : c ≠ '"') (hslash : c ≠ '\\') (hc : 0x20 ≤ c.toNat)
    {t : List Char} {p : List Char × List Char} (ht : stringRest t = some p) :
    stringRest (c :: t) = some (c :: p.1, p.2) := by
  rw [stringRest, if_neg (by simp only [hslash, false_or]; omega), ht]
  · rfl
  all_goals simp_all

theorem stringRest_escapeChar (c : Char) {t : List Char} {p : List Char × List Char}
    (ht : stringRest t = some p) : stringRest (escapeChar c ++ t) = some (c :: p.1, p.2) := by
  have hshort {letter e : Char} (hu : letter ≠ 'u') (he : shortEscape? letter = some e) :
      stringRest ('\\' :: letter :: t) = some (e :: p.1, p.2) := by
    rw [stringRest, he, ht]
    · rfl
    all_goals simp [hu]
  unfold escapeChar
  split_ifs with hspecial hn hr htab hb hf hprint hplane
  · rcases hspecial with rfl | rfl
    · exact hshort (by decide) rfl
    · exact hshort (by decide) rfl
  · exact hn ▸ hshort (by decide) rfl
  · exact hr ▸ hshort (by decide) rfl
  · exact htab ▸ hshort (by decide) rfl
  · exact hb ▸ hshort (by decide) rfl
  · exact hf ▸ hshort (by decide) rfl
  · exact stringRest_plain (fun h => hspecial (.inl h)) (fun h => hspecial (.inr h)) hprint.1 ht
  · exact stringRest_unitEscape hplane ht
  · exact stringRest_unitEscapes (by omega) ht

/-- A written text is read up to the quote that closes it. -/
theorem stringRest_escaped (s rest : List Char) :
    stringRest (s.flatMap escapeChar ++ '"' :: rest) = some (s, rest) := by
  induction s with
  | nil => rw [List.flatMap_nil, List.nil_append, stringRest]
  | cons c s ih =>
      rw [List.flatMap_cons, List.append_assoc]
      exact stringRest_escapeChar c ih

theorem stringChars_append (s : String) (rest : List Char) :
    stringChars s ++ rest = '"' :: (s.toList.flatMap escapeChar ++ '"' :: rest) := by
  simp [stringChars]

/-! ## Numbers -/

/-- What can stand behind a value on a page: the comma in front of the next value, the line end in
front of what closes it, or nothing. -/
def Follows (rest : List Char) : Prop :=
  ∀ c ∈ rest.head?, c = ',' ∨ c = '\n'

theorem follows_nil : Follows [] := by
  simp [Follows]

theorem follows_comma (rest : List Char) : Follows (',' :: rest) := by
  simp [Follows]

theorem follows_freshLine (level : Nat) (rest : List Char) : Follows (freshLine level ++ rest) := by
  simp [Follows, freshLine]

/-- Nothing of what follows a value is taken into it. -/
theorem Follows.takeWhile_append {rest : List Char} (h : Follows rest) {p : Char → Bool}
    (hcomma : p ',' = false) (hline : p '\n' = false) {s : List Char} (hs : ∀ c ∈ s, p c = true) :
    (s ++ rest).takeWhile p = s ∧ (s ++ rest).dropWhile p = rest := by
  have hrest : rest.takeWhile p = [] ∧ rest.dropWhile p = rest := by
    cases rest with
    | nil => exact ⟨rfl, rfl⟩
    | cons c rest =>
        have hc : p c = false := by
          rcases h c rfl with rfl | rfl
          · exact hcomma
          · exact hline
        simp [hc]
  rw [List.takeWhile_append_of_pos hs, List.dropWhile_append_of_pos hs, hrest.1, hrest.2]
  simp

theorem Follows.fractionPart_eq {rest : List Char} (h : Follows rest) :
    fractionPart rest = ([], rest) := by
  cases rest with
  | nil => rfl
  | cons c rest => rcases h c rfl with rfl | rfl <;> rfl

theorem Follows.exponentPart_eq {rest : List Char} (h : Follows rest) :
    exponentPart rest = (none, rest) := by
  cases rest with
  | nil => rfl
  | cons c rest => rcases h c rfl with rfl | rfl <;> rfl

theorem isDigit_iff (c : Char) : c.isDigit = true ↔ 48 ≤ c.toNat ∧ c.toNat ≤ 57 := by
  simp only [Char.isDigit, Bool.and_eq_true, decide_eq_true_eq, ge_iff_le, UInt32.le_iff_toNat_le]
  exact Iff.rfl

theorem isAlpha_iff (c : Char) :
    c.isAlpha = true ↔ 65 ≤ c.toNat ∧ c.toNat ≤ 90 ∨ 97 ≤ c.toNat ∧ c.toNat ≤ 122 := by
  change (decide (c.val ≥ 'A'.val ∧ c.val ≤ 'Z'.val) ||
    (decide (c.val ≥ 'a'.val) && decide (c.val ≤ 'z'.val))) = true ↔ _
  simp only [Bool.or_eq_true, Bool.and_eq_true, decide_eq_true_eq, ge_iff_le,
    UInt32.le_iff_toNat_le]
  exact Iff.rfl

theorem isAlpha_of_isDigit {c : Char} (h : c.isDigit = true) : c.isAlpha = false := by
  have hrange := (isDigit_iff c).mp h
  rw [Bool.eq_false_iff, ne_eq, isAlpha_iff]
  omega

theorem digit?_of_isDigit {c : Char} (h : c.isDigit = true) : digit? c = some (c.toNat - 48) := by
  have hletter : c.isUpper = false ∧ c.isLower = false :=
    Bool.or_eq_false_iff.mp (isAlpha_of_isDigit h)
  simp [digit?, decimalDigit?, hletter, h]

/-- Decimal digits spell the number that they stand for. -/
theorem natFrom_of_isDigit {s : List Char} (h : ∀ c ∈ s, c.isDigit = true) (n : Nat) :
    natFrom 10 n s = some (Nat.ofDigitChars 10 s n) := by
  induction s generalizing n with
  | nil => rfl
  | cons c s ih =>
      have hc := h c List.mem_cons_self
      have hrange := (isDigit_iff c).mp hc
      rw [natFrom, digit?_of_isDigit hc]
      simp only
      rw [if_pos (by omega), ih fun d hd => h d (List.mem_cons_of_mem c hd)]
      simp [Nat.ofDigitChars, Nat.mul_comm]

theorem isDigit_of_mem_toDigits {n : Nat} : ∀ c ∈ Nat.toDigits 10 n, c.isDigit = true :=
  fun _ => Nat.isDigit_of_mem_toDigits (by decide) (by decide)

theorem natFrom_toDigits (n : Nat) : natFrom 10 0 (Nat.toDigits 10 n) = some n := by
  rw [natFrom_of_isDigit isDigit_of_mem_toDigits, Nat.ofDigitChars_toDigits (by decide) (by decide)]

/-- The digits of a number other than zero do not start with a zero. -/
theorem head?_toDigits_ne_zero {n : Nat} (hn : 0 < n) : (Nat.toDigits 10 n).head? ≠ some '0' := by
  induction n using Nat.strongRecOn with
  | ind n ih =>
      by_cases hsmall : n < 10
      · have hdigit : ∀ d < 10, 0 < d → Nat.digitChar d ≠ '0' := by decide
        rw [Nat.toDigits_of_lt_base hsmall]
        simpa using hdigit n hsmall hn
      · have hten : 10 ≤ n := Nat.le_of_not_lt hsmall
        have hrest := ih (n / 10) (Nat.div_lt_self hn (by decide)) (Nat.div_pos hten (by decide))
        rw [Nat.toDigits_of_base_le (by decide) hten]
        rwa [List.head?_append_of_ne_nil _ Nat.toDigits_ne_nil]

theorem wholePart_toDigits (n : Nat) {rest : List Char} (h : Follows rest) :
    wholePart (Nat.toDigits 10 n ++ rest) = some (Nat.toDigits 10 n, rest) := by
  obtain ⟨htake, hdrop⟩ := h.takeWhile_append rfl rfl (isDigit_of_mem_toDigits (n := n))
  cases n with
  | zero => rfl
  | succ n =>
      have hzero := head?_toDigits_ne_zero (Nat.succ_pos n)
      rw [wholePart]
      · simp [digitsRest, htake, hdrop, Nat.toDigits_ne_nil]
      · intro s hs
        have hhead := congrArg List.head? hs
        rw [List.head?_append_of_ne_nil _ Nat.toDigits_ne_nil] at hhead
        exact hzero hhead

theorem unsignedNumber_toDigits (negative : Bool) (n : Nat) {rest : List Char} (h : Follows rest) :
    unsignedNumber negative (Nat.toDigits 10 n ++ rest) =
      some (int (if negative then -(n : Int) else n), rest) := by
  simp [unsignedNumber, wholePart_toDigits n h, h.fractionPart_eq, h.exponentPart_eq,
    natFrom_toDigits]

theorem intChars_ofNat (n : Nat) : leafChars (int n) = Nat.toDigits 10 n := by
  simp [leafChars, toString, Int.repr, Nat.repr]

theorem intChars_negSucc (n : Nat) :
    leafChars (int (.negSucc n)) = '-' :: Nat.toDigits 10 (n + 1) := by
  simp [leafChars, toString, Int.repr, Nat.repr]

/-- A numeral without a sign starts with a digit. -/
theorem exists_toDigits_append (n : Nat) (rest : List Char) :
    ∃ c s, Nat.toDigits 10 n ++ rest = c :: s ∧ c.isDigit = true := by
  obtain ⟨c, s, hs⟩ := List.exists_cons_of_ne_nil (Nat.toDigits_ne_nil (n := n) (b := 10))
  refine ⟨c, s ++ rest, by rw [hs, List.cons_append], ?_⟩
  exact isDigit_of_mem_toDigits (n := n) c (hs ▸ List.mem_cons_self)

theorem leafValue_of_not_isAlpha {c : Char} (hc : c.isAlpha = false) (hsign : c ≠ '-')
    (s : List Char) : leafValue (c :: s) = unsignedNumber false (c :: s) := by
  simp only [leafValue, List.takeWhile_cons_of_neg (Bool.eq_false_iff.mp hc)]
  simp [hsign]

theorem leafValue_negative {c : Char} (hc : c ≠ 'I') (s : List Char) :
    leafValue ('-' :: c :: s) = unsignedNumber true (c :: s) := by
  have hinfinity : "Infinity".toList.isPrefixOf (c :: s) = false := by
    have hlist : "Infinity".toList = 'I' :: "nfinity".toList := by decide
    rw [hlist, List.isPrefixOf_cons_cons, beq_false_of_ne hc.symm, Bool.false_and]
  simp only [leafValue, List.takeWhile_cons_of_neg (by decide : ¬ '-'.isAlpha = true)]
  rw [if_neg (Bool.eq_false_iff.mp hinfinity)]
  rfl

theorem leafValue_int (n : Int) {rest : List Char} (h : Follows rest) :
    leafValue (leafChars (int n) ++ rest) = some (int n, rest) := by
  cases n with
  | ofNat n =>
      obtain ⟨c, s, hs, hc⟩ := exists_toDigits_append n rest
      have hsign : c ≠ '-' := by
        rintro rfl
        exact absurd hc (by decide)
      rw [Int.ofNat_eq_natCast, intChars_ofNat, hs,
        leafValue_of_not_isAlpha (isAlpha_of_isDigit hc) hsign, ← hs,
        unsignedNumber_toDigits false n h]
      rfl
  | negSucc n =>
      obtain ⟨c, s, hs, hc⟩ := exists_toDigits_append (n + 1) rest
      have hword : c ≠ 'I' := by
        rintro rfl
        exact absurd hc (by decide)
      rw [intChars_negSucc, List.cons_append, hs, leafValue_negative hword, ← hs,
        unsignedNumber_toDigits true (n + 1) h]
      rfl

/-! ## Words -/

/-- The words of the writer, with what they stand for. -/
def words : List (String × Json) :=
  [("null", null), ("true", bool true), ("false", bool false)]

theorem leafValue_word {word : String} {j : Json} (hj : (word, j) ∈ words) {rest : List Char}
    (h : Follows rest) : leafValue (word.toList ++ rest) = some (j, rest) := by
  simp only [words, List.mem_cons, Prod.mk.injEq, List.not_mem_nil, or_false] at hj
  have hword : ∀ c ∈ word.toList, c.isAlpha = true := by
    rcases hj with ⟨rfl, _⟩ | ⟨rfl, _⟩ | ⟨rfl, _⟩ <;> simp
  unfold leafValue
  rw [(h.takeWhile_append rfl rfl hword).1]
  rcases hj with ⟨rfl, rfl⟩ | ⟨rfl, rfl⟩ | ⟨rfl, rfl⟩ <;> rfl

end ContainerAudit.Json
