import ContainerAudit.Proofs.Rule.CopyFlags
import ContainerAudit.Proofs.Text.Matching
import ContainerAudit.Rule.Registry

/-!
# Permissions for everyone

Permissions are given in two places: as the mode of a `chmod` in a command, behind any number of
options, and as the flag of a copy.  Each place has a pattern of its own.  The one for commands is
searched for, may pass over options and knows symbolic modes too; the one for flags must take the
whole value.

Both come down to the same digits (`takes_writableDigits`), and neither stops inside of a longer
mode: in a command the word must end there, in a flag the value.  So they report a mode of octal
digits alike, and exactly if it has three or four digits of which the last one lets everyone write
(`chmod_forms_agree`).
-/

namespace ContainerAudit.Rule

open ContainerAudit.Text
open ContainerAudit.Dockerfile (Instruction withFlags flagValue? splitWords)

/-! ## Modes -/

def IsOctal (c : Char) : Prop :=
  '0' ≤ c ∧ c ≤ '7'

instance (c : Char) : Decidable (IsOctal c) :=
  inferInstanceAs (Decidable (_ ∧ _))

/-- The digit has the bit for writing. -/
def hasWriteBit (c : Char) : Bool :=
  (c.toNat - '0'.toNat).testBit 1

/-- The mode has three or four digits, and the last one, which is for everyone, has the bit for
writing. -/
def LetsEveryoneWrite (mode : List Char) : Prop :=
  (mode.length = 3 ∨ mode.length = 4) ∧ mode.getLast?.any hasWriteBit = true

instance (mode : List Char) : Decidable (LetsEveryoneWrite mode) :=
  inferInstanceAs (Decidable (_ ∧ _))

/-- What holds of the eight digits holds of each of them. -/
theorem IsOctal.of_digits {P : Char → Prop} (h : ∀ n < 8, P (Char.ofNat (48 + n))) {c : Char}
    (hc : IsOctal c) : P c := by
  have hlow : 48 ≤ c.toNat := hc.1
  have hhigh : c.toNat ≤ 55 := hc.2
  have hdigit := h (c.toNat - 48) (by omega)
  rwa [Nat.add_sub_cancel' hlow, Char.ofNat_toNat] at hdigit

theorem IsOctal.isWord {c : Char} (h : IsOctal c) : isWord c = true :=
  h.of_digits (P := fun c => Text.isWord c = true) (by decide)

theorem IsOctal.isLiteral {c : Char} (h : IsOctal c) : IsLiteral c :=
  h.of_digits (by decide)

theorem contains_writeDigits_iff {c : Char} :
    "2367".toList.contains c = true ↔ IsOctal c ∧ hasWriteBit c = true := by
  constructor
  · intro h
    have hdigits : c = '2' ∨ c = '3' ∨ c = '6' ∨ c = '7' := by simpa using h
    rcases hdigits with rfl | rfl | rfl | rfl <;> exact ⟨by decide, by decide⟩
  · rintro ⟨hoctal, hbit⟩
    exact hoctal.of_digits (P := fun c => hasWriteBit c = true → "2367".toList.contains c = true)
      (by decide) hbit

/-- The digits that the pattern takes are a mode that lets everyone write. -/
theorem takes_writableDigits {p q : Place} :
    writableDigits.Takes p q ↔ ∃ mode, p.rest = mode ++ q.rest ∧ q.before = mode.getLast? ∧
      (∀ c ∈ mode, IsOctal c) ∧ LetsEveryoneWrite mode := by
  have hdigit : ∀ {p q : Place}, octal.Takes p q ↔
      ∃ c rest, p.rest = c :: rest ∧ IsOctal c ∧ q = ⟨some c, rest⟩ := by
    simp [octal, Pattern.Takes, IsOctal]
  have hlast : ∀ {p q : Place}, (Pattern.oneOf "2367").Takes p q ↔
      ∃ c rest, p.rest = c :: rest ∧ (IsOctal c ∧ hasWriteBit c = true) ∧ q = ⟨some c, rest⟩ := by
    simp only [Pattern.oneOf, Pattern.Takes, contains_writeDigits_iff, implies_true]
  have htakes : writableDigits.Takes p q ↔ ∃ r, (octal.Takes p r ∨ r = p) ∧
      ∃ r₁, octal.Takes r r₁ ∧ ∃ r₂, octal.Takes r₁ r₂ ∧ (Pattern.oneOf "2367").Takes r₂ q := by
    simp [writableDigits, Pattern.all, Pattern.optional, Pattern.Takes]
  obtain ⟨before, text⟩ := p
  obtain ⟨before', rest⟩ := q
  rw [htakes]
  simp only [hdigit, hlast]
  constructor
  · rintro ⟨_, ⟨a, _, rfl, ha, rfl⟩ | rfl, _, ⟨b, _, hb', hb, rfl⟩, _, ⟨c, _, hc', hc, rfl⟩,
      d, _, hd', hd, hq⟩
    · obtain ⟨rfl, rfl⟩ := Place.mk.inj hq
      exact ⟨[a, b, c, d], by simp_all, rfl, by simp_all, .inr rfl, hd.2⟩
    · obtain ⟨rfl, rfl⟩ := Place.mk.inj hq
      exact ⟨[b, c, d], by simp_all, rfl, by simp_all, .inl rfl, hd.2⟩
  · rintro ⟨mode, rfl, rfl, hoctal, hlength | hlength, hbit⟩
    · obtain ⟨b, c, d, rfl⟩ := List.length_eq_three.mp hlength
      simp only [List.forall_mem_cons] at hoctal
      exact ⟨_, .inr rfl, _, ⟨b, _, rfl, hoctal.1, rfl⟩, _, ⟨c, _, rfl, hoctal.2.1, rfl⟩,
        d, _, rfl, ⟨hoctal.2.2.1, hbit⟩, rfl⟩
    · obtain ⟨a, mode, rfl⟩ := List.exists_cons_of_length_eq_add_one hlength
      obtain ⟨b, c, d, rfl⟩ := List.length_eq_three.mp (Nat.succ.inj hlength)
      simp only [List.forall_mem_cons] at hoctal
      exact ⟨_, .inl ⟨a, _, rfl, hoctal.1, rfl⟩, _, ⟨b, _, rfl, hoctal.2.1, rfl⟩,
        _, ⟨c, _, rfl, hoctal.2.2.1, rfl⟩, d, _, rfl, ⟨hoctal.2.2.2.1, hbit⟩, rfl⟩

/-! ## The flag of a copy -/

/-- A value of octal digits is taken as a whole or not at all. -/
theorem matchesStart_writableMode_iff {mode : List Char} (hoctal : ∀ c ∈ mode, IsOctal c) :
    writableMode.matchesStart mode = true ↔ LetsEveryoneWrite mode := by
  have htakes : ∀ q, writableMode.Takes ⟨none, mode⟩ q ↔
      writableDigits.Takes ⟨none, mode⟩ q ∧ (q.rest = [] ∨ q.rest = ['\n']) := by
    intro q
    simp only [writableMode, Pattern.all, List.foldr, Pattern.Takes]
    constructor
    · rintro ⟨_, ⟨-, rfl⟩, r, hr, _, ⟨hend, rfl⟩, rfl⟩
      exact ⟨hr, hend⟩
    · rintro ⟨hdigits, hend⟩
      exact ⟨_, ⟨trivial, rfl⟩, q, hdigits, q, ⟨hend, rfl⟩, rfl⟩
  simp only [Pattern.matchesStart_iff, htakes, takes_writableDigits]
  constructor
  · rintro ⟨q, ⟨digits, hmode, -, -, hwrite⟩, hend⟩
    rcases hend with hend | hend
    · rw [hmode, hend, List.append_nil]
      exact hwrite
    · -- a line feed is no digit
      rw [hend] at hmode
      exact absurd (hoctal '\n' (by rw [hmode]; simp)) (by decide)
  · intro hwrite
    exact ⟨⟨mode.getLast?, []⟩, ⟨mode, (List.append_nil mode).symm, rfl, hoctal, hwrite⟩, .inl rfl⟩

def copyWithMode (mode operands : List Char) : List Char :=
  withFlags ["--chmod=".toList ++ mode] operands

theorem flagValue?_copyWithMode {mode : List Char} (hoctal : ∀ c ∈ mode, IsOctal c)
    (operands : List Char) :
    flagValue? "chmod".toList (copyWithMode mode operands) = some mode := by
  have hliteral : ∀ c ∈ "--chmod=".toList ++ mode, IsLiteral c :=
    List.forall_mem_append.mpr ⟨isLiteral_of_all (by decide), fun c hc => (hoctal c hc).isLiteral⟩
  have hwords : splitWords (copyWithMode mode operands) =
      ("--chmod=".toList ++ mode) :: splitWords operands :=
    Dockerfile.splitWords_append_space (by simp) hliteral operands
  rw [flagValue?, hwords, List.find?_cons_of_pos (by simp)]
  simp

/-! ## The mode of a command -/

/-- An option: a hyphen and something behind it, without blanks. -/
structure IsOption (word : List Char) : Prop where
  hyphen : ∃ rest, word = '-' :: rest ∧ rest ≠ []
  solid : ∀ c ∈ word, isBlank c = false

def chmodCommand (options : List (List Char)) (mode path : List Char) : List Char :=
  "chmod".toList ++ ' ' :: withFlags options (mode ++ ' ' :: path)

def optionPattern : Pattern :=
  .all [.lit ['-'], .some .nonBlank, .some .blank]

/-- The pattern for a mode that lets everyone write, in digits or in symbols. -/
def modePattern : Pattern :=
  .alt (.seq writableDigits .boundary) writableSymbols

/-- Two texts that are the same up to their first blank. -/
theorem solid_append_inj {v w s t : List Char} {b : Char} (hv : ∀ c ∈ v, isBlank c = false)
    (hw : ∀ c ∈ w, isBlank c = false) (hb : isBlank b = true)
    (h : v ++ ' ' :: s = w ++ b :: t) : v = w ∧ ' ' :: s = b :: t := by
  have htake : ∀ {u r : List Char} {d : Char}, (∀ c ∈ u, isBlank c = false) → isBlank d = true →
      (u ++ d :: r).takeWhile (!isBlank ·) = u := by
    intro u r d hu hd
    rw [List.takeWhile_append_of_pos fun c hc => by simp [hu c hc],
      List.takeWhile_cons_of_neg (by simp [hd]), List.append_nil]
  obtain rfl : v = w := by rw [← htake hv (by decide : isBlank ' ' = true), h, htake hw hb]
  exact ⟨rfl, List.append_cancel_left h⟩

/-- Before a word, exactly the one blank in front of it is taken. -/
theorem blanks_append_eq {read rest text : List Char} (hne : read ≠ [])
    (hread : ∀ c ∈ read, isBlank c = true) (hrest : ∀ c ∈ rest.head?, isBlank c = false)
    (h : ' ' :: rest = read ++ text) : text = rest ∧ read.getLast? = some ' ' := by
  obtain ⟨b, read, rfl⟩ := List.exists_cons_of_ne_nil hne
  obtain ⟨rfl, rfl⟩ := List.cons.inj h
  cases read with
  | nil => exact ⟨rfl, rfl⟩
  | cons c read =>
      have hc : isBlank c = false := hrest c (by simp)
      exact absurd (hread c (by simp)) (by simp [hc])

theorem takes_optionPattern {word rest : List Char} {before : Option Char} {q : Place}
    (hword : ∀ c ∈ word, isBlank c = false) (hrest : ∀ c ∈ rest.head?, isBlank c = false) :
    optionPattern.Takes ⟨before, word ++ ' ' :: rest⟩ q ↔
      IsOption word ∧ q = ⟨some ' ', rest⟩ := by
  have htakes : optionPattern.Takes ⟨before, word ++ ' ' :: rest⟩ q ↔
      ∃ r, (Pattern.lit ['-']).Takes ⟨before, word ++ ' ' :: rest⟩ r ∧
        ∃ r', (Pattern.some .nonBlank).Takes r r' ∧ (Pattern.some .blank).Takes r' q := by
    simp [optionPattern, Pattern.all, Pattern.Takes]
  rw [htakes]
  simp only [Pattern.takes_lit, Pattern.nonBlank, Pattern.blank, Pattern.takes_some_one]
  constructor
  · rintro ⟨r, ⟨hhyphen, -⟩, r', ⟨name, hname, hr, hsolid, -⟩, blanks, hne, hr', hblanks, hbefore⟩
    obtain ⟨b, blanks', rfl⟩ := List.exists_cons_of_ne_nil hne
    have hsplit : word ++ ' ' :: rest = ('-' :: name) ++ b :: (blanks' ++ q.rest) := by
      rw [hhyphen, hr, hr']
      rfl
    have hsolid' : ∀ c ∈ '-' :: name, isBlank c = false := by
      refine List.forall_mem_cons.mpr ⟨by decide, fun c hc => ?_⟩
      simpa using hsolid c hc
    obtain ⟨rfl, htail⟩ := solid_append_inj hword hsolid' (hblanks b (by simp)) hsplit
    obtain ⟨hqrest, hlast⟩ := blanks_append_eq hne hblanks hrest htail
    refine ⟨⟨⟨name, rfl, hname⟩, hword⟩, ?_⟩
    obtain ⟨qbefore, qrest⟩ := q
    rw [← hqrest, ← hlast, ← hbefore]
  · rintro ⟨⟨⟨name, rfl, hname⟩, hsolid⟩, rfl⟩
    refine ⟨⟨some '-', name ++ ' ' :: rest⟩, ⟨rfl, rfl⟩, ⟨name.getLast?, ' ' :: rest⟩,
      ⟨name, hname, rfl, fun c hc => ?_, rfl⟩, [' '], by simp, rfl,
      List.forall_mem_singleton.mpr rfl, rfl⟩
    simp [hsolid c (List.mem_cons_of_mem _ hc)]

/-- Symbols begin with a letter for someone. -/
theorem exists_of_takes_writableSymbols {p q : Place} (h : writableSymbols.Takes p q) :
    ∃ c rest, p.rest = c :: rest ∧ c ∈ "ugoa".toList := by
  obtain ⟨r, hwho, hrest⟩ := h
  obtain ⟨read, hread, hletters, -⟩ := Pattern.takes_many_one.mp hwho
  cases read with
  | nil =>
      obtain ⟨r', ⟨c, rest, hc, hletter, -⟩, -⟩ := hrest
      have hletter' : c = 'o' ∨ c = 'a' := by simpa using hletter
      exact ⟨c, rest, hread.trans hc, by rcases hletter' with rfl | rfl <;> decide⟩
  | cons c read =>
      exact ⟨c, _, hread, List.contains_iff_mem.mp (hletters c List.mem_cons_self)⟩

/-- A mode does not begin with a hyphen. -/
theorem not_takes_modePattern_hyphen {before : Option Char} {text : List Char} {q : Place} :
    ¬modePattern.Takes ⟨before, '-' :: text⟩ q := by
  rintro (⟨r, hdigits, -⟩ | hsymbols)
  · obtain ⟨mode, hmode, -, hoctal, hlength, -⟩ := takes_writableDigits.mp hdigits
    cases mode with
    | nil => simp at hlength
    | cons c mode =>
        obtain ⟨rfl, -⟩ := List.cons.inj hmode
        exact absurd (hoctal '-' List.mem_cons_self) (by decide)
  · obtain ⟨c, rest, hc, hletter⟩ := exists_of_takes_writableSymbols hsymbols
    obtain ⟨rfl, -⟩ := List.cons.inj hc
    exact absurd hletter (by decide)

/-- The digits of a word are taken as a whole or not at all. -/
theorem takes_modePattern_iff {mode path : List Char} (hne : mode ≠ [])
    (hoctal : ∀ c ∈ mode, IsOctal c) {before : Option Char} :
    (∃ q, modePattern.Takes ⟨before, mode ++ ' ' :: path⟩ q) ↔ LetsEveryoneWrite mode := by
  constructor
  · rintro ⟨q, ⟨r, hdigits, hboundary, rfl⟩ | hsymbols⟩
    · obtain ⟨digits, hsplit, hbefore, hdigitsOctal, hwrite⟩ := takes_writableDigits.mp hdigits
      obtain ⟨more, rfl, hmore⟩ | ⟨more, rfl, hmore⟩ := List.append_eq_append_iff.mp hsplit
      · cases more with
        | nil => rwa [List.append_nil] at hwrite
        | cons c more =>
            obtain ⟨rfl, -⟩ := List.cons.inj hmore
            exact absurd (hdigitsOctal ' ' (by simp)) (by decide)
      · cases more with
        | nil => rwa [List.append_nil]
        | cons c more =>
            -- The word goes on with a digit, so there is no boundary.
            have hword : isWord c = true := (hoctal c (by simp)).isWord
            have hlast : (digits.getLast?.map isWord).getD false = true := by
              have hdigits : digits ≠ [] := by
                rintro rfl
                simp [LetsEveryoneWrite] at hwrite
              rw [List.getLast?_eq_some_getLast hdigits]
              exact (hdigitsOctal _ (List.getLast_mem hdigits)).isWord
            rw [hmore, hbefore, isBoundary, hlast, List.cons_append, startsWithWord,
              hword] at hboundary
            exact absurd hboundary (by decide)
    · obtain ⟨c, rest, hc, hletter⟩ := exists_of_takes_writableSymbols hsymbols
      obtain ⟨d, mode, rfl⟩ := List.exists_cons_of_ne_nil hne
      obtain ⟨rfl, -⟩ := List.cons.inj hc
      exact absurd hletter ((hoctal d List.mem_cons_self).of_digits
        (P := fun c => c ∉ "ugoa".toList) (by decide))
  · intro hwrite
    refine ⟨⟨mode.getLast?, ' ' :: path⟩, .inl ⟨⟨mode.getLast?, ' ' :: path⟩, ?_, ?_, rfl⟩⟩
    · exact takes_writableDigits.mpr ⟨mode, rfl, rfl, hoctal, hwrite⟩
    · have hlast := (hoctal _ (List.getLast_mem hne)).isWord
      rw [isBoundary, List.getLast?_eq_some_getLast hne, Option.map_some, Option.getD_some, hlast]
      exact (by decide : (true != isWord ' ') = true)

/-! ## Commands with options -/

section Command

variable {options : List (List Char)} (hoptions : ∀ word ∈ options, IsOption word)

include hoptions

theorem solid_head_withFlags {text : List Char} (htext : ∀ c ∈ text.head?, isBlank c = false) :
    ∀ c ∈ (withFlags options text).head?, isBlank c = false := by
  cases options with
  | nil => exact htext
  | cons word options =>
      obtain ⟨rest, rfl, -⟩ := (hoptions word List.mem_cons_self).hyphen
      intro c hc
      obtain rfl : '-' = c := Option.some.inj hc
      decide

/-- The options are passed over, all of them, since no mode begins with a hyphen. -/
theorem takes_behind_options {text : List Char} (hblank : ∀ c ∈ text.head?, isBlank c = false)
    (hhyphen : ∀ c ∈ text.head?, c ≠ '-') {q : Place} :
    (∃ r, (Pattern.many optionPattern).Takes ⟨some ' ', withFlags options text⟩ r ∧
      modePattern.Takes r q) ↔ modePattern.Takes ⟨some ' ', text⟩ q := by
  induction options with
  | nil =>
      constructor
      · rintro ⟨r, hr, hmode⟩
        cases Relation.ReflTransGen.cases_head hr with
        | inl h => exact h ▸ hmode
        | inr h =>
            obtain ⟨_, ⟨_, hlit, -⟩, -⟩ := h
            obtain ⟨hfirst, -⟩ := Pattern.takes_lit.mp hlit
            have htext : text = '-' :: _ := hfirst
            exact absurd rfl (hhyphen '-' (by rw [htext]; rfl))
      · exact fun hmode => ⟨_, .refl, hmode⟩
  | cons word options ih =>
      obtain ⟨hword, hoptions⟩ := List.forall_mem_cons.mp hoptions
      have hhead := solid_head_withFlags hoptions hblank
      rw [← ih hoptions]
      constructor
      · rintro ⟨r, hr, hmode⟩
        rcases Relation.ReflTransGen.cases_head hr with rfl | ⟨p, hfirst, hr⟩
        · obtain ⟨name, rfl, -⟩ := hword.hyphen
          exact absurd hmode not_takes_modePattern_hyphen
        · obtain ⟨-, rfl⟩ := (takes_optionPattern hword.solid hhead).mp hfirst
          exact ⟨r, hr, hmode⟩
      · rintro ⟨r, hr, hmode⟩
        have hfirst : optionPattern.Takes ⟨some ' ', withFlags (word :: options) text⟩
            ⟨some ' ', withFlags options text⟩ :=
          (takes_optionPattern hword.solid hhead).mpr ⟨hword, rfl⟩
        exact ⟨r, hr.head hfirst, hmode⟩

end Command

/-- A text without a separator stands on one side of it. -/
theorem isInfix_of_append_cons {part s t : List Char} {c : Char} (hc : c ∉ part)
    (h : part <:+: s ++ c :: t) : part <:+: s ∨ part <:+: t := by
  have hfront : ∀ {front : List Char}, front <+: c :: t → c ∉ front → front = [] := by
    intro front hfront hc
    rcases List.prefix_cons_iff.mp hfront with rfl | ⟨rest, rfl, -⟩
    · rfl
    · exact absurd List.mem_cons_self hc
  rcases List.infix_append_iff.mp h with h | h | ⟨front, back, rfl, hsuffix, hback⟩
  · exact .inl h
  · rcases List.infix_cons_iff.mp h with h | h
    · rw [hfront h hc]
      exact .inl List.nil_infix
    · exact .inr h
  · obtain rfl := hfront hback fun h => hc (List.mem_append_right _ h)
    rw [List.append_nil]
    exact .inl hsuffix.isInfix

theorem chmod_only_at_start {before after text : List Char} (hno : ¬"chmod".toList <:+: text)
    (h : "chmod".toList ++ ' ' :: text = before ++ "chmod".toList ++ after) : before = [] := by
  cases before with
  | nil => rfl
  | cons c before =>
      have htail : "hmod".toList ++ ' ' :: text = before ++ "chmod".toList ++ after :=
        (List.cons.inj h).2
      have hinfix : "chmod".toList <:+: "hmod".toList ++ ' ' :: text := ⟨before, after, htail.symm⟩
      simp [List.infix_cons_iff] at hinfix
      exact absurd hinfix hno

section Command

variable {options : List (List Char)} {mode path : List Char}
  (hne : mode ≠ []) (hoctal : ∀ c ∈ mode, IsOctal c)
  (hoptions : ∀ word ∈ options, IsOption word ∧ ¬"chmod".toList <:+: word)
  (hpath : ¬"chmod".toList <:+: path)

include hoctal hoptions hpath

theorem no_further_chmod : ¬"chmod".toList <:+: withFlags options (mode ++ ' ' :: path) := by
  induction options with
  | nil =>
      intro h
      rcases isInfix_of_append_cons (by decide) h with hmode | hpath'
      · have hletter : 'c' ∈ mode := hmode.subset (by decide)
        exact absurd (hoctal 'c' hletter) (by decide)
      · exact hpath hpath'
  | cons word options ih =>
      obtain ⟨hword, hoptions⟩ := List.forall_mem_cons.mp hoptions
      intro h
      rcases isInfix_of_append_cons (by decide) h with hword' | hrest
      · exact hword.2 hword'
      · exact ih hoptions hrest

include hne

/-- The search finds the mode of the command exactly if it lets everyone write. -/
theorem foundIn_writableChange_iff :
    writableChange.foundIn (chmodCommand options mode path) = true ↔ LetsEveryoneWrite mode := by
  have hdigit : ∀ c ∈ (mode ++ ' ' :: path).head?, IsOctal c := by
    obtain ⟨d, mode, rfl⟩ := List.exists_cons_of_ne_nil hne
    intro c hc
    obtain rfl : d = c := Option.some.inj hc
    exact hoctal d List.mem_cons_self
  have hblank : ∀ c ∈ (mode ++ ' ' :: path).head?, isBlank c = false :=
    fun c hc => (hdigit c hc).isLiteral.1
  have hhyphen : ∀ c ∈ (mode ++ ' ' :: path).head?, c ≠ '-' := by
    rintro _ hc rfl
    exact absurd (hdigit '-' hc) (by decide)
  have hwords : ∀ word ∈ options, IsOption word := fun word hword => (hoptions word hword).1
  have htakes : ∀ p q : Place, writableChange.Takes p q ↔
      isBoundary p.before p.rest = true ∧ ∃ r, (Pattern.lit "chmod".toList).Takes p r ∧
        ∃ r', (Pattern.some .blank).Takes r r' ∧
          ∃ r'', (Pattern.many optionPattern).Takes r' r'' ∧ modePattern.Takes r'' q := by
    intro p q
    have hparts : writableChange = .all [.boundary, .lit "chmod".toList, .some .blank,
        .many optionPattern, modePattern] := rfl
    rw [hparts, Pattern.takes_all_cons]
    simp only [Pattern.takes_all_cons, Pattern.takes_all_nil, exists_eq_right']
    constructor
    · rintro ⟨_, ⟨hboundary, rfl⟩, hrest⟩
      exact ⟨hboundary, hrest⟩
    · rintro ⟨hboundary, hrest⟩
      exact ⟨p, ⟨hboundary, rfl⟩, hrest⟩
  rw [Pattern.foundIn_iff_takes]
  simp only [htakes, Pattern.takes_lit, Pattern.blank, Pattern.takes_some_one]
  constructor
  · rintro ⟨before, after, q, hsplit, -, r, ⟨hchmod, -⟩, r', ⟨blanks, hblanks, hr, hall, hbefore⟩,
      hmode⟩
    have hno := no_further_chmod hoctal hoptions hpath
    have hstart : "chmod".toList ++ ' ' :: withFlags options (mode ++ ' ' :: path) =
        before ++ "chmod".toList ++ r.rest := by
      rw [List.append_assoc, ← hchmod]
      exact hsplit
    obtain rfl := chmod_only_at_start hno hstart
    have hrest : ' ' :: withFlags options (mode ++ ' ' :: path) = blanks ++ r'.rest := by
      rw [← hr]
      exact List.append_cancel_left (hsplit.trans hchmod)
    obtain ⟨hrest', hlast⟩ :=
      blanks_append_eq hblanks hall (solid_head_withFlags hwords hblank) hrest
    obtain ⟨r'before, r'rest⟩ := r'
    obtain rfl : r'before = some ' ' := hbefore.trans hlast
    obtain rfl : r'rest = _ := hrest'
    exact (takes_modePattern_iff hne hoctal).mp
      ⟨q, (takes_behind_options hwords hblank hhyphen).mp hmode⟩
  · intro hwrite
    obtain ⟨q, hq⟩ := (takes_modePattern_iff hne hoctal).mpr hwrite
    obtain ⟨r'', hr'', hmode⟩ := (takes_behind_options hwords hblank hhyphen).mpr hq
    refine ⟨[], _, q, rfl, rfl, ⟨some 'd', _⟩, ⟨rfl, rfl⟩, ⟨some ' ', _⟩,
      ⟨[' '], by simp, rfl, List.forall_mem_singleton.mpr rfl, rfl⟩, r'', hr'', hmode⟩

end Command

/-! ## Both forms -/

theorem worldWritable_append_cons (before after : List Instruction) (i : Instruction)
    (p : Patterns) :
    worldWritable (.ofInstructions (before ++ i :: after)) p =
      worldWritable (.ofInstructions before) p ++ (if makesWritable i then [matchAt i] else []) ++
        worldWritable (.ofInstructions after) p := by
  simp only [worldWritable, eachThat, Dockerfile.Document.instructions_ofInstructions,
    List.filter_append, List.filter_cons, List.map_append]
  split <;> simp

theorem makesWritable_copy {mode operands : List Char} (hne : mode ≠ [])
    (hoctal : ∀ c ∈ mode, IsOctal c) {i : Instruction}
    (hkeyword : i.keyword = "COPY" ∨ i.keyword = "ADD")
    (harguments : i.arguments.toList = copyWithMode mode operands) :
    makesWritable i = true ↔ LetsEveryoneWrite mode := by
  have hrun : (i.keyword == "RUN") = false := by
    rcases hkeyword with h | h <;> rw [h] <;> decide
  have hcopy : isCopy i = true := isCopy_iff.mpr hkeyword
  rw [makesWritable, hrun, harguments, flagValue?_copyWithMode hoctal, hcopy,
    ← matchesStart_writableMode_iff hoctal]
  simp [hne]

/-- **Both forms of a mode are reported alike.**  A mode of octal digits is reported in a command,
behind any options, exactly if it is in the flag of a copy: if it has three or four digits and the
last one lets everyone write.  Nothing else of the two instructions matters. -/
theorem chmod_forms_agree {mode : List Char} (hne : mode ≠ []) (hoctal : ∀ c ∈ mode, IsOctal c)
    {options : List (List Char)}
    (hoptions : ∀ word ∈ options, IsOption word ∧ ¬"chmod".toList <:+: word)
    {path : List Char} (hpath : ¬"chmod".toList <:+: path) (operands : List Char)
    {run copy : Instruction} (hrun : run.keyword = "RUN")
    (hcommand : run.arguments.toList = chmodCommand options mode path)
    (hcopy : copy.keyword = "COPY" ∨ copy.keyword = "ADD")
    (hflag : copy.arguments.toList = copyWithMode mode operands) (p : Patterns) :
    (Registry.standard.get? "SEC-008").map Rule.check = some (.ofDockerfile worldWritable) ∧
    (worldWritable (.ofInstructions [run]) p = [matchAt run] ↔
      worldWritable (.ofInstructions [copy]) p = [matchAt copy]) ∧
    ∀ i ∈ [run, copy], ∀ before after, worldWritable (.ofInstructions (before ++ i :: after)) p =
      worldWritable (.ofInstructions before) p ++
        (if LetsEveryoneWrite mode then [matchAt i] else []) ++
        worldWritable (.ofInstructions after) p := by
  have hmakes : ∀ i ∈ [run, copy], makesWritable i = true ↔ LetsEveryoneWrite mode := by
    simp only [List.forall_mem_cons, List.not_mem_nil, IsEmpty.forall_iff, implies_true, and_true]
    constructor
    · rw [makesWritable, hrun, beq_self_eq_true, if_pos rfl, finds, hcommand]
      exact foundIn_writableChange_iff hne hoctal hoptions hpath
    · exact makesWritable_copy hne hoctal hcopy hflag
  have hreported : ∀ i ∈ [run, copy],
      worldWritable (.ofInstructions [i]) p = [matchAt i] ↔ LetsEveryoneWrite mode := by
    intro i hi
    rw [← hmakes i hi, worldWritable, eachThat, Dockerfile.Document.instructions_ofInstructions,
      List.filter_cons]
    split <;> simp_all
  refine ⟨rfl, ?_, fun i hi before after => ?_⟩
  · rw [hreported run (by simp), hreported copy (by simp)]
  · rw [worldWritable_append_cons, if_congr (hmakes i hi) rfl rfl]

/-- Of two modes behind options, the one with four digits is reported in both forms and the one with
five digits in none, though four of its digits would do. -/
theorem chmod_forms_agree_on_digits :
    let run : Instruction := ⟨"RUN", "chmod -R --silent 0666 /srv", 1, 0⟩
    let copy : Instruction := ⟨"COPY", "--chmod=0666 a b", 2, 0⟩
    let longRun : Instruction := ⟨"RUN", "chmod -R --silent 00666 /srv", 3, 0⟩
    let longCopy : Instruction := ⟨"COPY", "--chmod=00666 a b", 4, 0⟩
    Dockerfile.parse ("RUN chmod -R --silent 0666 /srv\nCOPY --chmod=0666 a b\n" ++
      "RUN chmod -R --silent 00666 /srv\nCOPY --chmod=00666 a b\n") =
        .ok ⟨[run, copy, longRun, longCopy], 1⟩ ∧
    worldWritable (.ofInstructions [run, copy, longRun, longCopy]) .standard =
      [matchAt run, matchAt copy] := by
  intro run copy longRun longCopy
  have hoptions : ∀ word ∈ ["-R".toList, "--silent".toList],
      IsOption word ∧ ¬"chmod".toList <:+: word := by
    simp only [List.forall_mem_cons, List.not_mem_nil, IsEmpty.forall_iff, implies_true, and_true]
    exact ⟨⟨⟨⟨_, rfl, by simp⟩, by simp; decide⟩, by decide⟩,
      ⟨⟨_, rfl, by simp⟩, by simp; decide⟩, by decide⟩
  have hpath : ¬"chmod".toList <:+: "/srv".toList := by decide
  have hcommand : run.arguments.toList =
      chmodCommand ["-R".toList, "--silent".toList] "0666".toList "/srv".toList := by decide
  have hflag : copy.arguments.toList = copyWithMode "0666".toList "a b".toList := by decide
  have hlongCommand : longRun.arguments.toList =
      chmodCommand ["-R".toList, "--silent".toList] "00666".toList "/srv".toList := by decide
  have hlongFlag : longCopy.arguments.toList = copyWithMode "00666".toList "a b".toList := by decide
  obtain ⟨-, -, hfour⟩ := chmod_forms_agree (by decide) (by simp; decide) hoptions hpath _ rfl
    hcommand (.inl rfl) hflag .standard
  obtain ⟨-, -, hfive⟩ := chmod_forms_agree (by decide) (by simp; decide) hoptions hpath _ rfl
    hlongCommand (.inl rfl) hlongFlag .standard
  have hwrite : LetsEveryoneWrite "0666".toList := by decide
  have hlong : ¬LetsEveryoneWrite "00666".toList := by decide
  simp only [if_pos hwrite] at hfour
  simp only [if_neg hlong] at hfive
  refine ⟨by decide +kernel, ?_⟩
  calc worldWritable (.ofInstructions [run, copy, longRun, longCopy]) .standard
    _ = [matchAt run] ++ worldWritable (.ofInstructions [copy, longRun, longCopy]) .standard :=
        hfour run (by simp) [] [copy, longRun, longCopy]
    _ = [matchAt run] ++
          ([matchAt copy] ++ worldWritable (.ofInstructions [longRun, longCopy]) .standard) :=
        congrArg _ (hfour copy (by simp) [] [longRun, longCopy])
    _ = [matchAt run] ++ ([matchAt copy] ++ worldWritable (.ofInstructions [longCopy]) .standard) :=
        congrArg (fun found => _ ++ (_ ++ found)) (hfive longRun (by simp) [] [longCopy])
    _ = [matchAt run] ++ ([matchAt copy] ++ []) :=
        congrArg (fun found => _ ++ (_ ++ found)) (hfive longCopy (by simp) [] [])

end ContainerAudit.Rule
