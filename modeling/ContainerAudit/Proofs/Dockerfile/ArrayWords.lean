import ContainerAudit.Proofs.Json.Unescaped
import ContainerAudit.Proofs.Rule.ExecForm
import ContainerAudit.Proofs.Text.ShellWords

/-!
# Arrays as shell words

The sources and the destination of a copy can be given as a JSON array.  If the array is not taken
for one, its text is split into shell words, and these are never the texts of the array
(`stripFlags_splitWords_ne_of_execForm?`).

The splitting is followed through the text while it is read as JSON (`Passes`).  Both read the
strings between the same quotes, and the splitting takes at least as many characters from between
them, as it leaves most escapes as they are.  It takes the brackets and the commas too, so that its
words have more characters than the texts.  Nor are any of them flags that would be left out: the
brackets, commas and blanks stand between the strings, so that a word begins with two hyphens only
if a string does.
-/

namespace ContainerAudit

/-! ## Arrays of texts -/

namespace Json

theorem unsignedNumber_ne_str {negative : Bool} {s r : List Char} {x : String} :
    unsignedNumber negative s ≠ some (str x, r) := by
  intro h
  simp only [unsignedNumber, Option.bind_eq_bind, Option.bind_eq_some_iff] at h
  obtain ⟨whole, -, h⟩ := h
  split at h
  all_goals
    obtain ⟨n, -, h⟩ := Option.bind_eq_some_iff.mp h
    exact absurd h (by simp)

theorem leafValue_ne_str {s r : List Char} {x : String} : leafValue s ≠ some (str x, r) := by
  intro h
  unfold leafValue at h
  split at h
  · simp only at h
    split at h
    case h_6 =>
      split at h
      · exact absurd h (by simp)
      · exact unsignedNumber_ne_str h
    all_goals exact absurd h (by simp)
  · simp only at h
    split at h
    case h_6 => exact unsignedNumber_ne_str h
    all_goals exact absurd h (by simp)

/-- Only what stands between quotes is read as a text. -/
theorem stringRest_of_value {fuel : Nat} {s w r : List Char}
    (h : value fuel s = some (str (String.ofList w), r)) :
    ∃ t, s = '"' :: t ∧ stringRest t = some (w, r) := by
  unfold value at h
  split at h
  · exact absurd h (by simp)
  · next t =>
      obtain ⟨⟨v, after⟩, hv, heq⟩ := Option.map_eq_some_iff.mp h
      obtain ⟨hvw, rfl⟩ := Prod.mk.inj heq
      exact ⟨t, rfl, String.ofList_injective (Json.str.inj hvw) ▸ hv⟩
  · split at h
    · exact absurd h (by simp)
    · obtain ⟨found, -, heq⟩ := Option.map_eq_some_iff.mp h
      exact absurd heq (by simp)
  · split at h
    · exact absurd h (by simp)
    · obtain ⟨found, -, heq⟩ := Option.map_eq_some_iff.mp h
      exact absurd heq (by simp)
  · exact absurd h leafValue_ne_str

theorem items_ne_nil {fuel : Nat} {s after : List Char} : items fuel s ≠ some ([], after) := by
  intro h
  unfold items at h
  split at h
  · exact absurd h (by simp)
  · split at h
    · exact absurd h (by simp)
    · split at h
      · exact absurd h (by simp)
      · split at h <;> exact absurd h (by simp)
      · exact absurd h (by simp)

/-- The items of an array of texts are strings between quotes. -/
theorem exists_string_of_items {fuel : Nat} {s after : List Char} {ws : List (List Char)}
    (h : items (fuel + 1) s = some (texts ws, after)) :
    ∃ w others t rest, ws = w :: others ∧ s = '"' :: t ∧ stringRest t = some (w, rest) ∧
      (others = [] ∧ skipBlanks rest = ']' :: after ∨
        ∃ more, skipBlanks rest = ',' :: more ∧
          items fuel (skipBlanks more) = some (texts others, after)) := by
  cases ws with
  | nil => exact absurd h items_ne_nil
  | cons w others =>
      obtain ⟨rest, hvalue, hnext⟩ := items_cons h
      obtain ⟨t, rfl, hstring⟩ := stringRest_of_value hvalue
      exact ⟨w, others, t, rest, rfl, rfl, hstring, hnext.imp_left fun hend =>
        ⟨List.map_eq_nil_iff.mp hend.1, hend.2⟩⟩

/-- An array of texts is empty, or its items come behind the bracket. -/
theorem exists_items_of_read? {s : List Char} {ws : List (List Char)}
    (h : read? ('[' :: s) = some (arr (texts ws))) :
    ∃ after, skipBlanks after = [] ∧ (ws = [] ∧ skipBlanks s = ']' :: after ∨
      ∃ fuel, items fuel (skipBlanks s) = some (texts ws, after)) := by
  rw [read?] at h
  split at h
  · next j after hvalue =>
      obtain ⟨hafter, rfl⟩ := Option.ite_none_right_eq_some.mp h |>.imp_right Option.some.inj
      refine ⟨after, List.isEmpty_iff.mp hafter, ?_⟩
      change value _ ('[' :: s) = _ at hvalue
      rw [value] at hvalue
      split at hvalue
      · next hend =>
          obtain ⟨harr, rfl⟩ := Prod.mk.inj (Option.some.inj hvalue)
          exact .inl ⟨List.map_eq_nil_iff.mp (Json.arr.inj harr).symm, hend⟩
      · obtain ⟨⟨values, rest⟩, hitems, heq⟩ := Option.map_eq_some_iff.mp hvalue
        obtain ⟨harr, rfl⟩ := Prod.mk.inj heq
        obtain rfl := Json.arr.inj harr
        exact .inr ⟨_, hitems⟩
  · exact absurd h (by simp)

end Json

namespace Dockerfile

open ContainerAudit.Text
open ContainerAudit.Json (stringRest skipBlanks isJsonBlank items texts)

/-! ## Passing through a text -/

/-- Where the splitting of a text stands: its state, the current word so far, backwards, and the
rest of the text. -/
structure Point where
  state : ShellState
  word : List Char
  rest : List Char

/-- The words from a point on, if a tail comes behind the text. -/
def Point.words? (a : Point) (tail : List Char) : Option (List (List Char)) :=
  shellWordsFrom a.state a.word (a.rest ++ tail)

/-- The splitting gets from one point to another, whatever comes behind the text.  The words that it
completes on the way are no flags, and it takes `n` characters at least into its words. -/
def Passes (n : Nat) (a b : Point) : Prop :=
  ∃ done : List (List Char), (∀ tail, a.words? tail = (b.words? tail).map (done ++ ·)) ∧
    (∀ w ∈ done, isFlag w = false) ∧ a.word.length + n ≤ done.flatten.length + b.word.length

theorem Passes.refl (a : Point) : Passes 0 a a :=
  ⟨[], by simp, by simp, by simp⟩

theorem Passes.trans {m n : Nat} {a b c : Point} (hab : Passes m a b) (hbc : Passes n b c) :
    Passes (m + n) a c := by
  obtain ⟨done, hwords, hflags, hlength⟩ := hab
  obtain ⟨done', hwords', hflags', hlength'⟩ := hbc
  refine ⟨done ++ done', fun tail => ?_, List.forall_mem_append.mpr ⟨hflags, hflags'⟩, ?_⟩
  · rw [hwords, hwords', Option.map_map]
    exact congrArg (Option.map · _) (funext fun ws => (List.append_assoc ..).symm)
  · rw [List.flatten_append, List.length_append]
    omega

theorem Passes.mono {m n : Nat} {a b : Point} (h : Passes n a b) (hmn : m ≤ n) : Passes m a b := by
  obtain ⟨done, hwords, hflags, hlength⟩ := h
  exact ⟨done, hwords, hflags, by omega⟩

/-- A step inside a word. -/
theorem Passes.of_eq {n : Nat} {a b : Point} (hwords : ∀ tail, a.words? tail = b.words? tail)
    (hlength : a.word.length + n ≤ b.word.length) : Passes n a b :=
  ⟨[], by simp [hwords], by simp, by simpa using hlength⟩

/-! ## Words that are no flags -/

/-- A word so far, backwards, that will be no flag whatever is appended to it. -/
def Firm (word : List Char) : Prop :=
  ∀ more, isFlag (word.reverse ++ more) = false

theorem Firm.not_isFlag {word : List Char} (h : Firm word) : isFlag word.reverse = false := by
  simpa using h []

theorem Firm.append {word : List Char} (h : Firm word) (s : List Char) : Firm (s ++ word) := by
  intro more
  rw [List.reverse_append, List.append_assoc]
  exact h _

/-- A word that is no flag will be none once something else than a hyphen is appended. -/
theorem firm_cons {word : List Char} {c : Char} (h : isFlag word.reverse = false) (hc : c ≠ '-') :
    Firm (c :: word) := by
  intro more
  rw [List.reverse_cons, List.append_assoc]
  generalize word.reverse = w at h
  rcases w with - | ⟨a, - | ⟨b, w⟩⟩
  · simp [isFlag, List.isPrefixOf, hc.symm]
  · simp [isFlag, List.isPrefixOf, hc.symm]
  · simpa [isFlag, List.isPrefixOf] using h

/-- A place between two words, or inside one that will be no flag. -/
inductive Clear (s : List Char) : Point → Prop
  | between : Clear s ⟨.between, [], s⟩
  | inWord {word : List Char} : Firm word → Clear s ⟨.inWord, word, s⟩

theorem Clear.pass_char {c : Char} {s : List Char} {a : Point} (h : Clear (c :: s) a)
    (hc : IsOrdinary c) (hhyphen : c ≠ '-') :
    ∃ word, Firm word ∧ Passes 1 a ⟨.inWord, word, s⟩ := by
  cases h with
  | between =>
      exact ⟨[c], firm_cons (by decide) hhyphen,
        .of_eq (fun _ => shellWordsFrom_between hc [] _) (Nat.le_refl 1)⟩
  | @inWord word hfirm =>
      exact ⟨c :: word, hfirm.append [c],
        .of_eq (fun _ => shellWordsFrom_inWord hc word _) (Nat.le_refl _)⟩

/-- A blank after a word that is no flag completes it. -/
theorem passes_blank {c : Char} {word s : List Char} (hc : isShellBlank c = true)
    (h : isFlag word.reverse = false) : Passes 0 ⟨.inWord, word, c :: s⟩ ⟨.between, [], s⟩ := by
  refine ⟨[word.reverse], fun tail => ?_, List.forall_mem_singleton.mpr h, by simp⟩
  show shellWordsFrom .inWord word (c :: (s ++ tail)) = _
  rw [shellWordsFrom, if_pos hc]
  rfl

theorem Clear.pass_blank {c : Char} {s : List Char} {a : Point} (h : Clear (c :: s) a)
    (hc : isBlank c = true) : ∃ b, Clear s b ∧ Passes 0 a b := by
  by_cases hshell : isShellBlank c = true
  · refine ⟨⟨.between, [], s⟩, .between, ?_⟩
    cases h with
    | between =>
        refine .of_eq (fun tail => ?_) (Nat.le_refl _)
        show shellWordsFrom .between [] (c :: (s ++ tail)) = shellWordsFrom .between [] (s ++ tail)
        rw [shellWordsFrom, if_pos hshell]
    | inWord hfirm => exact passes_blank hshell hfirm.not_isFlag
  · -- Other blanks are characters of a word like any other.
    have hne : ∀ d, isBlank d = false → c ≠ d := by
      rintro d hd rfl
      exact absurd hc (by simp [hd])
    have hordinary : IsOrdinary c :=
      ⟨Bool.eq_false_iff.mpr hshell, hne _ (by decide), hne _ (by decide), hne _ (by decide)⟩
    obtain ⟨word, hfirm, hpass⟩ := h.pass_char hordinary (hne _ (by decide))
    exact ⟨_, .inWord hfirm, hpass.mono (Nat.zero_le 1)⟩

theorem Clear.pass_blanks {blanks s : List Char} {a : Point} (h : Clear (blanks ++ s) a)
    (hblanks : ∀ c ∈ blanks, isBlank c = true) : ∃ b, Clear s b ∧ Passes 0 a b := by
  induction blanks generalizing a with
  | nil => exact ⟨a, h, .refl a⟩
  | cons c blanks ih =>
      obtain ⟨hc, hblanks⟩ := List.forall_mem_cons.mp hblanks
      obtain ⟨b, hb, hab⟩ := h.pass_blank hc
      obtain ⟨b', hb', hbb'⟩ := ih hb hblanks
      exact ⟨b', hb', hab.trans hbb'⟩

theorem isBlank_of_isJsonBlank {c : Char} (h : isJsonBlank c = true) :
    isBlank c = true ∧ isShellBlank c = true := by
  simp only [isJsonBlank, Bool.or_eq_true, decide_eq_true_eq] at h
  rcases h with ((rfl | rfl) | rfl) | rfl <;> decide

theorem exists_blanks_append (s : List Char) :
    ∃ blanks, s = blanks ++ skipBlanks s ∧ ∀ c ∈ blanks, isJsonBlank c = true :=
  ⟨s.takeWhile isJsonBlank, List.takeWhile_append_dropWhile.symm,
    fun _ hc => List.mem_takeWhile_imp hc⟩

theorem Clear.skip {s : List Char} {a : Point} (h : Clear s a) :
    ∃ b, Clear (skipBlanks s) b ∧ Passes 0 a b := by
  obtain ⟨blanks, hs, hblanks⟩ := exists_blanks_append s
  rw [hs] at h
  exact h.pass_blanks fun c hc => (isBlank_of_isJsonBlank (hblanks c hc)).1

/-! ## Strings between quotes -/

/-- What is taken from between double quotes, where another text stands there. -/
def TakenFrom (code taken : List Char) : Prop :=
  ∀ word rest, shellWordsFrom (.inQuotes '"') word (code ++ rest) =
    shellWordsFrom (.inQuotes '"') (taken.reverse ++ word) rest

theorem TakenFrom.append {code code' taken taken' : List Char} (h : TakenFrom code taken)
    (h' : TakenFrom code' taken') : TakenFrom (code ++ code') (taken ++ taken') := by
  intro word rest
  rw [List.append_assoc, h, h', List.reverse_append, List.append_assoc]

theorem takenFrom_plain {c : Char} (hquote : c ≠ '"') (hslash : c ≠ '\\') : TakenFrom [c] [c] := by
  intro word rest
  rw [List.singleton_append, shellWordsFrom, if_neg hquote, if_neg (by simp [hslash])]
  rfl

/-- A backslash stays, unless a quote or a backslash comes behind it. -/
theorem takenFrom_escape (c : Char) :
    TakenFrom ['\\', c] (if c = '\\' ∨ c = '"' then [c] else ['\\', c]) := by
  intro word rest
  show shellWordsFrom .escapedInQuotes word (c :: rest) = _
  rw [shellWordsFrom]
  split <;> rfl

theorem plain_of_hexValue? {c : Char} {n : Nat} (h : Json.hexValue? c = some n) :
    TakenFrom [c] [c] := by
  refine takenFrom_plain (Json.ne_quote_of_hexValue? h) ?_
  rintro rfl
  have hnone : Json.hexValue? '\\' = none := by decide
  rw [hnone] at h
  exact absurd h (by simp)

theorem takenFrom_unit {a b c d : Char} {n : Nat} (h : Json.unit? a b c d = some n) :
    TakenFrom ['\\', 'u', a, b, c, d] ['\\', 'u', a, b, c, d] := by
  simp only [Json.unit?, Option.bind_eq_bind, Option.bind_eq_some_iff] at h
  obtain ⟨_, ha, _, hb, _, hc, _, hd, -⟩ := h
  have hu : TakenFrom ['\\', 'u'] ['\\', 'u'] := takenFrom_escape 'u'
  exact hu.append ((plain_of_hexValue? ha).append ((plain_of_hexValue? hb).append
    ((plain_of_hexValue? hc).append (plain_of_hexValue? hd))))

/-- A text that is no shorter than another one, and begins with no more hyphens. -/
def Covers (taken v : List Char) : Prop :=
  v.length ≤ taken.length ∧ ∀ k, List.replicate k '-' <+: taken → List.replicate k '-' <+: v

theorem Covers.cons {taken v : List Char} (h : Covers taken v) (c : Char) :
    Covers (c :: taken) (c :: v) := by
  refine ⟨Nat.succ_le_succ h.1, fun k hk => ?_⟩
  cases k with
  | zero => exact List.nil_prefix
  | succ k =>
      obtain ⟨rfl, htail⟩ := List.cons_prefix_cons.mp hk
      exact List.cons_prefix_cons.mpr ⟨rfl, h.2 k htail⟩

/-- An escape that stays as it is covers the character that it stands for. -/
theorem Covers.escape {taken v : List Char} (h : Covers taken v) (code : List Char) (e : Char) :
    Covers ('\\' :: code ++ taken) (e :: v) := by
  refine ⟨?_, fun k hk => ?_⟩
  · have := h.1
    simp only [List.length_append, List.length_cons]
    omega
  · cases k with
    | zero => exact List.nil_prefix
    | succ k => exact absurd (List.cons_prefix_cons.mp hk).1 (by decide)

/-- Of an escape the splitting takes all of it, or the character that it stands for. -/
theorem exists_taken_of_isEscape {code : List Char} {e : Char} (h : Json.IsEscape code e) :
    ∃ taken, TakenFrom code taken ∧
      ∀ {more v}, Covers more v → Covers (taken ++ more) (e :: v) := by
  cases h with
  | @short c _ he =>
      refine ⟨_, takenFrom_escape c, fun hcovers => ?_⟩
      split
      · next hc =>
          -- These two stand for themselves in both readings.
          have hself : e = c := by
            rcases hc with rfl | rfl <;> exact (Option.some.inj he).symm
          rw [hself]
          exact hcovers.cons c
      · exact hcovers.escape [c] e
  | unit hn => exact ⟨_, takenFrom_unit hn, fun hcovers => hcovers.escape _ e⟩
  | pair hn hm =>
      exact ⟨_, (takenFrom_unit hn).append (takenFrom_unit hm), fun hcovers => hcovers.escape _ e⟩

/-- Of a JSON string, the splitting takes a text that covers it. -/
theorem exists_taken_of_stringRest {t v r : List Char} (h : stringRest t = some (v, r)) :
    ∃ spelling, t = spelling ++ '"' :: r ∧
      ∃ taken, TakenFrom spelling taken ∧ Covers taken v := by
  refine Json.exists_spelling_of_stringRest
    (motive := fun spelling v => ∃ taken, TakenFrom spelling taken ∧ Covers taken v) ?_ ?_ ?_ h
  · exact ⟨[], fun _ _ => rfl, Nat.le_refl 0, fun _ hk => hk⟩
  · rintro c spelling v ⟨hquote, hslash, -⟩ ⟨taken, htaken, hcovers⟩
    exact ⟨_, (takenFrom_plain hquote hslash).append htaken, hcovers.cons c⟩
  · rintro e code spelling v hcode ⟨taken, htaken, hcovers⟩
    obtain ⟨escape, hescape, hmore⟩ := exists_taken_of_isEscape hcode
    exact ⟨_, hescape.append htaken, hmore hcovers⟩

/-! ## Items of an array -/

theorem Covers.not_isFlag {taken v : List Char} (h : Covers taken v) (hv : isFlag v = false) :
    isFlag taken = false := by
  refine Bool.eq_false_iff.mpr fun htaken => ?_
  have hflag : isFlag v = true :=
    List.isPrefixOf_iff_prefix.mpr (h.2 2 (List.isPrefixOf_iff_prefix.mp htaken))
  exact absurd hflag (by simp [hv])

/-- A string between quotes is read on inside a word, which is a flag only if the string is one. -/
theorem Clear.pass_string {t v r : List Char} {a : Point} (h : Clear ('"' :: t) a)
    (hread : stringRest t = some (v, r)) (hv : isFlag v = false) :
    ∃ word, isFlag word.reverse = false ∧ Passes v.length a ⟨.inWord, word, r⟩ := by
  obtain ⟨spelling, rfl, taken, htaken, hcovers⟩ := exists_taken_of_stringRest hread
  have hstring : ∀ word tail, shellWordsFrom (.inQuotes '"') word (spelling ++ '"' :: r ++ tail) =
      shellWordsFrom .inWord (taken.reverse ++ word) (r ++ tail) := by
    intro word tail
    rw [List.append_assoc, htaken]
    rfl
  cases h with
  | between =>
      refine ⟨taken.reverse, ?_, .of_eq (fun tail => ?_) ?_⟩
      · rw [List.reverse_reverse]
        exact hcovers.not_isFlag hv
      · exact (hstring [] tail).trans (by rw [List.append_nil]; rfl)
      · simpa using hcovers.1
  | @inWord word hfirm =>
      refine ⟨taken.reverse ++ word, (hfirm.append _).not_isFlag, .of_eq (hstring word) ?_⟩
      have := hcovers.1
      simp only [List.length_append, List.length_reverse]
      omega

/-- Behind a string come blanks and a comma or a bracket, which is taken into a word as well. -/
theorem passes_mark {c : Char} {word s more : List Char} (h : isFlag word.reverse = false)
    (hs : skipBlanks s = c :: more) (hc : IsOrdinary c) (hhyphen : c ≠ '-') :
    ∃ word', Firm word' ∧ Passes 1 ⟨.inWord, word, s⟩ ⟨.inWord, word', more⟩ := by
  obtain ⟨blanks, hsplit, hblanks⟩ := exists_blanks_append s
  rw [hs] at hsplit
  subst hsplit
  cases blanks with
  | nil =>
      exact ⟨c :: word, firm_cons h hhyphen,
        .of_eq (fun _ => shellWordsFrom_inWord hc word _) (Nat.le_refl _)⟩
  | cons d blanks =>
      obtain ⟨hd, hblanks⟩ := List.forall_mem_cons.mp hblanks
      have hfirst := passes_blank (s := blanks ++ c :: more) (isBlank_of_isJsonBlank hd).2 h
      obtain ⟨b, hb, hrest⟩ := (Clear.between (s := blanks ++ c :: more)).pass_blanks
        fun d hd => (isBlank_of_isJsonBlank (hblanks d hd)).1
      obtain ⟨word', hfirm, hmark⟩ := hb.pass_char hc hhyphen
      exact ⟨word', hfirm, (hfirst.trans hrest).trans hmark⟩

/-- The items of an array go into words with all their characters, and the bracket behind them. -/
theorem Clear.pass_items {fuel : Nat} {s after : List Char} {ws : List (List Char)} {a : Point}
    (h : Clear s a) (hread : items fuel s = some (texts ws, after))
    (hflags : ∀ w ∈ ws, isFlag w = false) :
    ∃ word, Firm word ∧ Passes (ws.flatten.length + 1) a ⟨.inWord, word, after⟩ := by
  induction fuel generalizing s ws a with
  | zero => exact absurd hread (by simp [items])
  | succ fuel ih =>
      obtain ⟨w, others, t, rest, rfl, rfl, hstring, hnext⟩ := Json.exists_string_of_items hread
      obtain ⟨hw, hothers⟩ := List.forall_mem_cons.mp hflags
      obtain ⟨word, hword, hpass⟩ := h.pass_string hstring hw
      rw [List.flatten_cons, List.length_append]
      rcases hnext with ⟨rfl, hend⟩ | ⟨more, hcomma, hmore⟩
      · obtain ⟨word', hfirm, hmark⟩ := passes_mark hword hend (by decide) (by decide)
        exact ⟨word', hfirm, hpass.trans hmark⟩
      · obtain ⟨word', hfirm, hmark⟩ := passes_mark hword hcomma (by decide) (by decide)
        obtain ⟨b, hb, hskip⟩ := (Clear.inWord (s := more) hfirm).skip
        obtain ⟨word'', hfirm', hrest⟩ := ih hb hmore hothers
        exact ⟨word'', hfirm', (hpass.trans ((hmark.trans hskip).trans hrest)).mono (by omega)⟩

/-! ## The words of an array -/

/-- Where nothing but blanks is left, at most one word is still to be completed. -/
theorem Clear.words?_blanks {tail : List Char} {a : Point} (h : Clear [] a)
    (htail : ∀ c ∈ tail, isBlank c = true) :
    ∃ ws, a.words? tail = some ws ∧ (∀ w ∈ ws, isFlag w = false) ∧
      a.word.length ≤ ws.flatten.length := by
  have hend : ∀ {b : Point}, Clear [] b → ∃ ws, b.words? [] = some ws ∧
      (∀ w ∈ ws, isFlag w = false) ∧ b.word.length = ws.flatten.length := by
    intro b hb
    cases hb with
    | between => exact ⟨[], rfl, by simp, rfl⟩
    | @inWord word hfirm =>
        exact ⟨[word.reverse], rfl, List.forall_mem_singleton.mpr hfirm.not_isFlag, by simp⟩
  have hmoved : Clear (tail ++ []) { a with rest := tail } ∧
      a.words? tail = ({ a with rest := tail } : Point).words? [] := by
    simp only [Point.words?, List.append_nil]
    cases h with
    | between => exact ⟨.between, rfl⟩
    | inWord hfirm => exact ⟨.inWord hfirm, rfl⟩
  obtain ⟨b, hb, done, hwords, hflags, hlength⟩ := hmoved.1.pass_blanks htail
  obtain ⟨ws, hws, hnone, hword⟩ := hend hb
  refine ⟨done ++ ws, ?_, List.forall_mem_append.mpr ⟨hflags, hnone⟩, ?_⟩
  · rw [hmoved.2, hwords, hws]
    rfl
  · rw [List.flatten_append, List.length_append, ← hword]
    exact hlength

/-- The shell words of an array of texts that are no flags: none of them is a flag either, and they
have more characters than the texts. -/
theorem shellWords?_of_execForm? {a : List Char} {paths : List (List Char)}
    (h : execForm? a = some paths) (hflags : ∀ path ∈ paths, isFlag path = false) :
    ∃ ws, shellWords? a = some ws ∧ (∀ w ∈ ws, isFlag w = false) ∧
      paths.flatten.length < ws.flatten.length := by
  obtain ⟨s, htrim, hread⟩ : ∃ s, trim a = '[' :: s ∧
      Json.read? ('[' :: s) = some (.arr (texts paths)) := by
    rw [execForm?] at h
    split at h
    · next s htrim =>
        obtain ⟨j, hread, hitems⟩ := Option.bind_eq_some_iff.mp h
        rw [Rule.textItems?_eq_some_iff] at hitems
        exact ⟨s, htrim, hitems ▸ hread⟩
    · exact absurd h (by simp)
  obtain ⟨lead, tail, ha, hlead, htail⟩ := exists_trim_append a
  rw [htrim] at ha
  obtain ⟨after, hafter, harray⟩ := Json.exists_items_of_read? hread
  -- The splitting is followed to the first bracket, to the last one, and to the end of the text.
  obtain ⟨b, hb, hfirst⟩ := (Clear.between (s := lead ++ '[' :: s)).pass_blanks hlead
  obtain ⟨word, hfirm, hopen⟩ := hb.pass_char (by decide) (by decide)
  obtain ⟨c, hc, hskip⟩ := (Clear.inWord (s := s) hfirm).skip
  obtain ⟨word', hfirm', hclose⟩ : ∃ word', Firm word' ∧
      Passes (paths.flatten.length + 1) c ⟨.inWord, word', after⟩ := by
    rcases harray with ⟨rfl, hempty⟩ | ⟨fuel, hitems⟩
    · rw [hempty] at hc
      exact hc.pass_char (by decide) (by decide)
    · exact hc.pass_items hitems hflags
  obtain ⟨d, hd, hlast⟩ := (Clear.inWord (s := after) hfirm').skip
  rw [hafter] at hd
  obtain ⟨done, hwords, hdone, hlength⟩ :=
    (((hfirst.trans hopen).trans hskip).trans hclose).trans hlast
  obtain ⟨ws, hws, hnone, hword⟩ := hd.words?_blanks htail
  refine ⟨done ++ ws, ?_, List.forall_mem_append.mpr ⟨hdone, hnone⟩, ?_⟩
  · have hsplit := hwords tail
    rw [hws] at hsplit
    rw [ha]
    exact hsplit
  · rw [List.flatten_append, List.length_append]
    simp only [List.length_nil] at hlength
    omega

/-- **An array of texts is never split into these texts.** -/
theorem stripFlags_splitWords_ne_of_execForm? {a : List Char} {paths : List (List Char)}
    (h : execForm? a = some paths) : stripFlags (splitWords a) ≠ paths := by
  intro heq
  have hflags : ∀ path ∈ paths, isFlag path = false := by
    rw [← heq]
    intro path hpath
    simpa using (List.mem_filter.mp hpath).2
  obtain ⟨ws, hws, hnone, hlength⟩ := shellWords?_of_execForm? h hflags
  have hall : stripFlags (splitWords a) = ws := by
    rw [splitWords, hws]
    exact List.filter_eq_self.mpr fun w hw => by simp [hnone w hw]
  rw [← heq, hall] at hlength
  exact Nat.lt_irrefl _ hlength

end Dockerfile

end ContainerAudit
