import ContainerAudit.Dockerfile.Arguments
import ContainerAudit.Proofs.Dockerfile.Span

/-!
# Reading what is printed

The texts of the instructions of a file, one below the other, are read as the same instructions on
other lines (`parse_print`).  Printing undoes the layout and nothing else: an instruction that was
continued over several lines stands on one, and below it the bodies of its here-documents, each
closed by its word alone.

Two things are told of the reading of a file.  A completed instruction is a heading whose
here-documents were closed in order (`feed_closed`), and so its text is the heading on one line and
their lines below it.  Read again, the heading announces the same words, and then it is the lines
below that decide and not what they look like (`Filled.read`).

What the heading must be asked for is that its line says the same again: it must not go on in the
next line or hold what a second reading takes for a comment, and its keyword must be one that upper
case leaves alone.
-/

namespace ContainerAudit.Dockerfile

open ContainerAudit.Text (trim trimStart trimEnd isBlank joinWith OneLine)

/-! ## Closed here-documents -/

/-- `Filled s words ls s'`: the lines `ls` close the here-documents of the `words` one after
another, each by its word alone, and make `s` into `s'`. -/
inductive Filled : Statement → List (List Char) → List Line → Statement → Prop
  | nil {s : Statement} : Filled s [] [] s
  | cons {s s' : Statement} {word : List Char} {words : List (List Char)} {body ls : List Line} :
      (∀ l ∈ body, trim l ≠ word) → trim word = word →
      Filled (s.withBody body word) words ls s' →
      Filled s (word :: words) (body ++ word :: ls) s'

theorem Filled.concat {s s' : Statement} {words : List (List Char)} {ls : List Line}
    (h : Filled s words ls s') {word : List Char} {body : List Line}
    (hbody : ∀ l ∈ body, trim l ≠ word) (hword : trim word = word) :
    Filled s (words ++ [word]) (ls ++ (body ++ [word])) (s'.withBody body word) := by
  induction h with
  | nil => exact .cons hbody hword .nil
  | cons hbody' hword' _ ih =>
      rw [List.cons_append, List.append_assoc, List.cons_append]
      exact .cons hbody' hword' ih

theorem Filled.keyword_eq {s s' : Statement} {words : List (List Char)} {ls : List Line}
    (h : Filled s words ls s') : s'.keyword = s.keyword := by
  induction h with
  | nil => rfl
  | cons _ _ _ ih => exact ih

theorem Filled.arguments_eq {s s' : Statement} {words : List (List Char)} {ls : List Line}
    (h : Filled s words ls s') : s'.arguments = joinWith ['\n'] (s.arguments :: ls) := by
  induction h with
  | nil => rfl
  | cons _ _ _ ih =>
      rw [ih, Statement.withBody, List.cons_append, Text.joinWith_cons_joinWith]
      simp

/-- A line that announces here-documents, and then the lines that close them, complete the
instruction. -/
theorem Filled.read {s s' : Statement} {words : List (List Char)} {ls : List Line}
    (h : Filled s words ls s') {escape : Char} {state : State} {number : Nat} {l : Line}
    (hstep : step escape state number l = nextBody s words) :
    feed escape state number (l :: ls) = (.between, [s']) := by
  rw [feed_cons, hstep]
  clear hstep
  induction h generalizing number with
  | nil => rfl
  | cons hbody hword _ ih => rw [goOn_body escape _ _ hbody hword, ih]

/-! ## What a reading completes -/

/-- What the joined line of an instruction tells: the keyword is in upper case, and the arguments
are trimmed and stand on one line. -/
structure Statement.IsHeading (s : Statement) : Prop where
  upper : ∃ word, s.keyword = Text.upper word
  trimmed : trim s.arguments = s.arguments
  oneLine : OneLine s.arguments

/-- The instruction is a heading whose here-documents are closed. -/
def Statement.Closed (s : Statement) : Prop :=
  ∃ head ls, head.IsHeading ∧ Filled head (heredocWords head.arguments) ls s ∧ ∀ l ∈ ls, OneLine l

/-- The open instruction will be closed: its pieces stand on one line each, and in a here-document
those before it are closed and its own word has not come up. -/
def State.Closing : State → Prop
  | .between => True
  | .joining _ pieces => ∀ p ∈ pieces, OneLine p
  | .inBody s word words body =>
      ∃ head before ls, head.IsHeading ∧ heredocWords head.arguments = before ++ word :: words ∧
        Filled head before ls s ∧ (∀ l ∈ ls, OneLine l) ∧ ∀ l ∈ body, OneLine l ∧ trim l ≠ word

def ClosedStep (here : State × Option Statement) : Prop :=
  here.1.Closing ∧ ∀ s ∈ here.2, s.Closed

theorem State.Closing.closedStep {state : State} (h : state.Closing) : ClosedStep (state, none) :=
  ⟨h, fun s hs => absurd hs (Option.not_mem_none s)⟩

theorem oneLine_trim {s : List Char} (h : OneLine s) : OneLine (trim s) :=
  fun c hc => h c (Text.mem_of_mem_trim hc)

theorem oneLine_stripComment {l : Line} (h : OneLine l) : OneLine (stripComment l) :=
  fun c hc => h c ((stripComment_isInfix l).subset hc)

theorem oneLine_joinPieces {pieces : List (List Char)} (h : ∀ p ∈ pieces, OneLine p) :
    OneLine (joinPieces pieces) := by
  intro c hc
  rcases Text.mem_joinWith hc with hc | ⟨p, hp, hc⟩
  · rw [List.mem_singleton.mp hc]
    decide
  · exact h p (List.mem_filter.mp hp).1 c hc

theorem header_isHeading (start : Nat) {logical : List Char} (h : OneLine logical) :
    (header start logical).IsHeading where
  upper := ⟨_, rfl⟩
  trimmed := Text.trim_trim _
  oneLine := oneLine_trim fun c hc => h c (List.mem_of_mem_drop hc)

/-- Between the here-documents of a heading: the next one is opened, or the instruction is
completed. -/
theorem nextBody_closed {head s : Statement} {before words : List (List Char)} {ls : List Line}
    (hhead : head.IsHeading) (hwords : heredocWords head.arguments = before ++ words)
    (hfilled : Filled head before ls s) (hls : ∀ l ∈ ls, OneLine l) :
    ClosedStep (nextBody s words) := by
  cases words with
  | nil =>
      rw [List.append_nil] at hwords
      refine ⟨trivial, fun t ht => ?_⟩
      rw [← Option.some.inj ht]
      exact ⟨head, ls, hhead, hwords ▸ hfilled, hls⟩
  | cons word words =>
      refine State.Closing.closedStep ⟨head, before, ls, hhead, hwords, hfilled, hls, ?_⟩
      exact fun _ h => absurd h List.not_mem_nil

theorem takeLine_closed (escape : Char) (start : Nat) {pieces : List (List Char)}
    (hpieces : ∀ p ∈ pieces, OneLine p) {l : Line} (hl : OneLine l) :
    ClosedStep (takeLine escape start pieces l) := by
  have hend : OneLine (trimEnd l) := fun c hc => hl c (Text.mem_of_mem_trimEnd hc)
  have hall : ∀ last : Line, OneLine last → ∀ p ∈ pieces ++ [stripComment last], OneLine p := by
    intro last hlast p hp
    rcases List.mem_append.mp hp with hp | hp
    · exact hpieces p hp
    · rw [List.mem_singleton.mp hp]
      exact oneLine_stripComment hlast
  simp only [takeLine]
  split
  · exact State.Closing.closedStep
      (hall _ fun c hc => hend c ((List.dropLast_sublist _).subset hc))
  · simp only [finishPieces]
    split
    · exact State.Closing.closedStep trivial
    · have hheading := header_isHeading start (oneLine_joinPieces (hall _ hend))
      exact nextBody_closed hheading (List.nil_append _).symm .nil
        fun _ h => absurd h List.not_mem_nil

theorem step_closed (escape : Char) {state : State} (h : state.Closing) (number : Nat) {l : Line}
    (hl : OneLine l) : ClosedStep (step escape state number l) := by
  cases state with
  | between =>
      simp only [step]
      split
      · exact State.Closing.closedStep trivial
      · exact takeLine_closed escape number (fun _ h => absurd h List.not_mem_nil) hl
  | joining start pieces =>
      simp only [step]
      split
      · exact State.Closing.closedStep h
      · exact takeLine_closed escape start h hl
  | inBody s word words body =>
      obtain ⟨head, before, ls, hhead, hwords, hfilled, hls, hbody⟩ := h
      simp only [step]
      split
      · -- a line that closes the body may have blanks around the word, which are not printed
        rename_i hclose
        have hword : trim word = word := by rw [← hclose, Text.trim_trim]
        have honeLine : OneLine word := hclose ▸ oneLine_trim hl
        refine nextBody_closed hhead (by rw [hwords, List.append_assoc, List.singleton_append])
          (hfilled.concat (fun l hl => (hbody l hl).2) hword) ?_
        intro m hm
        simp only [List.mem_append, List.mem_singleton] at hm
        rcases hm with hm | hm | rfl
        · exact hls m hm
        · exact (hbody m hm).1
        · exact honeLine
      · rename_i hopen
        refine State.Closing.closedStep ⟨head, before, ls, hhead, hwords, hfilled, hls, ?_⟩
        intro m hm
        rcases List.mem_append.mp hm with hm | hm
        · exact hbody m hm
        · rw [List.mem_singleton.mp hm]
          exact ⟨hl, hopen⟩

theorem feed_closed (escape : Char) {ls : List Line} (hls : ∀ l ∈ ls, OneLine l) {state : State}
    (h : state.Closing) (number : Nat) : ∀ s ∈ (feed escape state number ls).2, s.Closed :=
  feed_forall State.Closing Statement.Closed
    (fun l hl _ number h => step_closed escape h number (hls l hl)) h number

/-! ## The text of an instruction -/

def Statement.text (s : Statement) : List Char :=
  trim (s.keyword ++ ' ' :: s.arguments)

theorem toList_text (i : Instruction) : i.text.toList = i.statement.text := by
  simp [Instruction.text, Text.mapChars, Statement.text, Instruction.statement]

/-- The text does not end with a blank. -/
def EndsSolid (s : List Char) : Prop :=
  ∀ c, s.getLast? = some c → isBlank c = false

theorem endsSolid_of_trimmed {s : List Char} (h : trim s = s) : EndsSolid s := by
  intro c hc
  rw [← h] at hc
  exact Text.getLast?_trim hc

theorem Statement.Named.begins {s : Statement} (h : s.Named) (t : List Char) :
    ∀ c, (s.keyword ++ t).head? = some c → isBlank c = false := by
  obtain ⟨hne, hsolid⟩ := h
  intro c hc
  rw [List.head?_append_of_ne_nil _ hne] at hc
  exact hsolid c (List.mem_of_head? hc)

theorem Statement.Named.text_of_arguments {s : Statement} (h : s.Named)
    (hsolid : EndsSolid s.arguments) (hne : s.arguments ≠ []) :
    s.text = s.keyword ++ ' ' :: s.arguments := by
  refine Text.trim_eq_self (h.begins _) fun c hc => hsolid c ?_
  rwa [List.append_cons, List.getLast?_append_of_ne_nil _ hne] at hc

theorem Statement.Named.text_of_no_arguments {s : Statement} (h : s.Named)
    (hnil : s.arguments = []) : s.text = s.keyword := by
  have hlast : EndsSolid s.keyword := fun c hc => h.2 c (List.mem_of_getLast? hc)
  have hblank : trimEnd (s.keyword ++ [' ']) = trimEnd s.keyword :=
    List.rdropWhile_concat_pos isBlank s.keyword ' ' (by decide)
  rw [Statement.text, hnil, trim, Text.trimStart_eq_self (h.begins _), hblank,
    Text.trimEnd_eq_self hlast]

theorem Statement.Named.text_ne_nil {s : Statement} (h : s.Named) (hsolid : EndsSolid s.arguments) :
    s.text ≠ [] := by
  by_cases hnil : s.arguments = []
  · rw [h.text_of_no_arguments hnil]
    exact h.1
  · rw [h.text_of_arguments hsolid hnil]
    exact List.append_ne_nil_of_left_ne_nil h.1 _

theorem Statement.Named.oneLine_text {s : Statement} (h : s.Named) (hline : OneLine s.arguments) :
    OneLine s.text := by
  refine oneLine_trim fun c hc => ?_
  rcases List.mem_append.mp hc with hc | hc
  · refine Bool.eq_false_iff.mpr fun hend => ?_
    exact absurd (Text.isBlank_of_isLineEnd hend) (by simp [h.2 c hc])
  · rcases List.mem_cons.mp hc with rfl | hc
    · decide
    · exact hline c hc

/-! ## Words of here-documents -/

theorem markerWord?_ne_nil {s word : List Char} (h : markerWord? s = some word) : word ≠ [] := by
  rintro rfl
  unfold markerWord? at h
  split at h
  · dsimp only at h
    split at h
    · exact absurd h (by simp)
    · split at h
      · split at h
        · simp_all
        · exact absurd h (by simp)
      · split at h
        · exact absurd h (by simp)
        · simp_all
  · exact absurd h (by simp)

theorem heredocWordsFrom_ne_nil {quotes : Quotes} {previous : Char} {s word : List Char}
    (h : word ∈ heredocWordsFrom quotes previous s) : word ≠ [] := by
  induction s generalizing quotes previous with
  | nil => exact absurd h List.not_mem_nil
  | cons c s ih =>
      rw [heredocWordsFrom] at h
      split at h
      · split at h
        · rename_i hmarker
          rcases List.mem_cons.mp h with rfl | h
          · exact markerWord?_ne_nil hmarker
          · exact ih h
        · exact ih h
      · exact ih h

/-- The last line that closes here-documents is a word of theirs. -/
theorem Filled.last {s s' : Statement} {words : List (List Char)} {ls : List Line}
    (h : Filled s words ls s') (hwords : ∀ word ∈ words, word ≠ []) :
    ∀ l, ls.getLast? = some l → l ≠ [] ∧ EndsSolid l := by
  induction h with
  | nil => exact fun _ hl => absurd hl (by simp)
  | @cons s s' word words body ls _ hword _ ih =>
      obtain ⟨hne, hwords⟩ := List.forall_mem_cons.mp hwords
      intro l hl
      rw [List.getLast?_append_of_ne_nil _ (List.cons_ne_nil word ls)] at hl
      cases ls with
      | nil =>
          obtain rfl : word = l := by simpa using hl
          exact ⟨hne, endsSolid_of_trimmed hword⟩
      | cons m ls => exact ih hwords l (by simpa using hl)

theorem Filled.endsSolid {s s' : Statement} {words : List (List Char)} {ls : List Line}
    (h : Filled s words ls s') (hwords : ∀ word ∈ words, word ≠ [])
    (hsolid : EndsSolid s.arguments) : EndsSolid s'.arguments := by
  have hlines := h.last hwords
  rw [h.arguments_eq]
  cases ls with
  | nil => exact hsolid
  | cons l ls =>
      have hlast := List.getLast?_eq_some_getLast (List.cons_ne_nil l ls)
      obtain ⟨hne, hend⟩ := hlines _ hlast
      intro c hc
      rw [Text.getLast?_joinWith (by rwa [List.getLast?_cons_cons]) hne] at hc
      exact hend c hc

/-- The text of an instruction is its heading, and below it the lines that close its
here-documents. -/
theorem Filled.text_eq {head s : Statement} {ls : List Line}
    (h : Filled head (heredocWords head.arguments) ls s) (hnamed : head.Named)
    (hsolid : EndsSolid head.arguments) : s.text = joinWith ['\n'] (head.text :: ls) := by
  by_cases hnil : head.arguments = []
  · -- without arguments no here-document is announced
    rw [hnil] at h
    cases h
    rfl
  · have hnamed' : s.Named := by rwa [Statement.Named, h.keyword_eq]
    have hsolid' := h.endsSolid (fun _ => heredocWordsFrom_ne_nil) hsolid
    have hne : s.arguments ≠ [] := by
      rw [h.arguments_eq]
      exact Text.joinWith_ne_nil hnil
    have hline : head.keyword ++ ' ' :: head.arguments = head.keyword ++ [' '] ++ head.arguments :=
      List.append_cons _ _ _
    rw [hnamed'.text_of_arguments hsolid' hne, hnamed.text_of_arguments hsolid hnil,
      h.keyword_eq, h.arguments_eq, hline, Text.joinWith_append_cons, List.append_cons]

/-! ## Reading a text again -/

def Statement.onLine (n : Nat) (s : Statement) : Statement :=
  { s with line := n }

theorem Filled.onLine {s s' : Statement} {words : List (List Char)} {ls : List Line}
    (h : Filled s words ls s') (n : Nat) : Filled (s.onLine n) words ls (s'.onLine n) := by
  induction h with
  | nil => exact .nil
  | cons hbody hword _ ih => exact .cons hbody hword ih

/-- The heading is read off its line again. -/
theorem header_text {head : Statement} (hheading : head.IsHeading) (hnamed : head.Named)
    (hascii : ∀ c ∈ head.keyword, c.toNat < 128) (n : Nat) :
    header n head.text = head.onLine n := by
  have hupper : Text.upper head.keyword = head.keyword := by
    obtain ⟨word, hword⟩ := hheading.upper
    rw [hword] at hascii ⊢
    exact Text.upper_upper_of_ascii hascii
  have hkeyword : ∀ c ∈ head.keyword, (!isBlank c) = true := fun c hc => by simp [hnamed.2 c hc]
  by_cases hnil : head.arguments = []
  · have htake : head.keyword.takeWhile (!isBlank ·) = head.keyword :=
      List.takeWhile_eq_self_iff.mpr hkeyword
    rw [hnamed.text_of_no_arguments hnil, header]
    simp only [htake, hupper, List.drop_length, Statement.onLine, hnil]
    rfl
  · have htake : (head.keyword ++ ' ' :: head.arguments).takeWhile (!isBlank ·) = head.keyword := by
      rw [List.takeWhile_append_of_pos hkeyword, List.takeWhile_cons_of_neg (by decide),
        List.append_nil]
    have htrim : trim (' ' :: head.arguments) = head.arguments := by
      rw [trim, trimStart, List.dropWhile_cons_of_pos (by decide)]
      exact hheading.trimmed
    rw [hnamed.text_of_arguments (endsSolid_of_trimmed hheading.trimmed) hnil, header]
    simp only [htake, hupper, List.drop_left, htrim, Statement.onLine]

theorem step_text {head : Statement} (hheading : head.IsHeading) (hnamed : head.Named)
    (hascii : ∀ c ∈ head.keyword, c.toNat < 128) (hlast : head.text.getLast? ≠ some '\\')
    (hcomment : stripComment head.text = head.text) (n : Nat) :
    isSkipped head.text = false ∧
      step '\\' .between n head.text = nextBody (head.onLine n) (heredocWords head.arguments) := by
  have hne : head.text ≠ [] := hnamed.text_ne_nil (endsSolid_of_trimmed hheading.trimmed)
  have hskip : isSkipped head.text = false := by
    rw [← Bool.not_eq_true, ← stripComment_eq_nil_iff, hcomment]
    exact hne
  have hend : trimEnd head.text = head.text := Text.trimEnd_eq_self fun _ => Text.getLast?_trim
  refine ⟨hskip, ?_⟩
  simp only [step, hskip, Bool.false_eq_true, if_false, takeLine, hend, if_neg hlast, hcomment,
    List.nil_append, finishPieces, joinPieces_singleton hne, List.isEmpty_iff, if_neg hne,
    header_text hheading hnamed hascii]
  rfl

theorem firstLine_joinWith {l : Line} (h : OneLine l) (ls : List Line) :
    firstLine (joinWith ['\n'] (l :: ls)) = l := by
  have hl : ∀ c ∈ l, (c != '\n') = true := by
    intro c hc
    rw [bne_iff_ne]
    rintro rfl
    exact absurd (h _ hc) (by decide)
  cases ls with
  | nil => exact List.takeWhile_eq_self_iff.mpr hl
  | cons m ls =>
      rw [joinWith, List.append_assoc, List.singleton_append, firstLine,
        List.takeWhile_append_of_pos hl, List.takeWhile_cons_of_neg (by decide), List.append_nil]

/-- The text of the instruction is read as the instruction, on any line. -/
structure Statement.ReadsBack (s : Statement) : Prop where
  joined : joinWith ['\n'] (Text.lines s.text) = s.text
  begins : ∃ l ls, Text.lines s.text = l :: ls ∧ isSkipped l = false
  read : ∀ n, feed '\\' .between n (Text.lines s.text) = (.between, [s.onLine n])

theorem Statement.Closed.readsBack {s : Statement} (hclosed : s.Closed) (hnamed : s.Named)
    (hascii : ∀ c ∈ s.keyword, c.toNat < 128) (hlast : (firstLine s.text).getLast? ≠ some '\\')
    (hcomment : stripComment (firstLine s.text) = firstLine s.text) : s.ReadsBack := by
  obtain ⟨head, ls, hheading, hfilled, hls⟩ := hclosed
  rw [hfilled.keyword_eq] at hascii
  have hnamed' : head.Named := by rwa [Statement.Named, hfilled.keyword_eq] at hnamed
  have hsolid := endsSolid_of_trimmed hheading.trimmed
  have hone : ∀ l ∈ head.text :: ls, OneLine l :=
    List.forall_mem_cons.mpr ⟨hnamed'.oneLine_text hheading.oneLine, hls⟩
  have htext := hfilled.text_eq hnamed' hsolid
  have hlines : Text.lines s.text = head.text :: ls := by
    rw [htext]
    refine Text.lines_joinWith hone fun hnil => ?_
    cases ls with
    | nil => exact hnamed'.text_ne_nil hsolid (by simpa using hnil)
    | cons l more =>
        exact (hfilled.last (fun _ => heredocWordsFrom_ne_nil) [] (by simpa using hnil)).1 rfl
  have hfirst : firstLine s.text = head.text := by
    rw [htext, firstLine_joinWith (hone _ List.mem_cons_self)]
  rw [hfirst] at hlast hcomment
  have hstep := step_text hheading hnamed' hascii hlast hcomment
  refine ⟨by rw [hlines, ← htext], ⟨head.text, ls, hlines, (hstep 0).1⟩, fun n => ?_⟩
  rw [hlines]
  exact (hfilled.onLine n).read (hstep n).2

/-! ## Printing a file -/

/-- The texts of the instructions, one below the other. -/
def Document.print (d : Document) : String :=
  String.ofList (joinWith ['\n'] (d.instructions.map (·.text.toList)))

/-- The lines on which the instruction is printed. -/
def Instruction.printed (i : Instruction) : List Line :=
  Text.lines i.text.toList

/-- The instructions on the lines on which they are printed: the first on line `n`, and each of the
others behind the lines of those before it. -/
def numbered (n : Nat) (is : List Instruction) : List Instruction :=
  is.mapIdx fun k i => { i with line := n + ((is.take k).flatMap (·.printed)).length }

theorem numbered_cons (n : Nat) (i : Instruction) (is : List Instruction) :
    numbered n (i :: is) = { i with line := n } :: numbered (n + i.printed.length) is := by
  simp only [numbered, List.mapIdx_cons, List.take_zero, List.flatMap_nil, List.length_nil,
    Nat.add_zero, List.take_succ_cons, List.flatMap_cons, List.length_append, Nat.add_assoc]

theorem countP_isFrom_numbered (n : Nat) (is : List Instruction) :
    (numbered n is).countP (·.isFrom) = is.countP (·.isFrom) := by
  induction is generalizing n with
  | nil => rfl
  | cons i is ih =>
      rw [numbered_cons, List.countP_cons, List.countP_cons, ih]
      rfl

theorem stagesOf_numbered (n : Nat) (is : List Instruction) :
    stagesOf (numbered n is) = stagesOf is :=
  stagesOf_congr (countP_isFrom_numbered n is) (by cases is <;> simp [numbered])

/-- Other lines do not move instructions to other stages. -/
theorem stageFrom_numbered (froms n : Nat) (ss : List Statement) :
    stageFrom froms ((numbered n (stageFrom froms ss)).map Instruction.statement) =
      numbered n (stageFrom froms ss) := by
  induction ss generalizing froms n with
  | nil => rfl
  | cons s ss ih =>
      rw [stageFrom_cons, numbered_cons, List.map_cons, stageFrom_cons]
      simp only [Instruction.statement, String.toList_ofList, Statement.isFrom] at ih ⊢
      rw [ih]

section Print

variable {is : List Instruction} (h : ∀ i ∈ is, i.statement.ReadsBack)

include h

theorem lines_print :
    Text.lines (joinWith ['\n'] (is.map (·.text.toList))) = is.flatMap (·.printed) := by
  induction is with
  | nil => rfl
  | cons i is ih =>
      obtain ⟨hi, his⟩ := List.forall_mem_cons.mp h
      cases is with
      | nil => simp only [List.map_cons, List.map_nil, joinWith, List.flatMap_singleton,
          Instruction.printed]
      | cons j is =>
          obtain ⟨l, ls, hlines, -⟩ := hi.begins
          have hne : i.printed ≠ [] := by
            rw [Instruction.printed, toList_text, hlines]
            exact List.cons_ne_nil l ls
          have hjoined : joinWith ['\n'] i.printed = i.text.toList := by
            rw [Instruction.printed, toList_text, hi.joined]
          have hmore := Text.lines_joinWith_append hne (fun l => Text.oneLine_of_mem_lines)
            (joinWith ['\n'] ((j :: is).map (·.text.toList)))
          rw [hjoined, ih his] at hmore
          rw [List.flatMap_cons, ← hmore, List.map_cons, List.map_cons, joinWith, List.append_assoc,
            List.singleton_append]

theorem feed_print (n : Nat) :
    feed '\\' .between n (is.flatMap (·.printed)) =
      (.between, (numbered n is).map Instruction.statement) := by
  induction is generalizing n with
  | nil => rfl
  | cons i is ih =>
      obtain ⟨hi, his⟩ := List.forall_mem_cons.mp h
      have hread : feed '\\' .between n i.printed = (.between, [i.statement.onLine n]) := by
        rw [Instruction.printed, toList_text, hi.read]
      rw [List.flatMap_cons, feed_append, hread]
      simp only [ih his]
      rw [numbered_cons]
      rfl

/-- The first line is no directive, so the escape character is a backslash whatever it was
before. -/
theorem escapeChar_print : escapeChar (is.flatMap (·.printed)) = '\\' := by
  cases is with
  | nil => rfl
  | cons i is =>
      obtain ⟨l, ls, hlines, hskip⟩ := (h i List.mem_cons_self).begins
      rw [List.flatMap_cons, Instruction.printed, toList_text, hlines, List.cons_append]
      exact escapeChar_of_not_skipped hskip _

end Print

theorem parse_closed {text : String} {d : Document} (h : parse text = .ok d) :
    ∀ i ∈ d.instructions, i.statement.Closed := by
  have hbetween : State.between.Closing := trivial
  exact forall_of_parse h (feed_closed _ (fun _ => Text.oneLine_of_mem_lines) hbetween 1)

/-- **What is printed is read back.**  The texts of the instructions of a file, one below the other,
are a file with the same instructions in the same stages, each on the line on which it is
printed. -/
theorem parse_print {text : String} {d : Document} (h : parse text = .ok d)
    (hascii : ∀ i ∈ d.instructions, ∀ c ∈ i.keyword.toList, c.toNat < 128)
    (hlast : ∀ i ∈ d.instructions, (firstLine i.text.toList).getLast? ≠ some '\\')
    (hcomment : ∀ i ∈ d.instructions,
      stripComment (firstLine i.text.toList) = firstLine i.text.toList) :
    ∃ d', parse d.print = .ok d' ∧ d'.instructions = numbered 1 d.instructions ∧
      d'.stageCount = d.stageCount := by
  have hback : ∀ i ∈ d.instructions, i.statement.ReadsBack := by
    intro i hi
    have hlast := hlast i hi
    have hcomment := hcomment i hi
    rw [toList_text] at hlast hcomment
    exact (parse_closed h i hi).readsBack (parse_named h i hi) (hascii i hi) hlast hcomment
  obtain ⟨out, -, rfl⟩ := parse_eq_ok.mp h
  refine ⟨.ofInstructions (numbered 1 (stageFrom 0 out)), parse_eq_ok.mpr ?_, rfl,
    stagesOf_numbered 1 _⟩
  refine ⟨(numbered 1 (stageFrom 0 out)).map Instruction.statement, ?_, ?_⟩
  · rw [readText, Document.print, String.toList_ofList, lines_print hback, escapeChar_print hback,
      feed_print hback]
    rfl
  · rw [stageFrom_numbered]

/-- The file has another escape character, a keyword with a letter beyond ASCII, a here-document
that looks like an instruction and a continued comment, and an empty line in the other. -/
theorem parse_print_heredocs :
    ∃ d, parse ("# escape=`\nfrom a `\n# c\n AS b\nRUN <<E <<'F' | sh\nFROM c\n# x\\\n" ++
        "  E\n\n F\nuſer u # me\n") = .ok d ∧
      d.print = "FROM a AS b\nRUN <<E <<'F' | sh\nFROM c\n# x\\\nE\n\nF\nUSER u" ∧
      parse d.print = .ok ⟨[⟨"FROM", "a AS b", 1, 0⟩,
        ⟨"RUN", "<<E <<'F' | sh\nFROM c\n# x\\\nE\n\nF", 2, 0⟩, ⟨"USER", "u", 8, 0⟩], 1⟩ := by
  let d : Document := ⟨[⟨"FROM", "a AS b", 2, 0⟩,
    ⟨"RUN", "<<E <<'F' | sh\nFROM c\n# x\\\nE\n\nF", 5, 0⟩, ⟨"USER", "u", 11, 0⟩], 1⟩
  have h : parse ("# escape=`\nfrom a `\n# c\n AS b\nRUN <<E <<'F' | sh\nFROM c\n# x\\\n" ++
      "  E\n\n F\nuſer u # me\n") = .ok d := by
    decide +kernel
  have hnumbered : numbered 1 d.instructions = [⟨"FROM", "a AS b", 1, 0⟩,
      ⟨"RUN", "<<E <<'F' | sh\nFROM c\n# x\\\nE\n\nF", 2, 0⟩, ⟨"USER", "u", 8, 0⟩] := by
    decide +kernel
  obtain ⟨d', hparse, hinstructions, hcount⟩ := parse_print h (by simp [d]) (by decide) (by decide)
  have hd' : d' = ⟨_, 1⟩ := congrArg₂ Document.mk (hinstructions.trans hnumbered) hcount
  exact ⟨d, h, by decide +kernel, hd' ▸ hparse⟩

end ContainerAudit.Dockerfile
