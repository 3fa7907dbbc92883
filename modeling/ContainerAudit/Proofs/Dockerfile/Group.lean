import ContainerAudit.Proofs.Dockerfile.Stage

/-!
# Groups of lines

The lines of a file fall into skipped lines and groups, one group for each instruction.  A group is
a heading, whose lines go on one in the other, and below it the bodies of the here-documents that
the heading announces.  All this is said here of lines, without the states of a reading.

A file is refused exactly if its last group breaks off (`parse_eq_error_iff`): the heading goes on
at the end of the file, or a here-document is not closed there.  That there is no other way to be
refused rests on two facts.  Lines are complete groups, or complete groups and one that breaks off
(`complete_or_unfinished`).  And each kind is read as what it is: complete groups leave nothing open
(`Complete.read`), and a group that breaks off leaves its instruction open, on the line on which it
starts (`Dangling.read`, `Unterminated.read`).
-/

namespace ContainerAudit.Dockerfile

open ContainerAudit.Text (trim trimEnd)

/-- The line goes on in the next one: up to blanks, it ends with the escape character. -/
def Continues (escape : Char) (l : Line) : Prop :=
  (trimEnd l).getLast? = some escape

instance (escape : Char) (l : Line) : Decidable (Continues escape l) :=
  inferInstanceAs (Decidable (_ = _))

/-- `Heading escape ls pieces`: each of the lines `ls` but the last goes on in the next one that is
not skipped, and `pieces` is what they give to the instruction. -/
inductive Heading (escape : Char) : List Line → List (List Char) → Prop
  | last {l : Line} : isSkipped l = false → ¬Continues escape l →
      Heading escape [l] [stripComment (trimEnd l)]
  | more {l : Line} {skipped ls : List Line} {pieces : List (List Char)} :
      isSkipped l = false → Continues escape l → (∀ m ∈ skipped, isSkipped m = true) →
      Heading escape ls pieces →
      Heading escape (l :: (skipped ++ ls)) (stripComment (trimEnd l).dropLast :: pieces)

/-- Each of the lines goes on in the next one that is not skipped, and the last of them has none. -/
inductive Dangling (escape : Char) : List Line → Prop
  | last {l : Line} {skipped : List Line} :
      isSkipped l = false → Continues escape l → (∀ m ∈ skipped, isSkipped m = true) →
      Dangling escape (l :: skipped)
  | more {l : Line} {skipped ls : List Line} :
      isSkipped l = false → Continues escape l → (∀ m ∈ skipped, isSkipped m = true) →
      Dangling escape ls → Dangling escape (l :: (skipped ++ ls))

/-- The lines close the here-documents of the words, one after the other: a body without the word,
and then a line with the word and nothing else, up to blanks. -/
inductive Closes : List (List Char) → List Line → Prop
  | nil : Closes [] []
  | cons {word : List Char} {words : List (List Char)} {body ls : List Line} {close : Line} :
      (∀ l ∈ body, trim l ≠ word) → trim close = word → Closes words ls →
      Closes (word :: words) (body ++ close :: ls)

/-- The words of the here-documents that a heading announces. -/
def announced (pieces : List (List Char)) : List (List Char) :=
  heredocWords (header 0 (joinPieces pieces)).arguments

/-- The lines of an instruction from its first to its last. -/
inductive Group (escape : Char) : List Line → Prop
  | mk {heading bodies : List Line} {pieces : List (List Char)} :
      Heading escape heading pieces → Closes (announced pieces) bodies →
      Group escape (heading ++ bodies)

/-- Skipped lines and whole groups, with nothing left over. -/
inductive Complete (escape : Char) : List Line → Prop
  | nil : Complete escape []
  | skip {l : Line} {ls : List Line} :
      isSkipped l = true → Complete escape ls → Complete escape (l :: ls)
  | group {g ls : List Line} :
      Group escape g → Complete escape ls → Complete escape (g ++ ls)

/-- A group that breaks off: behind the bodies of the words before it, no line closes the
here-document of the word. -/
inductive Unterminated (escape : Char) (word : List Char) : List Line → Prop
  | mk {heading bodies rest : List Line} {pieces before after : List (List Char)} :
      Heading escape heading pieces → announced pieces = before ++ word :: after →
      Closes before bodies → (∀ l ∈ rest, trim l ≠ word) →
      Unterminated escape word (heading ++ (bodies ++ rest))

/-! ## Reading the lines of a group -/

theorem step_joining_skipped (escape : Char) (start : Nat) (pieces : List (List Char))
    (number : Nat) {l : Line} (hl : isSkipped l = true) :
    step escape (.joining start pieces) number l = (.joining start pieces, none) := by
  simp only [step, hl, if_true]

theorem step_joining_continues {escape : Char} (start : Nat) (pieces : List (List Char))
    (number : Nat) {l : Line} (hl : isSkipped l = false) (hgoes : Continues escape l) :
    step escape (.joining start pieces) number l =
      (.joining start (pieces ++ [stripComment (trimEnd l).dropLast]), none) := by
  rw [Continues] at hgoes
  simp only [step, hl, takeLine, hgoes, if_true, Bool.false_eq_true, if_false]

theorem step_joining_ends {escape : Char} (start : Nat) (pieces : List (List Char)) (number : Nat)
    {l : Line} (hl : isSkipped l = false) (hends : ¬Continues escape l) :
    step escape (.joining start pieces) number l =
      finishPieces start (pieces ++ [stripComment (trimEnd l)]) := by
  rw [Continues] at hends
  simp only [step, hl, takeLine, if_neg hends, Bool.false_eq_true, if_false]

/-- The first line of an instruction is taken as a further line of one that has no pieces yet. -/
theorem feed_between (escape : Char) (number : Nat) {l : Line} (hl : isSkipped l = false)
    (ls : List Line) :
    feed escape .between number (l :: ls) = feed escape (.joining number []) number (l :: ls) := by
  rw [feed_cons, feed_cons]
  simp only [step, hl, Bool.false_eq_true, if_false]

theorem feed_joining_skipped (escape : Char) (start : Nat) (pieces : List (List Char))
    {ls : List Line} (h : ∀ l ∈ ls, isSkipped l = true) (number : Nat) :
    feed escape (.joining start pieces) number ls = (.joining start pieces, []) :=
  feed_idle (fun l hl number => step_joining_skipped escape start pieces number (h l hl)) number

theorem feed_joining_more {escape : Char} (start : Nat) (pieces : List (List Char)) (number : Nat)
    {l : Line} (hl : isSkipped l = false) (hgoes : Continues escape l) {skipped : List Line}
    (hskipped : ∀ m ∈ skipped, isSkipped m = true) (ls : List Line) :
    feed escape (.joining start pieces) number (l :: (skipped ++ ls)) =
      feed escape (.joining start (pieces ++ [stripComment (trimEnd l).dropLast]))
        (number + 1 + skipped.length) ls := by
  rw [feed_cons_none (step_joining_continues start pieces number hl hgoes), feed_append,
    feed_joining_skipped escape start _ hskipped]
  rfl

section Heading

variable {escape : Char} {ls : List Line} {pieces : List (List Char)}

theorem Heading.begins (h : Heading escape ls pieces) :
    ∃ l more, ls = l :: more ∧ isSkipped l = false := by
  cases h with
  | last hl _ => exact ⟨_, _, rfl, hl⟩
  | more hl _ _ _ => exact ⟨_, _, rfl, hl⟩

/-- The last line of a heading leaves something of itself. -/
theorem Heading.joinPieces_ne_nil (h : Heading escape ls pieces) : joinPieces pieces ≠ [] := by
  have hpiece : ∃ p ∈ pieces, p ≠ [] := by
    induction h with
    | @last l hl _ =>
        refine ⟨_, List.mem_cons_self, fun hnil => ?_⟩
        rw [stripComment_eq_nil_iff, isSkipped_trimEnd, hl] at hnil
        exact Bool.false_ne_true hnil
    | more _ _ _ _ ih =>
        obtain ⟨p, hp, hne⟩ := ih
        exact ⟨p, List.mem_cons_of_mem _ hp, hne⟩
  obtain ⟨p, hp, hne⟩ := hpiece
  exact Dockerfile.joinPieces_ne_nil hp hne

theorem Heading.goOn_joining (h : Heading escape ls pieces) (start : Nat)
    (before : List (List Char)) (number : Nat) (rest : List Line) :
    feed escape (.joining start before) number (ls ++ rest) =
      goOn escape (finishPieces start (before ++ pieces)) (number + ls.length) rest := by
  induction h generalizing before number with
  | last hl hends =>
      rw [List.singleton_append, feed_cons, step_joining_ends start before number hl hends]
      rfl
  | @more l skipped ls pieces hl hgoes hskipped _ ih =>
      have hlength : number + (l :: (skipped ++ ls)).length =
          number + 1 + skipped.length + ls.length := by
        rw [List.length_cons, List.length_append]
        omega
      rw [List.cons_append, List.append_assoc,
        feed_joining_more start before number hl hgoes hskipped, ih, List.append_assoc, hlength]
      rfl

/-- A heading is read as what it says, and the bodies of its here-documents are expected. -/
theorem Heading.read (h : Heading escape ls pieces) (number : Nat) (rest : List Line) :
    feed escape .between number (ls ++ rest) =
      goOn escape (nextBody (header number (joinPieces pieces)) (announced pieces))
        (number + ls.length) rest := by
  obtain ⟨l, more, hls, hl⟩ := h.begins
  have hfinish : finishPieces number pieces =
      nextBody (header number (joinPieces pieces)) (announced pieces) := by
    simp only [finishPieces, List.isEmpty_iff, if_neg h.joinPieces_ne_nil]
    rfl
  have hstart : feed escape .between number (ls ++ rest) =
      feed escape (.joining number []) number (ls ++ rest) := by
    rw [hls]
    exact feed_between escape number hl (more ++ rest)
  rw [hstart, h.goOn_joining, List.nil_append, hfinish]

end Heading

/-- The bodies of the first words are read, and those of the others are expected.  What the
instruction becomes does not depend on the place. -/
theorem Closes.read {words : List (List Char)} {bodies : List Line} (h : Closes words bodies)
    (s : Statement) :
    ∃ s', s'.line = s.line ∧ ∀ escape more number rest,
      goOn escape (nextBody s (words ++ more)) number (bodies ++ rest) =
        goOn escape (nextBody s' more) (number + bodies.length) rest := by
  induction h generalizing s with
  | nil => exact ⟨s, rfl, fun _ _ _ _ => rfl⟩
  | @cons word words body ls close hbody hclose _ ih =>
      obtain ⟨s', hline, hread⟩ := ih (s.withBody body word)
      refine ⟨s', hline, fun escape more number rest => ?_⟩
      have hlength : number + (body ++ close :: ls).length =
          number + body.length + 1 + ls.length := by
        rw [List.length_append, List.length_cons]
        omega
      rw [List.cons_append, List.append_assoc, List.cons_append, goOn_body escape s _ hbody hclose,
        hread, hlength]

theorem Group.read {escape : Char} {g : List Line} (h : Group escape g) (number : Nat) :
    ∃ s, s.line = number ∧ feed escape .between number g = (.between, [s]) := by
  cases h with
  | @mk heading bodies pieces hheading hcloses =>
      obtain ⟨s, hline, hread⟩ := hcloses.read (header number (joinPieces pieces))
      refine ⟨s, hline, ?_⟩
      have hbodies := hread escape [] (number + heading.length) []
      rw [List.append_nil, List.append_nil] at hbodies
      rw [hheading.read, hbodies]
      rfl

theorem Complete.read {escape : Char} {ls : List Line} (h : Complete escape ls) (number : Nat) :
    ∃ out, feed escape .between number ls = (.between, out) := by
  induction h generalizing number with
  | nil => exact ⟨[], rfl⟩
  | skip hl _ ih =>
      rw [feed_cons_none (step_between_skipped escape number hl)]
      exact ih (number + 1)
  | @group g ls hg _ ih =>
      obtain ⟨s, -, hread⟩ := hg.read number
      obtain ⟨out, hout⟩ := ih (number + g.length)
      refine ⟨s :: out, ?_⟩
      rw [feed_append, hread]
      simp only [hout]
      rfl

theorem Dangling.begins {escape : Char} {ls : List Line} (h : Dangling escape ls) :
    ∃ l more, ls = l :: more ∧ isSkipped l = false ∧ Continues escape l := by
  cases h with
  | last hl hgoes _ => exact ⟨_, _, rfl, hl, hgoes⟩
  | more hl hgoes _ _ => exact ⟨_, _, rfl, hl, hgoes⟩

theorem Dangling.read {escape : Char} {ls : List Line} (h : Dangling escape ls) (number : Nat) :
    ∃ pieces, feed escape .between number ls = (.joining number pieces, []) := by
  have hjoining : ∀ before n, ∃ pieces,
      feed escape (.joining number before) n ls = (.joining number pieces, []) := by
    induction h with
    | last hl hgoes hskipped =>
        intro before n
        rw [feed_cons_none (step_joining_continues number before n hl hgoes)]
        exact ⟨_, feed_joining_skipped escape number _ hskipped (n + 1)⟩
    | more hl hgoes hskipped _ ih =>
        intro before n
        rw [feed_joining_more number before n hl hgoes hskipped]
        exact ih _ _
  obtain ⟨l, more, rfl, hl, -⟩ := h.begins
  rw [feed_between escape number hl]
  exact hjoining [] number

theorem Unterminated.read {escape : Char} {word : List Char} {ls : List Line}
    (h : Unterminated escape word ls) (number : Nat) :
    ∃ s words body, s.line = number ∧
      feed escape .between number ls = (.inBody s word words body, []) := by
  cases h with
  | @mk heading bodies rest pieces before after hheading hwords hcloses hopen =>
      obtain ⟨s, hline, hread⟩ := hcloses.read (header number (joinPieces pieces))
      refine ⟨s, after, rest, hline, ?_⟩
      rw [hheading.read, hwords, hread, nextBody, goOn, feed_body escape s after hopen]
      rfl

/-! ## There is nothing else -/

theorem heading_or_dangling (escape : Char) {l : Line} (hl : isSkipped l = false) (ls : List Line) :
    Dangling escape (l :: ls) ∨
      ∃ heading pieces rest, l :: ls = heading ++ rest ∧ Heading escape heading pieces := by
  by_cases hgoes : Continues escape l
  · -- what counts is the next line that is not skipped
    have hsplit : ls.takeWhile isSkipped ++ ls.dropWhile isSkipped = ls :=
      List.takeWhile_append_dropWhile
    have hskipped : ∀ m ∈ ls.takeWhile isSkipped, isSkipped m = true :=
      fun m hm => List.mem_takeWhile_imp hm
    cases hnext : ls.dropWhile isSkipped with
    | nil =>
        rw [hnext, List.append_nil] at hsplit
        rw [← hsplit]
        exact .inl (.last hl hgoes hskipped)
    | cons m rest =>
        have hm : isSkipped m = false := by
          have hhead := List.head?_dropWhile_not isSkipped ls
          rw [hnext] at hhead
          simpa using hhead
        have hshorter : rest.length < ls.length := by
          have hle := (List.dropWhile_suffix (l := ls) isSkipped).length_le
          rw [hnext, List.length_cons] at hle
          omega
        rw [hnext] at hsplit
        rw [← hsplit]
        rcases heading_or_dangling escape hm rest with
          hdangling | ⟨heading, pieces, rest', hls, hheading⟩
        · exact .inl (.more hl hgoes hskipped hdangling)
        · refine .inr ⟨_, _, rest', ?_, .more hl hgoes hskipped hheading⟩
          rw [hls, List.cons_append, List.append_assoc]
  · exact .inr ⟨[l], _, ls, rfl, .last hl hgoes⟩
termination_by ls.length
decreasing_by exact hshorter

theorem closes_or_open (words : List (List Char)) (ls : List Line) :
    (∃ bodies rest, ls = bodies ++ rest ∧ Closes words bodies) ∨
      ∃ before word after bodies rest, words = before ++ word :: after ∧ ls = bodies ++ rest ∧
        Closes before bodies ∧ ∀ l ∈ rest, trim l ≠ word := by
  induction words generalizing ls with
  | nil => exact .inl ⟨[], ls, rfl, .nil⟩
  | cons word words ih =>
      cases hfind : ls.find? (fun l => trim l = word) with
      | none =>
          refine .inr ⟨[], word, words, [], ls, rfl, rfl, .nil, ?_⟩
          simpa using List.find?_eq_none.mp hfind
      | some close =>
          obtain ⟨hclose, body, rest, rfl, hbody⟩ := List.find?_eq_some_iff_append.mp hfind
          have hclose : trim close = word := by simpa using hclose
          have hbody : ∀ l ∈ body, trim l ≠ word := by simpa using hbody
          rcases ih rest with ⟨bodies, rest', rfl, hcloses⟩ |
            ⟨before, word', after, bodies, rest', rfl, rfl, hcloses, hopen⟩
          · refine .inl ⟨body ++ close :: bodies, rest', ?_, .cons hbody hclose hcloses⟩
            rw [List.append_assoc, List.cons_append]
          · refine .inr ⟨word :: before, word', after, body ++ close :: bodies, rest', rfl, ?_,
              .cons hbody hclose hcloses, hopen⟩
            rw [List.append_assoc, List.cons_append]

/-- A line that is not skipped starts a group, and the group is whole or breaks off. -/
theorem group_or_unfinished (escape : Char) {l : Line} (hl : isSkipped l = false) (ls : List Line) :
    (∃ g rest, l :: ls = g ++ rest ∧ Group escape g ∧ rest.length ≤ ls.length) ∨
      Dangling escape (l :: ls) ∨ ∃ word, Unterminated escape word (l :: ls) := by
  rcases heading_or_dangling escape hl ls with hdangling | ⟨heading, pieces, more, hls, hheading⟩
  · exact .inr (.inl hdangling)
  · rcases closes_or_open (announced pieces) more with ⟨bodies, rest, rfl, hcloses⟩ |
      ⟨before, word, after, bodies, rest, hwords, rfl, hcloses, hopen⟩
    · refine .inl ⟨heading ++ bodies, rest, ?_, .mk hheading hcloses, ?_⟩
      · rw [hls, List.append_assoc]
      have hlength := congrArg List.length hls
      obtain ⟨l', more', rfl, -⟩ := hheading.begins
      simp only [List.length_append, List.length_cons] at hlength
      omega
    · rw [hls]
      exact .inr (.inr ⟨word, .mk hheading hwords hcloses hopen⟩)

/-- Lines are complete groups, or complete groups and one that breaks off. -/
theorem complete_or_unfinished (escape : Char) (ls : List Line) :
    Complete escape ls ∨
      ∃ done group, ls = done ++ group ∧ Complete escape done ∧
        (Dangling escape group ∨ ∃ word, Unterminated escape word group) := by
  induction hn : ls.length using Nat.strong_induction_on generalizing ls with
  | _ n ih =>
      subst hn
      cases ls with
      | nil => exact .inl .nil
      | cons l ls =>
          cases hl : isSkipped l with
          | true =>
              rcases ih ls.length (Nat.lt_succ_self _) ls rfl with
                hcomplete | ⟨done, group, rfl, hdone, hgroup⟩
              · exact .inl (.skip hl hcomplete)
              · exact .inr ⟨l :: done, group, rfl, .skip hl hdone, hgroup⟩
          | false =>
              rcases group_or_unfinished escape hl ls with ⟨g, rest, hls, hg, hlength⟩ | hbroken
              · rw [hls]
                rcases ih rest.length (Nat.lt_succ_of_le hlength) rest rfl with
                  hcomplete | ⟨done, group, rfl, hdone, hgroup⟩
                · exact .inl (.group hg hcomplete)
                · refine .inr ⟨g ++ done, group, ?_, .group hg hdone, hgroup⟩
                  rw [List.append_assoc]
              · exact .inr ⟨[], l :: ls, rfl, .nil, hbroken⟩

/-! ## Files that are refused -/

/-- `BreaksOff escape n group e`: the group, which starts on line `n`, breaks off as `e` says. -/
inductive BreaksOff (escape : Char) (n : Nat) (group : List Line) : Error → Prop
  | dangling : Dangling escape group → BreaksOff escape n group (.danglingContinuation n)
  | unterminated {word : List Char} : Unterminated escape word group →
      BreaksOff escape n group (.unterminatedHeredoc (String.ofList word) n)

theorem BreaksOff.line_eq {escape : Char} {n : Nat} {group : List Line} {e : Error}
    (h : BreaksOff escape n group e) : e.line = n := by
  cases h <;> rfl

theorem BreaksOff.ne_nil {escape : Char} {n : Nat} {group : List Line} {e : Error}
    (h : BreaksOff escape n group e) : group ≠ [] := by
  cases h with
  | dangling hdangling =>
      obtain ⟨l, more, rfl, -⟩ := hdangling.begins
      exact List.cons_ne_nil l more
  | unterminated hopen =>
      obtain ⟨hheading, -, -, -⟩ := hopen
      obtain ⟨l, more, rfl, -⟩ := hheading.begins
      exact List.cons_ne_nil l _

theorem BreaksOff.read {escape : Char} {n : Nat} {group : List Line} {e : Error}
    (h : BreaksOff escape n group e) : (feed escape .between n group).1.error? = some e := by
  cases h with
  | dangling hdangling =>
      obtain ⟨pieces, hread⟩ := hdangling.read n
      rw [hread]
      rfl
  | unterminated hopen =>
      obtain ⟨s, words, body, rfl, hread⟩ := hopen.read n
      rw [hread]
      rfl

section Parse

variable {text : String}

theorem exists_parse_of_complete
    (h : Complete (escapeChar (Text.lines text.toList)) (Text.lines text.toList)) :
    ∃ d, parse text = .ok d := by
  obtain ⟨out, hread⟩ := h.read 1
  exact ⟨_, parse_eq_ok.mpr ⟨out, hread, rfl⟩⟩

theorem parse_of_breaksOff {done group : List Line} {e : Error}
    (hlines : Text.lines text.toList = done ++ group)
    (hdone : Complete (escapeChar (Text.lines text.toList)) done)
    (hgroup : BreaksOff (escapeChar (Text.lines text.toList)) (done.length + 1) group e) :
    parse text = .error e := by
  obtain ⟨out, hread⟩ := hdone.read 1
  rw [parse_eq_error, readText]
  generalize escapeChar (Text.lines text.toList) = escape at *
  rw [hlines, feed_append, hread, Nat.add_comm]
  exact hgroup.read

theorem complete_or_breaksOff (escape : Char) (ls : List Line) :
    Complete escape ls ∨
      ∃ done group e, ls = done ++ group ∧ Complete escape done ∧
        BreaksOff escape (done.length + 1) group e := by
  rcases complete_or_unfinished escape ls with hcomplete |
    ⟨done, group, hls, hdone, hdangling | ⟨word, hopen⟩⟩
  · exact .inl hcomplete
  · exact .inr ⟨done, group, _, hls, hdone, .dangling hdangling⟩
  · exact .inr ⟨done, group, _, hls, hdone, .unterminated hopen⟩

end Parse

/-! ## Files without escapes and markers -/

theorem isPrefix_of_markerWord? {s word : List Char} (h : markerWord? s = some word) :
    ['<', '<'] <+: s := by
  unfold markerWord? at h
  split at h
  · exact ⟨_, rfl⟩
  · exact absurd h (by simp)

theorem isInfix_of_mem_heredocWordsFrom {quotes : Quotes} {previous : Char} {s word : List Char}
    (h : word ∈ heredocWordsFrom quotes previous s) : ['<', '<'] <:+: s := by
  induction s generalizing quotes previous with
  | nil => exact absurd h List.not_mem_nil
  | cons c s ih =>
      rw [heredocWordsFrom] at h
      split at h
      · split at h
        · rename_i hmarker
          exact (isPrefix_of_markerWord? hmarker).isInfix
        · exact List.infix_cons (ih h)
      · exact List.infix_cons (ih h)

/-- A heading of one line announces only what stands on the line. -/
theorem isInfix_of_mem_announced {l : Line} {word : List Char} (hl : isSkipped l = false)
    (h : word ∈ announced [stripComment (trimEnd l)]) : ['<', '<'] <:+: l := by
  have hne : stripComment (trimEnd l) ≠ [] := by
    rw [Ne, stripComment_eq_nil_iff, isSkipped_trimEnd, hl]
    exact Bool.false_ne_true
  rw [announced, joinPieces_singleton hne] at h
  have harguments : (header 0 (stripComment (trimEnd l))).arguments <:+: stripComment (trimEnd l) :=
    (Text.trim_isInfix _).trans (List.drop_suffix _ _).isInfix
  have hline : stripComment (trimEnd l) <:+: l :=
    (stripComment_isInfix _).trans (Text.trimEnd_isPrefix l).isInfix
  exact (isInfix_of_mem_heredocWordsFrom h).trans (harguments.trans hline)

theorem complete_of_no_marker {escape : Char} {ls : List Line}
    (hends : ∀ l ∈ ls, ¬Continues escape l) (hmarker : ∀ l ∈ ls, ¬['<', '<'] <:+: l) :
    Complete escape ls := by
  rcases complete_or_unfinished escape ls with hcomplete |
    ⟨done, group, rfl, -, hdangling | ⟨word, hopen⟩⟩
  · exact hcomplete
  · obtain ⟨l, more, rfl, -, hgoes⟩ := hdangling.begins
    exact absurd hgoes (hends l (by simp))
  · obtain ⟨hheading, hwords, -, -⟩ := hopen
    cases hheading with
    | @last l hl _ =>
        have hword : word ∈ announced [stripComment (trimEnd l)] := by
          rw [hwords]
          exact List.mem_append_right _ List.mem_cons_self
        exact absurd (isInfix_of_mem_announced hl hword) (hmarker l (by simp))
    | @more l _ _ _ _ hgoes _ _ => exact absurd hgoes (hends l (by simp))

/-- **When a file is refused, and on which line.**  Behind complete groups there is one that breaks
off, and the error bears the number of its first line, which is a line of the file.  So a file in
which no line goes on and no marker of a here-document can stand is not refused. -/
theorem parse_eq_error_iff (text : String) :
    let lines := Text.lines text.toList
    let escape := escapeChar lines
    (∀ e, parse text = .error e ↔
      ∃ done group, lines = done ++ group ∧ Complete escape done ∧
        BreaksOff escape (done.length + 1) group e) ∧
    (∀ e, parse text = .error e → 1 ≤ e.line ∧ e.line ≤ lines.length) ∧
    ((∀ l ∈ lines, ¬Continues escape l) → ¬['<', '<'] <:+: text.toList →
      ∃ d, parse text = .ok d) := by
  intro lines escape
  have hiff : ∀ e, parse text = .error e ↔
      ∃ done group, lines = done ++ group ∧ Complete escape done ∧
        BreaksOff escape (done.length + 1) group e := by
    intro e
    constructor
    · intro h
      rcases complete_or_breaksOff escape lines with hcomplete |
        ⟨done, group, e', hlines, hdone, hgroup⟩
      · obtain ⟨d, hd⟩ := exists_parse_of_complete hcomplete
        rw [hd] at h
        exact absurd h (by simp)
      · rw [parse_of_breaksOff hlines hdone hgroup, Except.error.injEq] at h
        exact ⟨done, group, hlines, hdone, h ▸ hgroup⟩
    · rintro ⟨done, group, hlines, hdone, hgroup⟩
      exact parse_of_breaksOff hlines hdone hgroup
  refine ⟨hiff, ?_, ?_⟩
  · intro e h
    obtain ⟨done, group, hlines, -, hgroup⟩ := (hiff e).mp h
    have hpos := List.length_pos_iff.mpr hgroup.ne_nil
    rw [hgroup.line_eq, hlines, List.length_append]
    omega
  · intro hends hmarker
    refine exists_parse_of_complete (complete_of_no_marker hends fun l hl hin => ?_)
    exact hmarker (hin.trans (Text.isInfix_of_mem_lines hl))

/-- The line with the marker `<<F` that goes on lies in the body of a here-document and does not
count; the heading below it goes on at the end of the file. -/
theorem parse_eq_error_iff_below_heredoc :
    ∃ done group,
      Text.lines "FROM a\nRUN <<E\nX <<F \\\nE\nRUN b \\\n# c\n".toList = done ++ group ∧
      Complete '\\' done ∧ BreaksOff '\\' (done.length + 1) group (.danglingContinuation 5) := by
  have h : parse "FROM a\nRUN <<E\nX <<F \\\nE\nRUN b \\\n# c\n" =
      .error (.danglingContinuation 5) := by rfl
  have hescape : escapeChar (Text.lines
      "FROM a\nRUN <<E\nX <<F \\\nE\nRUN b \\\n# c\n".toList) = '\\' := by decide
  have hrefused := ((parse_eq_error_iff _).1 _).mp h
  rwa [hescape] at hrefused

end ContainerAudit.Dockerfile
