import ContainerAudit.Proofs.Dockerfile.Continuation
import ContainerAudit.Proofs.Dockerfile.Span

/-!
# Bodies of here-documents

What stands in the body of a here-document is not read.  It goes into the arguments of its
instruction as it is, and nothing else in the file depends on it but the numbers of the lines below
(`parse_opaque_bodies`).

An instruction of a file that can be read has a group of lines of its own (`exists_group_of_mem`).
Below its heading the group closes one here-document after the other, and any others that are closed
by the same words can take their place: reading passes from the heading to the line behind the last
of them with the same instruction open, whatever it has met in between (`goOn_heredocs`).
-/

namespace ContainerAudit.Dockerfile

open ContainerAudit.Text (trim trimEnd isBlank joinWith)

/-- A here-document as it stands in a file: the lines of its body, and the line that closes it. -/
structure Heredoc where
  body : List Line
  close : Line

namespace Heredoc

def lines (doc : Heredoc) : List Line :=
  doc.body ++ [doc.close]

/-- The here-document of a word: the word closes it, and up to blanks no line of the body is the
word. -/
structure Ends (word : List Char) (doc : Heredoc) : Prop where
  body : ∀ l ∈ doc.body, trim l ≠ word
  close : trim doc.close = word

/-- What here-documents leave in the arguments of their instruction: the lines of each body as they
are, and the word behind them. -/
def kept (words : List (List Char)) (docs : List Heredoc) : List Line :=
  (List.zipWith (fun word doc => doc.body ++ [word]) words docs).flatten

theorem kept_cons (word : List Char) (words : List (List Char)) (doc : Heredoc)
    (docs : List Heredoc) :
    kept (word :: words) (doc :: docs) = doc.body ++ word :: kept words docs := by
  simp [kept]

end Heredoc

open Heredoc (Ends kept)

/-! ## Lines behind the arguments -/

/-- The instruction with lines below its arguments. -/
def Statement.extend (s : Statement) (ls : List Line) : Statement :=
  { s with arguments := joinWith ['\n'] (s.arguments :: ls) }

theorem Statement.isFrom_extend (s : Statement) (ls : List Line) :
    (s.extend ls).isFrom = s.isFrom :=
  rfl

theorem Statement.extend_withBody (s : Statement) (body : List Line) (word : List Char)
    (ls : List Line) : (s.withBody body word).extend ls = s.extend (body ++ word :: ls) := by
  have hjoin : joinWith ['\n'] (joinWith ['\n'] (s.arguments :: (body ++ [word])) :: ls) =
      joinWith ['\n'] (s.arguments :: (body ++ [word]) ++ ls) :=
    Text.joinWith_cons_joinWith ['\n'] s.arguments (body ++ [word]) ls
  rw [List.cons_append, List.append_assoc, List.singleton_append] at hjoin
  simp only [Statement.extend, Statement.withBody, List.cons_append, hjoin]

/-- The here-documents of the words are read one after another, and what they leave stands in the
arguments of the instruction. -/
theorem goOn_heredocs {words : List (List Char)} {docs : List Heredoc}
    (h : List.Forall₂ Ends words docs) (escape : Char) (s : Statement) (number : Nat)
    (rest : List Line) :
    goOn escape (nextBody s words) number (docs.flatMap Heredoc.lines ++ rest) =
      goOn escape (.between, some (s.extend (kept words docs)))
        (number + (docs.flatMap Heredoc.lines).length) rest := by
  induction h generalizing s number with
  | nil => rfl
  | @cons word doc words docs hdoc _ ih =>
      have hlines : (doc :: docs).flatMap Heredoc.lines ++ rest =
          doc.body ++ doc.close :: (docs.flatMap Heredoc.lines ++ rest) := by
        simp [Heredoc.lines]
      have hlength : number + ((doc :: docs).flatMap Heredoc.lines).length =
          number + doc.body.length + 1 + (docs.flatMap Heredoc.lines).length := by
        simp only [List.flatMap_cons, Heredoc.lines, List.length_append, List.length_singleton]
        omega
      rw [hlines, goOn_body escape s words hdoc.body hdoc.close, ih, Statement.extend_withBody,
        Heredoc.kept_cons, hlength]

theorem Closes.exists_heredocs {words : List (List Char)} {ls : List Line} (h : Closes words ls) :
    ∃ docs, List.Forall₂ Ends words docs ∧ ls = docs.flatMap Heredoc.lines := by
  induction h with
  | nil => exact ⟨[], .nil, rfl⟩
  | @cons word words body ls close hbody hclose _ ih =>
      obtain ⟨docs, hdocs, rfl⟩ := ih
      refine ⟨⟨body, close⟩ :: docs, .cons ⟨hbody, hclose⟩ hdocs, ?_⟩
      simp [Heredoc.lines]

/-! ## Lines without a comment -/

theorem beforeComment_of_append {quotes : Quotes} {previous : Char} {l rest : Line}
    (h : beforeComment quotes previous (l ++ rest) = l ++ rest) :
    beforeComment quotes previous l = l := by
  induction l generalizing quotes previous with
  | nil => rfl
  | cons c l ih =>
      rw [List.cons_append, beforeComment] at h
      rw [beforeComment]
      split at h
      · exact absurd h (by simp)
      · next hc => rw [if_neg hc, ih (List.cons.inj h).2]

/-- Of a line without a comment only the blanks around it are dropped. -/
theorem stripComment_trimEnd {l : Line} (h : beforeComment none ' ' l = l) :
    stripComment (trimEnd l) = trim l := by
  obtain ⟨blanks, hl, -⟩ := Text.exists_trimEnd_append l
  have hwhole : beforeComment none ' ' (trimEnd l ++ blanks) = trimEnd l ++ blanks := by
    rwa [← hl]
  have hsame : beforeComment none ' ' (trimEnd l) = trimEnd l := beforeComment_of_append hwhole
  rw [stripComment, hsame, Text.trim_trimEnd]

/-! ## The group of an instruction -/

theorem complete_of_parse {text : String} {d : Document} (h : parse text = .ok d) :
    Complete (escapeChar (Text.lines text.toList)) (Text.lines text.toList) := by
  rcases complete_or_breaksOff (escapeChar (Text.lines text.toList)) (Text.lines text.toList) with
    hcomplete | ⟨done, group, e, hlines, hdone, hgroup⟩
  · exact hcomplete
  · rw [parse_of_breaksOff hlines hdone hgroup] at h
    exact absurd h (by simp)

/-- Each instruction has a group of lines, and bears the number of the first of them. -/
theorem Complete.exists_group {escape : Char} {ls : List Line} (h : Complete escape ls)
    {number : Nat} {s : Statement} (hs : s ∈ (feed escape .between number ls).2) :
    ∃ before g after, ls = before ++ (g ++ after) ∧ Complete escape before ∧ Group escape g ∧
      s.line = number + before.length := by
  induction h generalizing number with
  | nil => exact absurd hs List.not_mem_nil
  | @skip l ls hl _ ih =>
      rw [feed_cons_none (step_between_skipped escape number hl)] at hs
      obtain ⟨before, g, after, rfl, hbefore, hg, hline⟩ := ih hs
      refine ⟨l :: before, g, after, rfl, .skip hl hbefore, hg, ?_⟩
      rw [hline, List.length_cons]
      omega
  | @group g ls hg _ ih =>
      obtain ⟨s', hline', hread⟩ := hg.read number
      rw [feed_append, hread] at hs
      rcases List.mem_cons.mp hs with rfl | hs
      · exact ⟨[], g, ls, rfl, .nil, hg, hline'⟩
      · obtain ⟨before, g', after, rfl, hbefore, hg', hline⟩ := ih hs
        refine ⟨g ++ before, g', after, ?_, .group hg hbefore, hg', ?_⟩
        · rw [List.append_assoc]
        · rw [hline, List.length_append]
          omega

/-- An instruction whose first line does not go on has that line for a heading. -/
theorem Group.of_ends {escape : Char} {l : Line} {ls : List Line} (h : Group escape (l :: ls))
    (hends : ¬Continues escape l) :
    Heading escape [l] [stripComment (trimEnd l)] ∧
      Closes (announced [stripComment (trimEnd l)]) ls := by
  generalize hg : l :: ls = g at h
  cases h with
  | @mk heading bodies pieces hheading hcloses =>
      cases hheading with
      | last hl hends' =>
          obtain ⟨rfl, rfl⟩ := List.cons.inj hg
          exact ⟨.last hl hends', hcloses⟩
      | more _ hgoes _ _ =>
          obtain ⟨rfl, -⟩ := List.cons.inj hg
          exact absurd hgoes hends

/-- The group of an instruction that is read, with the line on which it starts. -/
theorem exists_group_of_mem {text : String} {d : Document} (h : parse text = .ok d)
    {i : Instruction} (hi : i ∈ d.instructions) {l : Line}
    (hl : (Text.lines text.toList)[i.line - 1]? = some l) :
    ∃ before ls after, Text.lines text.toList = before ++ (l :: ls ++ after) ∧
      before.length + 1 = i.line ∧ Complete (escapeChar (Text.lines text.toList)) before ∧
      Group (escapeChar (Text.lines text.toList)) (l :: ls) := by
  have hread : i.statement ∈ (readText text).2 := by
    obtain ⟨out, hout, rfl⟩ := parse_eq_ok.mp h
    rw [hout, ← map_statement_stageFrom 0 out]
    exact List.mem_map_of_mem hi
  obtain ⟨before, g, after, hlines, hbefore, hg, hline⟩ := (complete_of_parse h).exists_group hread
  obtain ⟨l', ls, rfl⟩ : ∃ l' ls, g = l' :: ls := by
    cases hg with
    | mk hheading _ =>
        obtain ⟨l', more, rfl, -⟩ := hheading.begins
        exact ⟨l', _, rfl⟩
  have hnumber : i.line = 1 + before.length := hline
  obtain rfl : l' = l := by
    rw [hlines, hnumber, Nat.add_sub_cancel_left, List.getElem?_append_right (Nat.le_refl _),
      Nat.sub_self] at hl
    simpa using hl
  exact ⟨before, ls, after, hlines, by omega, hbefore, hg⟩

/-! ## Files that differ in bodies -/

/-- What the lines behind the here-documents give is moved by the number of their lines. -/
theorem readText_heredocs {text : String} {escape : Char} {before after : List Line} {l : Line}
    {piece : List Char} {done : List Statement} {docs : List Heredoc}
    (hescape : escapeChar (Text.lines text.toList) = escape)
    (hlines : Text.lines text.toList = before ++ l :: (docs.flatMap Heredoc.lines ++ after))
    (hbefore : feed escape .between 1 before = (.between, done))
    (hheading : Heading escape [l] [piece])
    (hdocs : List.Forall₂ Ends (announced [piece]) docs) :
    let head := header (before.length + 1) (joinPieces [piece])
    let behind := feed escape .between (before.length + 2) after
    let added := (docs.flatMap Heredoc.lines).length
    readText text = (behind.1.shift added,
      done ++ head.extend (kept (announced [piece]) docs) :: behind.2.map (·.shift added)) := by
  intro head behind added
  have hbehind := feed_shift escape added after .between (before.length + 2)
  rw [State.shift] at hbehind
  have hgroup : goOn escape (nextBody head (announced [piece])) (before.length + 2)
      (docs.flatMap Heredoc.lines ++ after) = (behind.1.shift added,
        head.extend (kept (announced [piece]) docs) :: behind.2.map (·.shift added)) := by
    rw [goOn_heredocs hdocs, goOn, hbehind]
    rfl
  exact readText_heading hescape hlines hbefore hheading hgroup

/-- The lines around the here-documents of an instruction are read alike, whatever stands between
them. -/
theorem readText_opaque_bodies {text : String} {d : Document} (h : parse text = .ok d)
    {i : Instruction} (hi : i ∈ d.instructions) {l : Line}
    (hl : (Text.lines text.toList)[i.line - 1]? = some l)
    (hends : ¬Continues (escapeChar (Text.lines text.toList)) l)
    (hcomment : beforeComment none ' ' l = l) :
    let head := header i.line (trim l)
    let words := heredocWords head.arguments
    ∃ (before after : List Line) (done later : List Statement) (state : State),
      before.length + 1 = i.line ∧
      (∃ docs, List.Forall₂ Ends words docs ∧
        Text.lines text.toList = before ++ l :: (docs.flatMap Heredoc.lines ++ after)) ∧
      ∀ docs, List.Forall₂ Ends words docs → ∀ text' : String,
        Text.lines text'.toList = before ++ l :: (docs.flatMap Heredoc.lines ++ after) →
        readText text' = (state.shift (docs.flatMap Heredoc.lines).length,
          done ++ head.extend (kept words docs) ::
            later.map (·.shift (docs.flatMap Heredoc.lines).length)) := by
  intro head words
  obtain ⟨before, bodies, after, hlines, hnumber, hbefore, hgroup⟩ := exists_group_of_mem h hi hl
  obtain ⟨hheading, hcloses⟩ := hgroup.of_ends hends
  obtain ⟨docs₀, hdocs₀, rfl⟩ := hcloses.exists_heredocs
  obtain ⟨done, hdone⟩ := hbefore.read 1
  have hpiece : joinPieces [stripComment (trimEnd l)] = trim l := by
    rw [joinPieces_singleton, stripComment_trimEnd hcomment]
    intro hnil
    exact hheading.joinPieces_ne_nil (by rw [hnil]; rfl)
  have hwords : announced [stripComment (trimEnd l)] = words := by
    rw [announced, hpiece]
    rfl
  let behind := feed (escapeChar (Text.lines text.toList)) .between (before.length + 2) after
  refine ⟨before, after, done, behind.2, behind.1, hnumber,
    ⟨docs₀, hwords ▸ hdocs₀, by rw [hlines, List.cons_append]⟩, ?_⟩
  intro docs hdocs text' hlines'
  -- the line of the instruction ends the head of both files
  have hescape : escapeChar (Text.lines text'.toList) = escapeChar (Text.lines text.toList) := by
    rw [hlines, hlines']
    exact (hheading.escapeChar_eq before _).trans (hheading.escapeChar_eq before _).symm
  rw [← hwords] at hdocs ⊢
  have hread := readText_heredocs hescape hlines' hdone hheading hdocs
  rwa [hpiece, hnumber] at hread

/-- **Bodies of here-documents are opaque.**  An instruction stands on one line without a comment
and announces here-documents.  Whatever their bodies are, as long as they are closed by the same
words, the file is read as the same instructions: the lines of the bodies stand in the arguments of
the one that announces them, and those below it move by the lines that the here-documents take
up. -/
theorem parse_opaque_bodies {text : String} {d : Document} (h : parse text = .ok d)
    {i : Instruction} (hi : i ∈ d.instructions) {l : Line}
    (hl : (Text.lines text.toList)[i.line - 1]? = some l)
    (hends : ¬Continues (escapeChar (Text.lines text.toList)) l)
    (hcomment : beforeComment none ' ' l = l) :
    let head := header i.line (trim l)
    let words := heredocWords head.arguments
    ∃ (before after : List Line) (above below : List Instruction), before.length + 1 = i.line ∧
      (∃ docs, List.Forall₂ Ends words docs ∧
        Text.lines text.toList = before ++ l :: (docs.flatMap Heredoc.lines ++ after)) ∧
      ∀ docs, List.Forall₂ Ends words docs → ∀ text' : String,
        Text.lines text'.toList = before ++ l :: (docs.flatMap Heredoc.lines ++ after) →
        parse text' = .ok (.ofInstructions (above ++
          { i with arguments :=
              String.ofList (joinWith ['\n'] (head.arguments :: kept words docs)) } ::
          below.map (·.shift (docs.flatMap Heredoc.lines).length))) := by
  intro head words
  obtain ⟨before, after, done, later, state, hnumber, ⟨docs₀, hdocs₀, hlines₀⟩, hread⟩ :=
    readText_opaque_bodies h hi hl hends hcomment
  obtain ⟨out, hout, hd⟩ := parse_eq_ok.mp h
  obtain ⟨hstate, rfl⟩ := Prod.mk.inj ((hread docs₀ hdocs₀ text hlines₀).symm.trans hout)
  -- the file has been read to its end, so nothing is left open behind the here-documents
  obtain rfl : state = .between := by
    cases state with
    | between => rfl
    | joining start pieces => exact absurd hstate (by simp [State.shift])
    | inBody s word words body => exact absurd hstate (by simp [State.shift])
  let stage := done.countP (·.isFrom) + head.isFrom.toNat
  have hinstructions : ∀ docs, stageFrom 0 (done ++ head.extend (kept words docs) ::
        later.map (·.shift (docs.flatMap Heredoc.lines).length)) =
      stageFrom 0 done ++ ⟨String.ofList head.keyword,
          String.ofList (joinWith ['\n'] (head.arguments :: kept words docs)), i.line, stage - 1⟩ ::
        (stageFrom stage later).map (·.shift (docs.flatMap Heredoc.lines).length) := by
    intro docs
    rw [stageFrom_append, stageFrom_cons, stageFrom_shift, Nat.zero_add, Statement.isFrom_extend]
    exact rfl
  have hsame : i = ⟨String.ofList head.keyword,
      String.ofList (joinWith ['\n'] (head.arguments :: kept words docs₀)), i.line, stage - 1⟩ := by
    refine eq_of_line_eq h hi ?_ rfl
    rw [hd, Document.ofInstructions, hinstructions]
    exact List.mem_append_right _ List.mem_cons_self
  have hkeyword : i.keyword = String.ofList head.keyword := congrArg Instruction.keyword hsame
  have hstage : i.stage = stage - 1 := congrArg Instruction.stage hsame
  refine ⟨before, after, stageFrom 0 done, stageFrom stage later, hnumber,
    ⟨docs₀, hdocs₀, hlines₀⟩, ?_⟩
  intro docs hdocs text' hlines'
  refine parse_eq_ok.mpr ⟨_, hread docs hdocs text' hlines', ?_⟩
  rw [hinstructions, hkeyword, hstage]

/-- One file has empty bodies.  In the other they hold an instruction, a comment that goes on, a
quote that is not closed, markers, and each the word of the other. -/
theorem parse_opaque_bodies_of_instructions :
    ∃ above below : List Instruction,
      parse "FROM a\nRUN cat <<E <<-'F' > x\nE\nF\nUSER u\n" =
        .ok (.ofInstructions
          (above ++ ⟨"RUN", "cat <<E <<-'F' > x\nE\nF", 2, 0⟩ :: below.map (·.shift 2))) ∧
      parse ("FROM a\nRUN cat <<E <<-'F' > x\nFROM b\n# \\\nF\nRUN \"<<E\n E\n" ++
          "E\n\nF\t\nUSER u\n") =
        .ok (.ofInstructions (above ++
          ⟨"RUN", "cat <<E <<-'F' > x\nFROM b\n# \\\nF\nRUN \"<<E\nE\nE\n\nF", 2, 0⟩ ::
          below.map (·.shift 8))) := by
  have h : parse "FROM a\nRUN cat <<E <<-'F' > x\nE\nF\nUSER u\n" =
      .ok ⟨[⟨"FROM", "a", 1, 0⟩, ⟨"RUN", "cat <<E <<-'F' > x\nE\nF", 2, 0⟩,
        ⟨"USER", "u", 5, 0⟩], 1⟩ := by decide +kernel
  obtain ⟨before, after, above, below, hnumber, ⟨docs, hdocs, hlines⟩, hparse⟩ :=
    parse_opaque_bodies h (i := ⟨"RUN", "cat <<E <<-'F' > x\nE\nF", 2, 0⟩) (by decide)
      (l := "RUN cat <<E <<-'F' > x".toList) (by decide) (by decide) (by decide)
  have hwords : heredocWords (header 2 (trim "RUN cat <<E <<-'F' > x".toList)).arguments =
      ["E".toList, "F".toList] := by decide
  rw [hwords] at hdocs hparse
  -- the first line that is a word closes its here-document
  have hfirst : ∀ {word : List Char} {doc : Heredoc} {ls rest : List Line}, Ends word doc →
      trim word = word → word :: ls = doc.lines ++ rest → ls = rest := by
    rintro word ⟨body, close⟩ ls rest ⟨hbody, -⟩ hword heq
    cases body with
    | nil => exact (List.cons.inj heq).2
    | cons m body =>
        obtain ⟨rfl, -⟩ := List.cons.inj heq
        exact absurd hword (hbody _ List.mem_cons_self)
  obtain ⟨first, rfl⟩ := List.length_eq_one_iff.mp (Nat.succ.inj hnumber)
  obtain ⟨rfl, hbodies⟩ : "FROM a".toList = first ∧ ["E".toList, "F".toList, "USER u".toList] =
      docs.flatMap Heredoc.lines ++ after := by
    obtain ⟨hfirst, hrest⟩ := List.cons.inj hlines
    exact ⟨hfirst, (List.cons.inj hrest).2⟩
  obtain rfl : ["USER u".toList] = after := by
    cases hdocs with
    | cons hdoc₁ hdocs =>
        cases hdocs with
        | cons hdoc₂ hdocs =>
            cases hdocs
            rw [List.flatMap_cons, List.append_assoc] at hbodies
            have hrest := hfirst hdoc₁ (by decide) hbodies
            rw [List.flatMap_cons, List.append_assoc] at hrest
            exact hfirst hdoc₂ (by decide) hrest
  refine ⟨above, below, ?_, ?_⟩
  · exact hparse [⟨[], "E".toList⟩, ⟨[], "F".toList⟩]
      (.cons ⟨by simp, by decide⟩ (.cons ⟨by simp, by decide⟩ .nil)) _ (by decide +kernel)
  · exact hparse
      [⟨["FROM b".toList, "# \\".toList, "F".toList, "RUN \"<<E".toList], " E".toList⟩,
        ⟨["E".toList, []], "F\t".toList⟩]
      (.cons ⟨by decide, by decide⟩ (.cons ⟨by decide, by decide⟩ .nil)) _ (by decide +kernel)

end ContainerAudit.Dockerfile
