import ContainerAudit.Proofs.Dockerfile.Displacement
import ContainerAudit.Proofs.Dockerfile.Group
import Mathlib.Data.List.Chain

/-!
# Continued lines

An instruction may be written on one line, or be cut into fragments that go on one in the other.  It
is read as the same instruction on the same line (`parse_layout`), and what comes below moves by the
lines that were added.

Each fragment is a line of a heading, and it gives to the instruction exactly itself: the blanks
around it are trimmed, and no comment is cut off, since no number sign stands where a comment could
start (`Layout.heading`).  Quotes do not matter for this.  They are followed over each line from its
start, so a quote that one fragment opens and another closes is seen differently in the two forms,
but quotes only ever keep a number sign from starting a comment.  So the two forms have the same
joined line, and with it the same here-documents.  Behind the heading only the numbers of lines
differ, and an instruction does not show on which lines its here-documents stand (`goOn_nextBody`).
-/

namespace ContainerAudit.Dockerfile

open ContainerAudit.Text (trim trimEnd isBlank joinWith)

/-! ## Fragments -/

/-- The second character does not start a comment behind the first. -/
def NoComment (c d : Char) : Prop :=
  isBlank c = true → d ≠ '#'

/-- A part of an instruction: there is something of it, without blanks around it, and no number sign
stands at its start or behind a blank. -/
structure Fragment (f : List Char) : Prop where
  ne_nil : f ≠ []
  trimmed : trim f = f
  noComment : List.IsChain NoComment (' ' :: f)

instance (c d : Char) : Decidable (NoComment c d) :=
  inferInstanceAs (Decidable (_ → _))

instance (f : List Char) : Decidable (Fragment f) :=
  decidable_of_iff (f ≠ [] ∧ trim f = f ∧ List.IsChain NoComment (' ' :: f))
    ⟨fun h => ⟨h.1, h.2.1, h.2.2⟩, fun h => ⟨h.ne_nil, h.trimmed, h.noComment⟩⟩

/-- `Layout escape fragments ls`: the fragments stand on a line each, indented at will.  Each line
but the last ends with blanks and the escape character, and lines that are skipped come behind
it. -/
inductive Layout (escape : Char) : List (List Char) → List Line → Prop
  | last {indent f : List Char} : (∀ c ∈ indent, isBlank c = true) →
      Layout escape [f] [indent ++ f]
  | more {indent f gap : List Char} {fragments : List (List Char)} {skipped ls : List Line} :
      (∀ c ∈ indent, isBlank c = true) → (∀ c ∈ gap, isBlank c = true) →
      (∀ l ∈ skipped, isSkipped l = true) → Layout escape fragments ls →
      Layout escape (f :: fragments) ((indent ++ f ++ gap ++ [escape]) :: (skipped ++ ls))

theorem noComment_of_blank (c : Char) {d : Char} (hd : isBlank d = true) : NoComment c d := by
  rintro - rfl
  exact absurd hd (by decide)

/-- Where no number sign stands behind a blank there is no comment, whatever the quotes. -/
theorem beforeComment_eq_self {l : Line} {previous : Char}
    (h : List.IsChain NoComment (previous :: l)) (quotes : Quotes) :
    beforeComment quotes previous l = l := by
  induction l generalizing previous quotes with
  | nil => rfl
  | cons c l ih =>
      obtain ⟨hc, hl⟩ := List.isChain_cons_cons.mp h
      rw [beforeComment, if_neg, ih hl]
      simp only [Bool.and_eq_true, decide_eq_true_eq]
      rintro ⟨⟨-, hsign⟩, hblank⟩
      exact hc hblank hsign

theorem isChain_of_blanks {s : List Char} (h : ∀ c ∈ s, isBlank c = true) :
    List.IsChain NoComment s :=
  (List.pairwise_of_forall_mem_list fun c _ _ hd => noComment_of_blank c (h _ hd)).isChain

section Fragment

variable {f indent gap : List Char} (hf : Fragment f) (hindent : ∀ c ∈ indent, isBlank c = true)

include hf

theorem Fragment.begins : ∃ c rest, f = c :: rest ∧ isBlank c = false ∧ c ≠ '#' := by
  obtain ⟨hne, htrimmed, hcomment⟩ := hf
  cases f with
  | nil => exact absurd rfl hne
  | cons c rest =>
      have hsolid := beginsSolid_trim (c :: rest)
      rw [htrimmed] at hsolid
      exact ⟨c, rest, rfl, hsolid c rfl, (List.isChain_cons_cons.mp hcomment).1 (by decide)⟩

theorem Fragment.isBlank_getLast {c : Char} (hc : f.getLast? = some c) : isBlank c = false := by
  rw [← hf.trimmed] at hc
  exact Text.getLast?_trim hc

include hindent

theorem Fragment.stripComment_eq (hgap : ∀ c ∈ gap, isBlank c = true) :
    stripComment (indent ++ f ++ gap) = f := by
  have hbehind : List.IsChain NoComment (f ++ gap) :=
    hf.noComment.tail.append (isChain_of_blanks hgap)
      fun c _ d hd => noComment_of_blank c (hgap d (List.mem_of_mem_head? hd))
  have hfront : List.IsChain NoComment (' ' :: indent) :=
    isChain_of_blanks (List.forall_mem_cons.mpr ⟨by decide, hindent⟩)
  have hline : List.IsChain NoComment (' ' :: (indent ++ f ++ gap)) := by
    rw [List.append_assoc]
    refine hfront.append hbehind fun c _ d hd => ?_
    obtain ⟨d', rest, rfl, -, hsign⟩ := hf.begins
    obtain rfl : d' = d := by simpa using hd
    exact fun _ => hsign
  rw [stripComment, beforeComment_eq_self hline]
  exact Text.trim_append_of_blanks hf.ne_nil hf.trimmed hindent hgap

theorem Fragment.not_isSkipped (rest : List Char) : isSkipped (indent ++ f ++ rest) = false := by
  obtain ⟨c, more, rfl, hblank, hsign⟩ := hf.begins
  have hnone : indent.find? (!isBlank ·) = none := by
    rw [List.find?_eq_none]
    intro d hd
    simp [hindent d hd]
  rw [isSkipped_eq, List.append_assoc, List.find?_append, hnone]
  simp [hblank, hsign]

end Fragment

/-! ## The heading that fragments make -/

theorem Layout.ne_nil {escape : Char} {fragments : List (List Char)} {ls : List Line}
    (h : Layout escape fragments ls) : fragments ≠ [] := by
  cases h <;> exact List.cons_ne_nil _ _

/-- Each fragment is what its line gives to the instruction. -/
theorem Layout.heading {escape : Char} (hescape : isBlank escape = false)
    {fragments : List (List Char)} {ls : List Line} (h : Layout escape fragments ls)
    (hfragments : ∀ f ∈ fragments, Fragment f)
    (hlast : ∀ f, fragments.getLast? = some f → f.getLast? ≠ some escape) :
    Heading escape ls fragments := by
  induction h with
  | @last indent f hindent =>
      have hf := hfragments f List.mem_cons_self
      have hend : (indent ++ f).getLast? = f.getLast? := List.getLast?_append_of_ne_nil _ hf.ne_nil
      have htrim : trimEnd (indent ++ f) = indent ++ f :=
        Text.trimEnd_eq_self fun c hc => hf.isBlank_getLast (hend ▸ hc)
      have hskip : isSkipped (indent ++ f) = false := by
        simpa using hf.not_isSkipped hindent []
      have hpiece : stripComment (trimEnd (indent ++ f)) = f := by
        simpa [htrim] using hf.stripComment_eq hindent (fun c hc => absurd hc List.not_mem_nil)
      have hends : ¬Continues escape (indent ++ f) := by
        rw [Continues, htrim, hend]
        exact hlast f rfl
      have hheading : Heading escape _ _ := .last hskip hends
      rwa [hpiece] at hheading
  | @more indent f gap fragments skipped ls hindent hgap hskipped hlayout ih =>
      obtain ⟨hf, hrest⟩ := List.forall_mem_cons.mp hfragments
      have htrim : trimEnd (indent ++ f ++ gap ++ [escape]) = indent ++ f ++ gap ++ [escape] :=
        Text.trimEnd_eq_self fun c hc => by
          rw [List.getLast?_concat] at hc
          exact Option.some.inj hc ▸ hescape
      have hskip : isSkipped (indent ++ f ++ gap ++ [escape]) = false := by
        rw [List.append_assoc (indent ++ f)]
        exact hf.not_isSkipped hindent _
      have hgoes : Continues escape (indent ++ f ++ gap ++ [escape]) := by
        rw [Continues, htrim, List.getLast?_concat]
      have hpiece : stripComment (trimEnd (indent ++ f ++ gap ++ [escape])).dropLast = f := by
        rw [htrim, List.dropLast_concat]
        exact hf.stripComment_eq hindent hgap
      have hmore := ih hrest fun g hg => hlast g <| by
        rwa [List.getLast?_cons_of_ne_nil hlayout.ne_nil]
      have hheading : Heading escape _ _ := .more hskip hgoes hskipped hmore
      rwa [hpiece] at hheading

theorem Fragment.join {f g : List Char} (hf : Fragment f) (hg : Fragment g) :
    Fragment (f ++ [' '] ++ g) where
  ne_nil := List.append_ne_nil_of_right_ne_nil _ hg.ne_nil
  trimmed := by
    refine Text.trim_eq_self (fun c hc => ?_) fun c hc => ?_
    · obtain ⟨d, rest, rfl, hblank, -⟩ := hf.begins
      obtain rfl : d = c := by simpa using hc
      exact hblank
    · rw [List.getLast?_append_of_ne_nil _ hg.ne_nil] at hc
      exact hg.isBlank_getLast hc
  noComment := by
    rw [List.append_assoc, List.singleton_append]
    refine hf.noComment.append hg.noComment fun c _ d hd => ?_
    obtain rfl : ' ' = d := by simpa using hd
    exact noComment_of_blank c (by decide)

/-- Fragments with single blanks between them are a fragment. -/
theorem fragment_joinWith {fragments : List (List Char)} (hne : fragments ≠ [])
    (h : ∀ f ∈ fragments, Fragment f) : Fragment (joinWith [' '] fragments) := by
  induction fragments with
  | nil => exact absurd rfl hne
  | cons f fragments ih =>
      obtain ⟨hf, hrest⟩ := List.forall_mem_cons.mp h
      cases fragments with
      | nil => exact hf
      | cons g fragments => exact hf.join (ih (List.cons_ne_nil g fragments) hrest)

theorem joinPieces_fragments {fragments : List (List Char)} (h : ∀ f ∈ fragments, Fragment f) :
    joinPieces fragments = joinWith [' '] fragments := by
  rw [joinPieces, List.filter_eq_self.mpr]
  intro f hf
  simpa using (h f hf).ne_nil

/-- The fragments on one line are a heading by themselves. -/
theorem heading_joinWith {escape : Char} (hescape : isBlank escape = false)
    {fragments : List (List Char)} (hne : fragments ≠ []) (h : ∀ f ∈ fragments, Fragment f)
    (hlast : ∀ f, fragments.getLast? = some f → f.getLast? ≠ some escape) :
    Heading escape [joinWith [' '] fragments] [joinWith [' '] fragments] := by
  have hjoined := fragment_joinWith hne h
  have hline : Layout escape [joinWith [' '] fragments] [[] ++ joinWith [' '] fragments] :=
    .last fun c hc => absurd hc List.not_mem_nil
  refine hline.heading hescape (List.forall_mem_singleton.mpr hjoined) ?_
  intro f hf
  obtain rfl : joinWith [' '] fragments = f := by simpa using hf
  have hsome := List.getLast?_eq_some_getLast hne
  rw [Text.getLast?_joinWith hsome (h _ (List.getLast_mem hne)).ne_nil]
  exact hlast _ hsome

/-! ## Behind the heading -/

/-- The bodies of here-documents are read alike wherever they stand: the instruction is completed by
some of the lines, or it stays open behind all of them. -/
theorem goOn_nextBody (escape : Char) (s : Statement) (words : List (List Char)) (ls : List Line) :
    (∃ s' bodies rest, s'.line = s.line ∧ ls = bodies ++ rest ∧
      ∀ number, goOn escape (nextBody s words) number ls =
        goOn escape (.between, some s') (number + bodies.length) rest) ∨
    ∃ state e, state.error? = some e ∧ e.line = s.line ∧
      ∀ number, goOn escape (nextBody s words) number ls = (state, []) := by
  rcases closes_or_open words ls with ⟨bodies, rest, rfl, hcloses⟩ |
    ⟨before, word, after, bodies, rest, rfl, rfl, hcloses, hopen⟩
  · obtain ⟨s', hline, hread⟩ := hcloses.read s
    refine .inl ⟨s', bodies, rest, hline, rfl, fun number => ?_⟩
    have hbodies := hread escape [] number rest
    rwa [List.append_nil] at hbodies
  · obtain ⟨s', hline, hread⟩ := hcloses.read s
    refine .inr ⟨.inBody s' word after rest, _, rfl, hline, fun number => ?_⟩
    rw [hread, nextBody, goOn, feed_body escape s' after hopen]
    rfl

/-- Behind a heading the number of the next line shows in what comes after the instruction. -/
theorem goOn_nextBody_shift (escape : Char) {s : Statement} (words : List (List Char))
    (ls : List Line) {number : Nat} (hnumber : s.line < number) (k : Nat) :
    (∃ s' state later, s'.line = s.line ∧ (∀ e, state.error? = some e → s.line < e.line) ∧
      goOn escape (nextBody s words) number ls = (state, s' :: later) ∧
      goOn escape (nextBody s words) (number + k) ls =
        (state.shift k, s' :: later.map (·.shift k))) ∨
    ∃ state e, state.error? = some e ∧ e.line = s.line ∧
      goOn escape (nextBody s words) number ls = (state, []) ∧
      goOn escape (nextBody s words) (number + k) ls = (state, []) := by
  rcases goOn_nextBody escape s words ls with ⟨s', bodies, rest, hline, rfl, hread⟩ |
    ⟨state, e, herror, hline, hread⟩
  · refine .inl ⟨s', (feed escape .between (number + bodies.length) rest).1,
      (feed escape .between (number + bodies.length) rest).2, hline, ?_, hread number, ?_⟩
    · -- the lines behind the instruction are numbered on from its own
      intro e he
      have hbehind := feed_shift escape (number + bodies.length) rest .between 0
      rw [State.shift, Nat.zero_add] at hbehind
      rw [hbehind, State.error?_shift, Option.map_eq_some_iff] at he
      obtain ⟨e, -, rfl⟩ := he
      rw [Error.line_shift]
      omega
    · have hbelow := feed_shift escape k rest .between (number + bodies.length)
      rw [State.shift] at hbelow
      rw [hread, goOn, Nat.add_right_comm, hbelow]
      rfl
  · exact .inr ⟨state, e, herror, hline, hread number, hread (number + k)⟩

/-! ## The two forms of a file -/

/-- A text is read up to a heading, and then from the joined line of the heading on. -/
theorem readText_heading {text : String} {escape : Char} {before heading after : List Line}
    {pieces : List (List Char)} {done out : List Statement} {state : State}
    (hescape : escapeChar (Text.lines text.toList) = escape)
    (hlines : Text.lines text.toList = before ++ (heading ++ after))
    (hbefore : feed escape .between 1 before = (.between, done))
    (hheading : Heading escape heading pieces)
    (hbehind : goOn escape (nextBody (header (before.length + 1) (joinPieces pieces))
      (announced pieces)) (before.length + 1 + heading.length) after = (state, out)) :
    readText text = (state, done ++ out) := by
  simp only [readText, hescape]
  rw [hlines, feed_append, hbefore]
  simp only [hheading.read, Nat.add_comm 1, hbehind]

/-- The lines of an instruction are behind the head of the file, so they do not set the escape
character. -/
theorem Heading.escapeChar_eq {escape : Char} {heading : List Line} {pieces : List (List Char)}
    (h : Heading escape heading pieces) (before after : List Line) :
    escapeChar (before ++ (heading ++ after)) = escapeChar before := by
  obtain ⟨l, more, rfl, hl⟩ := h.begins
  exact escapeChar_append_cons before hl (more ++ after)

section Layout

variable {text oneLine : String} {escape : Char} {before layout after : List Line}
  {fragments : List (List Char)}

theorem readText_layout (hescape : escapeChar (Text.lines text.toList) = escape)
    (hlines : Text.lines text.toList = before ++ (layout ++ after))
    (hjoined : Text.lines oneLine.toList = before ++ joinWith [' '] fragments :: after)
    (hbefore : Complete escape before) (hlayout : Layout escape fragments layout)
    (hfragments : ∀ f ∈ fragments, Fragment f)
    (hlast : ∀ f, fragments.getLast? = some f → f.getLast? ≠ some escape) :
    let first := before.length + 1
    let added := layout.length - 1
    (∃ done s state later, s.line = first ∧ (∀ e, state.error? = some e → first < e.line) ∧
      readText oneLine = (state, done ++ s :: later) ∧
      readText text = (state.shift added, done ++ s :: later.map (·.shift added))) ∨
    ∃ done state e, state.error? = some e ∧ e.line = first ∧
      readText oneLine = (state, done) ∧ readText text = (state, done) := by
  intro first added
  have hsolid : isBlank escape = false := hescape ▸ isBlank_escapeChar _
  have hheading := hlayout.heading hsolid hfragments hlast
  have hheading' := heading_joinWith hsolid hlayout.ne_nil hfragments hlast
  have hescape' : escapeChar (Text.lines oneLine.toList) = escape := by
    rw [← hescape, hlines, hjoined, hheading.escapeChar_eq]
    exact hheading'.escapeChar_eq before after
  -- the joined lines are the same, and with them the words of the here-documents
  have hpieces : joinPieces fragments = joinPieces [joinWith [' '] fragments] := by
    rw [joinPieces_fragments hfragments,
      joinPieces_singleton (fragment_joinWith hlayout.ne_nil hfragments).ne_nil]
  have hnumber : first + layout.length = first + 1 + added := by
    obtain ⟨l, more, hls, -⟩ := hheading.begins
    have hpos : 0 < layout.length := hls ▸ Nat.succ_pos _
    omega
  have hsame : goOn escape (nextBody (header first (joinPieces fragments)) (announced fragments))
        (first + layout.length) after =
      goOn escape (nextBody (header first (joinPieces [joinWith [' '] fragments]))
        (announced [joinWith [' '] fragments])) (first + 1 + added) after := by
    rw [announced, hpieces, hnumber, announced]
  obtain ⟨done, hdone⟩ := hbefore.read 1
  have hline : (header first (joinPieces [joinWith [' '] fragments])).line < first + 1 :=
    Nat.lt_succ_self first
  rcases goOn_nextBody_shift escape (announced [joinWith [' '] fragments]) after hline added with
    ⟨s, state, later, hs, hbehind, hhere, hbelow⟩ | ⟨state, e, herror, he, hhere, hbelow⟩
  · exact .inl ⟨done, s, state, later, hs, hbehind,
      readText_heading hescape' hjoined hdone hheading' hhere,
      readText_heading hescape hlines hdone hheading (hsame.trans hbelow)⟩
  · exact .inr ⟨done ++ [], state, e, herror, he,
      readText_heading hescape' hjoined hdone hheading' hhere,
      readText_heading hescape hlines hdone hheading (hsame.trans hbelow)⟩

theorem stageFrom_below (k : Nat) (done : List Statement) (s : Statement) (later : List Statement) :
    ∃ above i below, i.line = s.line ∧ stageFrom 0 (done ++ s :: later) = above ++ i :: below ∧
      stageFrom 0 (done ++ s :: later.map (·.shift k)) = above ++ i :: below.map (·.shift k) := by
  refine ⟨stageFrom 0 done, _, _, rfl, by rw [stageFrom_append, stageFrom_cons], ?_⟩
  rw [stageFrom_append, stageFrom_cons, stageFrom_shift]

/-- **Continued lines are read as one.**  In the one file the fragments of an instruction stand on
one line, and in the other they are laid out over several.  The instruction is the same in both, on
the line of its first fragment; those below it move by the lines that were added.  If the one file
is refused, so is the other, for the same reason, and the error moves unless the instruction itself
is not finished.  That no fragment has a line end in it need not be asked for, since lines have
none. -/
theorem parse_layout (hescape : escapeChar (Text.lines text.toList) = escape)
    (hlines : Text.lines text.toList = before ++ (layout ++ after))
    (hjoined : Text.lines oneLine.toList = before ++ joinWith [' '] fragments :: after)
    (hbefore : Complete escape before) (hlayout : Layout escape fragments layout)
    (hfragments : ∀ f ∈ fragments, Fragment f)
    (hlast : ∀ f, fragments.getLast? = some f → f.getLast? ≠ some escape) :
    let first := before.length + 1
    let added := layout.length - 1
    (∀ d, parse oneLine = .ok d →
      ∃ above i below, d.instructions = above ++ i :: below ∧ i.line = first ∧
        parse text = .ok (.ofInstructions (above ++ i :: below.map (·.shift added)))) ∧
    (∀ e, parse oneLine = .error e →
      parse text = .error (if e.line = first then e else e.shift added)) := by
  intro first added
  rcases readText_layout hescape hlines hjoined hbefore hlayout hfragments hlast with
    ⟨done, s, state, later, hline, hbehind, hread', hread⟩ |
    ⟨done, state, e', herror, hline, hread', hread⟩
  · constructor
    · intro d hd
      obtain ⟨out, hout, rfl⟩ := parse_eq_ok.mp hd
      obtain ⟨rfl, rfl⟩ := Prod.mk.inj (hread'.symm.trans hout)
      obtain ⟨above, i, below, hi, habove, hbelow⟩ := stageFrom_below added done s later
      refine ⟨above, i, below, habove, hi.trans hline, parse_eq_ok.mpr ⟨_, hread, ?_⟩⟩
      rw [hbelow]
    · intro e he
      rw [parse_eq_error, hread'] at he
      rw [parse_eq_error, hread, if_neg (Nat.ne_of_gt (hbehind e he)), State.error?_shift, he]
      rfl
  · constructor
    · intro d hd
      obtain ⟨out, hout, -⟩ := parse_eq_ok.mp hd
      obtain ⟨rfl, -⟩ := Prod.mk.inj (hread'.symm.trans hout)
      exact absurd herror (by simp [State.error?])
    · intro e he
      rw [parse_eq_error, hread', herror] at he
      obtain rfl : e' = e := Option.some.inj he
      rw [if_pos hline, parse_eq_error, hread, herror]

/-- A quote is opened in one fragment and closed in another, a comment between them ends with the
escape character, and the here-document is announced by the first of them. -/
theorem parse_layout_of_heredoc :
    ∃ above i below, [⟨"FROM", "a", 1, 0⟩, ⟨"RUN", "<<E echo \"x y\"\nz\nE", 2, 0⟩,
        ⟨"USER", "u", 5, 0⟩] = above ++ i :: below ∧ i.line = 2 ∧
      parse "FROM a\nRUN <<E \\\n# c \\\n\n  echo \"x\\\n\ty\"\nz\nE\nUSER u\n" =
        .ok (.ofInstructions (above ++ i :: below.map (·.shift 4))) := by
  have hlayout : Layout '\\' ["RUN <<E".toList, "echo \"x".toList, "y\"".toList]
      (([] ++ "RUN <<E".toList ++ [' '] ++ ['\\']) :: (["# c \\".toList, []] ++
        (([' ', ' '] ++ "echo \"x".toList ++ [] ++ ['\\']) :: ([] ++ [['\t'] ++ "y\"".toList])))) :=
    .more (by simp) (by simp [isBlank]) (by decide)
      (.more (by simp [isBlank]) (by simp) (by simp) (.last (by simp [isBlank])))
  have hbefore : Complete '\\' ["FROM a".toList] :=
    complete_of_no_marker (by decide) (by decide)
  have hfragments : ∀ f ∈ ["RUN <<E".toList, "echo \"x".toList, "y\"".toList], Fragment f := by
    decide
  have hone : parse "FROM a\nRUN <<E echo \"x y\"\nz\nE\nUSER u\n" =
      .ok ⟨[⟨"FROM", "a", 1, 0⟩, ⟨"RUN", "<<E echo \"x y\"\nz\nE", 2, 0⟩,
        ⟨"USER", "u", 5, 0⟩], 1⟩ := by rfl
  refine (parse_layout (by decide) (by rfl) (by rfl) hbefore hlayout hfragments ?_).1 _ hone
  intro f hf
  obtain rfl : "y\"".toList = f := Option.some.inj hf
  decide

end Layout

end ContainerAudit.Dockerfile
