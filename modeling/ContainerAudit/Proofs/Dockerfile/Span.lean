import ContainerAudit.Proofs.Dockerfile.Stage
import Mathlib.Data.List.Forall2
import Mathlib.Logic.ExistsUnique

/-!
# The lines of each instruction

Every line of a file that can be read is either skipped between two instructions or belongs to the
span of exactly one instruction, and the instruction bears the number of the first line of its span
(`parse_accounts_for_lines`).

The spans are built along the reading.  While an instruction is open the lines read since it began
are kept in hand; the line that completes it closes the span (`exists_partition`).  That no line is
lost or read twice is then a matter of the partition alone, and is proved of any partition
(`Partition.existsUnique_covers`).
-/

namespace ContainerAudit.Dockerfile

open ContainerAudit.Text (trim trimEnd isBlank)

/-- Neighbouring lines with the number of the first. -/
structure Span where
  first : Nat
  lines : List Line

/-- The line with a number lies in the span. -/
def Span.Covers (s : Span) (number : Nat) : Prop :=
  s.first ≤ number ∧ number < s.first + s.lines.length

/-- `Partition n ls spans`: the lines `ls`, the first of them with the number `n`, are skipped lines
and the lines of the spans, in order and with nothing left over. -/
inductive Partition : Nat → List Line → List Span → Prop
  | nil {n : Nat} : Partition n [] []
  | skip {n : Nat} {l : Line} {ls : List Line} {spans : List Span} :
      isSkipped l = true → Partition (n + 1) ls spans → Partition n (l :: ls) spans
  | span {n : Nat} {l : Line} {more ls : List Line} {spans : List Span} :
      Partition (n + (l :: more).length) ls spans →
      Partition n (l :: more ++ ls) (⟨n, l :: more⟩ :: spans)

/-- The lines, the first of them with a number, spell an instruction: it is completed by the last of
them, and nothing is completed before. -/
def Spells (escape : Char) (number : Nat) (ls : List Line) (s : Statement) : Prop :=
  ∃ init last state, ls = init ++ [last] ∧ feed escape .between number init = (state, []) ∧
    step escape state (number + init.length) last = (.between, some s)

/-- The span of an instruction: it starts on the line of the instruction, which is not skipped, and
its lines spell the instruction. -/
structure SpanOf (escape : Char) (s : Statement) (span : Span) : Prop where
  line_eq : s.line = span.first
  begins : ∃ l more, span.lines = l :: more ∧ isSkipped l = false
  spells : Spells escape span.first span.lines s

/-! ## Building the spans -/

/-- The lines in hand: those of the open instruction, which starts on the first of them; none
between instructions. -/
inductive InHand (escape : Char) (start : Nat) : List Line → State → Prop
  | none : InHand escape start [] .between
  | some {l : Line} {more : List Line} {state : State} :
      isSkipped l = false → feed escape .between start (l :: more) = (state, []) →
      state.start? = some start → InHand escape start (l :: more) state

theorem InHand.read {escape : Char} {start : Nat} {held : List Line} {state : State}
    (h : InHand escape start held state) : feed escape .between start held = (state, []) := by
  cases h with
  | none => rfl
  | some _ hread _ => exact hread

/-- The line after those in hand, unless it is skipped between instructions, is taken in hand or
completes the instruction. -/
theorem InHand.advances {escape : Char} {start : Nat} {held : List Line} {state : State}
    (h : InHand escape start held state) {l : Line} (hl : held = [] → isSkipped l = false) :
    Advances start (step escape state (start + held.length) l) := by
  cases h with
  | none => exact step_between_advances escape start (hl rfl)
  | some _ _ hstart => exact step_advances escape hstart _ l

/-- The lines in hand with one more begin with a line that is not skipped. -/
theorem InHand.begins_concat {escape : Char} {start : Nat} {held : List Line} {state : State}
    (h : InHand escape start held state) {l : Line} (hl : held = [] → isSkipped l = false) :
    ∃ l' more, held ++ [l] = l' :: more ∧ isSkipped l' = false := by
  cases h with
  | none => exact ⟨l, [], rfl, hl rfl⟩
  | @some l' more _ hl' _ _ => exact ⟨l', more ++ [l], rfl, hl'⟩

theorem exists_partition (escape : Char) (ls : List Line) :
    ∀ {start : Nat} {held : List Line} {state : State} {out : List Statement},
      InHand escape start held state →
      feed escape state (start + held.length) ls = (.between, out) →
      ∃ spans, Partition start (held ++ ls) spans ∧ List.Forall₂ (SpanOf escape) out spans := by
  induction ls with
  | nil =>
      intro start held state out hand hread
      obtain ⟨rfl, rfl⟩ := Prod.mk.inj hread
      cases hand with
      | none => exact ⟨[], .nil, .nil⟩
      | some _ _ hstart => exact absurd hstart (by simp [State.start?])
  | cons l ls ih =>
      intro start held state out hand hread
      by_cases hskip : held = [] ∧ isSkipped l = true
      · obtain ⟨rfl, hl⟩ := hskip
        cases hand with
        | none =>
            rw [feed_cons_none (step_between_skipped escape _ hl)] at hread
            obtain ⟨spans, hpart, hspans⟩ := ih .none hread
            exact ⟨spans, .skip hl hpart, hspans⟩
      · have hl : held = [] → isSkipped l = false := by
          intro hheld
          simpa [hheld] using hskip
        obtain ⟨l', more, hheld, hl'⟩ := hand.begins_concat hl
        have hlength : start + (held ++ [l]).length = start + held.length + 1 := by simp; omega
        have hadvances := hand.advances hl
        rcases hstep : step escape state (start + held.length) l with ⟨next, _ | s⟩
        · -- the instruction goes on: the line is taken in hand
          rw [hstep] at hadvances
          rw [feed_cons_none hstep, ← hlength] at hread
          have hmore : feed escape .between start (held ++ [l]) = (next, []) := by
            rw [feed_append, hand.read]
            simp only [feed, hstep, Option.toList_none, List.append_nil]
          have hnext : InHand escape start (held ++ [l]) next := by
            rw [hheld] at hmore ⊢
            exact .some hl' hmore hadvances
          obtain ⟨spans, hpart, hspans⟩ := ih hnext hread
          exact ⟨spans, by simpa using hpart, hspans⟩
        · -- the line completes the instruction and closes its span
          rw [hstep] at hadvances
          obtain ⟨rfl, hline⟩ := hadvances
          rw [feed_cons_some hstep, ← hlength] at hread
          obtain ⟨hbetween, rfl⟩ := Prod.mk.inj hread
          obtain ⟨spans, hpart, hspans⟩ := ih .none (Prod.ext hbetween rfl)
          have hspan : SpanOf escape s ⟨start, held ++ [l]⟩ :=
            ⟨hline, ⟨l', more, hheld, hl'⟩, ⟨held, l, state, rfl, hand.read, hstep⟩⟩
          refine ⟨⟨start, held ++ [l]⟩ :: spans, ?_, .cons hspan hspans⟩
          rw [List.append_cons, hheld]
          exact .span (hheld ▸ hpart)

/-! ## What any partition gives -/

theorem Partition.bounds {n : Nat} {ls : List Line} {spans : List Span}
    (h : Partition n ls spans) :
    ∀ s ∈ spans, n ≤ s.first ∧ 0 < s.lines.length ∧ s.first + s.lines.length ≤ n + ls.length := by
  induction h with
  | nil => exact fun _ hs => absurd hs List.not_mem_nil
  | skip _ _ ih =>
      intro s hs
      have := ih s hs
      rw [List.length_cons]
      omega
  | span _ ih =>
      intro s hs
      rw [List.length_append, ← Nat.add_assoc]
      rcases List.mem_cons.mp hs with rfl | hs
      · exact ⟨Nat.le_refl _, Nat.succ_pos _, Nat.le_add_right _ _⟩
      · have := ih s hs
        omega

/-- Each span ends before the next one starts. -/
theorem Partition.pairwise {n : Nat} {ls : List Line} {spans : List Span}
    (h : Partition n ls spans) :
    spans.Pairwise fun s t => s.first + s.lines.length ≤ t.first := by
  induction h with
  | nil => exact .nil
  | skip _ _ ih => exact ih
  | span hrest ih => exact List.pairwise_cons.mpr ⟨fun t ht => (hrest.bounds t ht).1, ih⟩

theorem Partition.exists_covers {n : Nat} {ls : List Line} {spans : List Span}
    (h : Partition n ls spans) :
    ∀ {k : Nat} {l : Line}, ls[k]? = some l → isSkipped l = false →
      ∃ s ∈ spans, s.Covers (n + k) := by
  induction h with
  | nil => exact fun hk _ => absurd hk (by simp)
  | @skip n l' ls spans hskip _ ih =>
      intro k l hk hl
      cases k with
      | zero =>
          obtain rfl : l' = l := by simpa using hk
          exact absurd hskip (by simp [hl])
      | succ k =>
          obtain ⟨s, hs, hcovers⟩ := ih (by simpa using hk) hl
          exact ⟨s, hs, by rwa [Nat.add_assoc, Nat.add_comm 1] at hcovers⟩
  | @span n l' more ls spans _ ih =>
      intro k l hk hl
      by_cases hin : k < (l' :: more).length
      · exact ⟨_, List.mem_cons_self, Nat.le_add_right n k, Nat.add_lt_add_left hin n⟩
      · rw [List.getElem?_append_right (Nat.le_of_not_lt hin)] at hk
        obtain ⟨s, hs, hcovers⟩ := ih hk hl
        refine ⟨s, List.mem_cons_of_mem _ hs, ?_⟩
        rwa [Nat.add_assoc, Nat.add_sub_cancel' (Nat.le_of_not_lt hin)] at hcovers

/-- No line lies in two spans. -/
theorem Partition.covers_inj {n : Nat} {ls : List Line} {spans : List Span}
    (h : Partition n ls spans) (number : Nat) :
    ∀ s ∈ spans, ∀ t ∈ spans, s.Covers number → t.Covers number → s = t := by
  have hapart : ∀ {s t : Span}, s.first + s.lines.length ≤ t.first →
      s.Covers number → t.Covers number → False := by
    intro s t hst hs ht
    exact absurd (Nat.lt_of_lt_of_le hs.2 (Nat.le_trans hst ht.1)) (Nat.lt_irrefl _)
  refine List.Pairwise.forall_of_forall_of_flip (fun _ _ _ _ => rfl) ?_ ?_
  · exact h.pairwise.imp fun hst hs ht => (hapart hst hs ht).elim
  · exact h.pairwise.imp fun hst ht hs => (hapart hst hs ht).elim

theorem Partition.existsUnique_covers {n : Nat} {ls : List Line} {spans : List Span}
    (h : Partition n ls spans) {k : Nat} {l : Line} (hk : ls[k]? = some l)
    (hl : isSkipped l = false) : ∃! s, s ∈ spans ∧ s.Covers (n + k) := by
  obtain ⟨s, hs, hcovers⟩ := h.exists_covers hk hl
  exact ⟨s, ⟨hs, hcovers⟩, fun t ht => h.covers_inj _ t ht.1 s hs ht.2 hcovers⟩

/-! ## The lines of a file -/

/-- Reading comes to stand between instructions without completing one only where a line is skipped
there: the joined line of an instruction is never empty. -/
theorem step_eq_between_none_iff {escape : Char} {state : State} {number : Nat} {l : Line} :
    step escape state number l = (.between, none) ↔ state = .between ∧ isSkipped l = true := by
  constructor
  · intro h
    cases hstart : state.start? with
    | some start =>
        have hadvances := step_advances escape hstart number l
        rw [h] at hadvances
        exact absurd hadvances (by simp [Advances, State.start?])
    | none =>
        obtain rfl : state = .between := by cases state <;> simp_all [State.start?]
        refine ⟨rfl, ?_⟩
        by_contra hl
        have hadvances := step_between_advances escape number (Bool.eq_false_iff.mpr hl)
        rw [h] at hadvances
        exact absurd hadvances (by simp [Advances, State.start?])
  · rintro ⟨rfl, hl⟩
    exact step_between_skipped escape number hl

/-- The spans of a file, which begin on the lines of its instructions. -/
theorem exists_spans {text : String} {d : Document} (h : parse text = .ok d) :
    ∃ spans : List Span,
      Partition 1 (Text.lines text.toList) spans ∧
      List.Forall₂ (fun i span => SpanOf (escapeChar (Text.lines text.toList)) i.statement span)
        d.instructions spans ∧
      d.instructions.map (·.line) = spans.map Span.first := by
  obtain ⟨out, hread, rfl⟩ := parse_eq_ok.mp h
  obtain ⟨spans, hpart, hspans⟩ := exists_partition _ _ .none hread
  rw [← map_statement_stageFrom 0 out, List.forall₂_map_left_iff] at hspans
  have hlines : List.Forall₂ (· = ·) ((stageFrom 0 out).map (·.line)) (spans.map Span.first) := by
    rw [List.forall₂_map_left_iff, List.forall₂_map_right_iff]
    exact hspans.imp fun _ _ hspan => hspan.line_eq
  rw [List.forall₂_eq_eq_eq] at hlines
  exact ⟨spans, hpart, hspans, hlines⟩

theorem parse_named {text : String} {d : Document} (h : parse text = .ok d) :
    ∀ i ∈ d.instructions, i.statement.Named := by
  have hbetween : State.between.Named := trivial
  exact forall_of_parse h (feed_named _ _ hbetween 1)

theorem parse_pairwise_line {text : String} {d : Document} (h : parse text = .ok d) :
    d.instructions.Pairwise fun i j => i.line < j.line := by
  obtain ⟨spans, hpart, -, hlines⟩ := exists_spans h
  have hfirst : (spans.map Span.first).Pairwise (· < ·) := by
    rw [List.pairwise_map]
    refine hpart.pairwise.imp_of_mem fun {s t} hs _ hst => ?_
    obtain ⟨-, hpos, -⟩ := hpart.bounds s hs
    omega
  rw [← hlines] at hfirst
  exact List.pairwise_map.mp hfirst

/-- No two instructions start on one line. -/
theorem eq_of_line_eq {text : String} {d : Document} (h : parse text = .ok d) {i j : Instruction}
    (hi : i ∈ d.instructions) (hj : j ∈ d.instructions) (hline : i.line = j.line) : i = j := by
  have hlines := parse_pairwise_line h
  refine List.Pairwise.forall_of_forall_of_flip (R := fun i j => i.line = j.line → i = j)
    (fun _ _ _ => rfl) ?_ ?_ hi hj hline
  · exact hlines.imp fun hlt heq => absurd heq (Nat.ne_of_lt hlt)
  · exact hlines.imp fun hlt heq => absurd heq.symm (Nat.ne_of_lt hlt)

theorem parse_line_bounds {text : String} {d : Document} (h : parse text = .ok d) :
    ∀ i ∈ d.instructions, 1 ≤ i.line ∧ i.line ≤ (Text.lines text.toList).length := by
  intro i hi
  obtain ⟨spans, hpart, -, hlines⟩ := exists_spans h
  obtain ⟨span, hspan, hfirst⟩ := List.mem_map.mp (hlines ▸ List.mem_map_of_mem hi)
  obtain ⟨hlow, hpos, hhigh⟩ := hpart.bounds span hspan
  omega

/-- **Every line is accounted for.**  The lines are skipped lines and the spans of the instructions,
one for each and in order, and a line that is not skipped lies in exactly one of them.  So the lines
of instructions increase and are lines of the file.  Keywords are there and have no blanks, and the
joined line of an instruction is never empty: reading stands between instructions without having
completed one only where it skips a line there. -/
theorem parse_accounts_for_lines {text : String} {d : Document} (h : parse text = .ok d) :
    let lines := Text.lines text.toList
    let escape := escapeChar lines
    (∃ spans : List Span,
      Partition 1 lines spans ∧
      List.Forall₂ (fun i span => SpanOf escape i.statement span) d.instructions spans ∧
      ∀ k l, lines[k]? = some l → isSkipped l = false →
        ∃! span, span ∈ spans ∧ span.Covers (k + 1)) ∧
    (d.instructions.map (·.line)).Pairwise (· < ·) ∧
    (∀ i ∈ d.instructions, 1 ≤ i.line ∧ i.line ≤ lines.length ∧
      i.keyword.toList ≠ [] ∧ ∀ c ∈ i.keyword.toList, isBlank c = false) ∧
    (∀ pieces l, isSkipped l = false → joinPieces (pieces ++ [stripComment (trimEnd l)]) ≠ []) ∧
    (∀ state number l, step escape state number l = (.between, none) →
      state = .between ∧ isSkipped l = true) := by
  intro lines escape
  obtain ⟨spans, hpart, hspans, hlines⟩ := exists_spans h
  refine ⟨⟨spans, hpart, hspans, ?_⟩, ?_, ?_, fun pieces l => joinPieces_concat_ne_nil pieces,
    fun state number l => step_eq_between_none_iff.mp⟩
  · intro k l hk hl
    rw [Nat.add_comm]
    exact hpart.existsUnique_covers hk hl
  · rw [hlines, List.pairwise_map]
    refine hpart.pairwise.imp_of_mem fun {s t} hs _ hst => ?_
    have := hpart.bounds s hs
    omega
  · intro i hi
    obtain ⟨span, hspan, hfirst⟩ := List.mem_map.mp (hlines ▸ List.mem_map_of_mem hi)
    obtain ⟨hlow, hpos, hhigh⟩ := hpart.bounds span hspan
    have hline : i.line = span.first := hfirst.symm
    have hlast : i.line ≤ (Text.lines text.toList).length := by omega
    exact ⟨hline ▸ hlow, hlast, parse_named h i hi⟩

/-- The line `FROM c` is no instruction here: it lies in the span of the `RUN` above it. -/
theorem parse_accounts_for_heredoc_body :
    ∃ spans : List Span,
      Partition 1 (Text.lines "\nFROM a \\\n# x\n\n AS b\nRUN <<E\nFROM c\nE\n".toList) spans ∧
      List.Forall₂ (fun (i : Instruction) span => SpanOf '\\' i.statement span)
        [⟨"FROM", "a AS b", 2, 0⟩, ⟨"RUN", "<<E\nFROM c\nE", 6, 0⟩] spans ∧
      ∃! span, span ∈ spans ∧ span.Covers 7 := by
  have h : parse "\nFROM a \\\n# x\n\n AS b\nRUN <<E\nFROM c\nE\n" =
      .ok ⟨[⟨"FROM", "a AS b", 2, 0⟩, ⟨"RUN", "<<E\nFROM c\nE", 6, 0⟩], 1⟩ := by rfl
  obtain ⟨⟨spans, hpart, hspans, hcovers⟩, -⟩ := parse_accounts_for_lines h
  exact ⟨spans, hpart, hspans, hcovers 6 "FROM c".toList (by decide) (by decide)⟩

end ContainerAudit.Dockerfile
