import ContainerAudit.Proofs.Dockerfile.Reading

/-!
# Instructions in stages

Putting instructions into stages adds the number of the stage and nothing else: taken out of their
stages again they are what was read (`map_statement_stageFrom`).  The number of a stage is one less
than the number of `FROM`s up to it, so instructions behind other instructions, or further down in a
file, are told from those read alone by counting on (`stageFrom_append`, `stageFrom_map_shift`).
The count of `FROM`s that reading ends with is the number of stages (`ofStatements_eq`).
-/

namespace ContainerAudit.Dockerfile

def Statement.isFrom (s : Statement) : Bool :=
  s.keyword = "FROM".toList

def Instruction.statement (i : Instruction) : Statement :=
  ⟨i.keyword.toList, i.arguments.toList, i.line⟩

theorem isFrom_statement (i : Instruction) : i.statement.isFrom = i.isFrom := by
  simp only [Statement.isFrom, Instruction.statement, Instruction.isFrom, beq_eq_decide,
    String.toList_inj]

theorem map_statement_stageFrom (froms : Nat) (ss : List Statement) :
    (stageFrom froms ss).map Instruction.statement = ss := by
  induction ss generalizing froms with
  | nil => rfl
  | cons s ss ih =>
      simp only [stageFrom, List.map_cons, ih, Instruction.statement, String.toList_ofList]

/-- The number of `FROM`s does not depend on stages. -/
theorem countP_isFrom_stageFrom (froms : Nat) (ss : List Statement) :
    (stageFrom froms ss).countP (·.isFrom) = ss.countP (·.isFrom) := by
  conv_rhs => rw [← map_statement_stageFrom froms ss, List.countP_map]
  exact List.countP_congr fun i _ => by simp [isFrom_statement]

theorem countFrom_eq (froms : Nat) (s : Statement) :
    s.countFrom froms = froms + s.isFrom.toNat := by
  rw [Statement.countFrom, Statement.isFrom]
  by_cases h : s.keyword = "FROM".toList
  · rw [if_pos h, decide_eq_true h]
    rfl
  · rw [if_neg h, decide_eq_false h]
    rfl

/-- Counting `FROM`s one by one gives their number. -/
theorem foldl_countFrom (froms : Nat) (ss : List Statement) :
    ss.foldl (fun froms s => s.countFrom froms) froms = froms + ss.countP (·.isFrom) := by
  induction ss generalizing froms with
  | nil => rfl
  | cons s ss ih =>
      rw [List.foldl_cons, ih, countFrom_eq, List.countP_cons, Nat.add_assoc,
        Nat.add_comm (List.countP _ ss)]
      cases s.isFrom <;> rfl

theorem stageFrom_cons (froms : Nat) (s : Statement) (ss : List Statement) :
    stageFrom froms (s :: ss) =
      ⟨String.ofList s.keyword, String.ofList s.arguments, s.line, froms + s.isFrom.toNat - 1⟩ ::
        stageFrom (froms + s.isFrom.toNat) ss := by
  rw [stageFrom, countFrom_eq]

theorem stageFrom_append (froms : Nat) (ss ts : List Statement) :
    stageFrom froms (ss ++ ts) =
      stageFrom froms ss ++ stageFrom (froms + ss.countP (·.isFrom)) ts := by
  induction ss generalizing froms with
  | nil => rfl
  | cons s ss ih =>
      rw [List.cons_append, stageFrom_cons, stageFrom_cons, List.cons_append, ih,
        List.countP_cons, Nat.add_assoc, Nat.add_comm (List.countP _ ss)]
      cases s.isFrom <;> rfl

/-! ## Further down in a file -/

/-- Instructions that come behind a number of lines and a number of `FROM`s.  Each `FROM` among them
counts for the stage of the instructions from it on. -/
def continued (lines froms : Nat) (instructions : List Instruction) : List Instruction :=
  instructions.mapIdx fun i instruction =>
    { instruction with
      line := instruction.line + lines
      stage := froms + (instructions.take (i + 1)).countP (·.isFrom) - 1 }

theorem continued_cons (lines froms : Nat) (i : Instruction) (is : List Instruction) :
    continued lines froms (i :: is) =
      { i with line := i.line + lines, stage := froms + i.isFrom.toNat - 1 } ::
        continued lines (froms + i.isFrom.toNat) is := by
  simp only [continued, List.mapIdx_cons, List.take_succ_cons, List.take_zero, List.countP_cons,
    List.countP_nil]
  cases i.isFrom <;> simp [Nat.add_assoc, Nat.add_comm 1]

theorem stageFrom_map_shift (lines froms before : Nat) (ss : List Statement) :
    stageFrom froms (ss.map (·.shift lines)) = continued lines froms (stageFrom before ss) := by
  induction ss generalizing froms before with
  | nil => rfl
  | cons s ss ih =>
      have hfrom : (s.shift lines).isFrom = s.isFrom := rfl
      rw [List.map_cons, stageFrom_cons, stageFrom_cons, continued_cons, ← isFrom_statement]
      simp only [Instruction.statement, String.toList_ofList]
      rw [hfrom, ih]
      rfl

/-! ## The number of stages -/

/-- The number of stages of some instructions: one for each `FROM`, and one if there are
instructions without any. -/
def stagesOf (instructions : List Instruction) : Nat :=
  let froms := instructions.countP (·.isFrom)
  if froms = 0 && !instructions.isEmpty then 1 else froms

theorem stagesOf_of_from {is : List Instruction} (hsome : is.countP (·.isFrom) ≠ 0) :
    stagesOf is = is.countP (·.isFrom) := by
  simp [stagesOf, hsome]

theorem stagesOf_congr {is js : List Instruction}
    (hfroms : js.countP (·.isFrom) = is.countP (·.isFrom)) (hempty : js.isEmpty = is.isEmpty) :
    stagesOf js = stagesOf is := by
  rw [stagesOf, stagesOf, hfroms, hempty]

/-- The document with the given instructions, and with the number of stages that they make. -/
def Document.ofInstructions (instructions : List Instruction) : Document :=
  ⟨instructions, stagesOf instructions⟩

@[simp] theorem Document.instructions_ofInstructions (is : List Instruction) :
    (ofInstructions is).instructions = is :=
  rfl

/-- The count that reading ends with is the number of stages. -/
theorem ofStatements_eq (ss : List Statement) :
    Document.ofStatements ss = .ofInstructions (stageFrom 0 ss) := by
  have hempty : (stageFrom 0 ss).isEmpty = ss.isEmpty := by
    cases ss <;> rfl
  rw [Document.ofStatements, Document.ofInstructions, stagesOf, foldl_countFrom,
    countP_isFrom_stageFrom, hempty, Nat.zero_add]

/-! ## Reading a whole file -/

/-- The reading of a text from its first line on. -/
def readText (text : String) : State × List Statement :=
  let lines := Text.lines text.toList
  feed (escapeChar lines) .between 1 lines

theorem parse_eq (text : String) :
    parse text = (conclude (readText text)).map fun out => .ofInstructions (stageFrom 0 out) := by
  rw [parse, statements, statementsFrom_eq_conclude, readText]
  rw [show Document.ofStatements = _ from funext ofStatements_eq]

theorem parse_eq_ok {text : String} {d : Document} :
    parse text = .ok d ↔
      ∃ out, readText text = (.between, out) ∧ d = .ofInstructions (stageFrom 0 out) := by
  rw [parse_eq]
  constructor
  · intro h
    cases hc : conclude (readText text) with
    | error e => exact absurd h (by simp [hc, Except.map])
    | ok out =>
        rw [hc] at h
        exact ⟨out, conclude_eq_ok.mp hc, (Except.ok.inj h).symm⟩
  · rintro ⟨out, hread, rfl⟩
    rw [conclude_eq_ok.mpr hread]
    rfl

theorem eq_ofInstructions {text : String} {d : Document} (h : parse text = .ok d) :
    d = .ofInstructions d.instructions := by
  obtain ⟨out, -, rfl⟩ := parse_eq_ok.mp h
  rfl

/-- What holds of all that is read holds of the instructions of the document. -/
theorem forall_of_parse {text : String} {d : Document} (h : parse text = .ok d)
    {P : Statement → Prop} (hread : ∀ s ∈ (readText text).2, P s) :
    ∀ i ∈ d.instructions, P i.statement := by
  obtain ⟨out, hout, rfl⟩ := parse_eq_ok.mp h
  intro i hi
  refine hread i.statement ?_
  rw [hout, ← map_statement_stageFrom 0 out]
  exact List.mem_map_of_mem hi

theorem parse_eq_error {text : String} {e : Error} :
    parse text = .error e ↔ (readText text).1.error? = some e := by
  rw [parse_eq, conclude]
  cases (readText text).1.error? <;> simp [Except.map]

end ContainerAudit.Dockerfile
