import ContainerAudit.Proofs.Dockerfile.StagePartition
import ContainerAudit.Rule.Registry
import Mathlib.Data.List.Range
import Mathlib.Data.List.SplitBy

/-!
# Commands right after commands

A command that comes right after another one is reported.  The rule goes through the stages one by
one, and still no pair of neighbours is lost: a stage ends only where a `FROM` follows, so no two
commands meet between two stages (`consecutiveRuns_eq`).

The same argument counts the matches.  Where a list is cut between neighbours that are not both
commands, the matches on the parts are the matches on the whole (`adjacentRuns_flatten`).  Cut into
its blocks of commands and of other instructions, it gives one match less than there are commands in
each block of commands, and none in the others (`parse_reports_adjacent_runs`).
-/

namespace ContainerAudit.Rule

open ContainerAudit.Dockerfile (Instruction Document Staged parse)

def isRun (i : Instruction) : Bool :=
  i.keyword == "RUN"

/-- The pairs of neighbours that are both commands. -/
def runPairs (is : List Instruction) : List (Instruction × Instruction) :=
  (is.zip is.tail).filter fun pair => isRun pair.1 && isRun pair.2

/-- The maximal blocks of commands one right after the other. -/
def runBlocks (is : List Instruction) : List (List Instruction) :=
  (is.splitBy fun i j => isRun i == isRun j).filter (·.all isRun)

theorem adjacentRuns_cons_cons (i j : Instruction) (is : List Instruction) :
    adjacentRuns (i :: j :: is) =
      (if isRun i && isRun j then [matchAt j (some s!"RUN follows the RUN on line {i.line}.")]
        else []) ++ adjacentRuns (j :: is) := by
  rw [adjacentRuns]
  show (if isRun i && isRun j then _ else _) = _
  split <;> rfl

theorem adjacentRuns_eq (is : List Instruction) :
    adjacentRuns is = (runPairs is).map fun pair =>
      matchAt pair.2 (some s!"RUN follows the RUN on line {pair.1.line}.") := by
  induction is with
  | nil => rfl
  | cons i is ih =>
      cases is with
      | nil => rfl
      | cons j is =>
          rw [adjacentRuns_cons_cons, ih]
          simp only [runPairs, List.tail_cons, List.zip_cons_cons, List.filter_cons]
          split <;> rfl

/-! ## Cutting a list -/

/-- Two commands do not meet where the second list is put behind the first. -/
def PartsRuns (is js : List Instruction) : Prop :=
  ∃ his hjs, (isRun (is.getLast his) && isRun (js.head hjs)) = false

theorem adjacentRuns_append {is js : List Instruction} (h : PartsRuns is js) :
    adjacentRuns (is ++ js) = adjacentRuns is ++ adjacentRuns js := by
  obtain ⟨his, hjs, hmeet⟩ := h
  induction is with
  | nil => exact absurd rfl his
  | cons i is ih =>
      cases is with
      | nil =>
          obtain ⟨j, js, rfl⟩ := List.exists_cons_of_ne_nil hjs
          rw [List.getLast_singleton, List.head_cons] at hmeet
          rw [List.singleton_append, adjacentRuns_cons_cons, hmeet]
          rfl
      | cons k is =>
          rw [List.getLast_cons (List.cons_ne_nil k is)] at hmeet
          rw [List.cons_append, List.cons_append, adjacentRuns_cons_cons, ← List.cons_append,
            ih (List.cons_ne_nil k is) hmeet, adjacentRuns_cons_cons, List.append_assoc]

/-- No match is lost where a list is cut between neighbours that are not both commands. -/
theorem adjacentRuns_flatten {parts : List (List Instruction)} (h : parts.IsChain PartsRuns) :
    adjacentRuns parts.flatten = parts.flatMap adjacentRuns := by
  induction parts with
  | nil => rfl
  | cons is parts ih =>
      cases parts with
      | nil => simp
      | cons js parts =>
          obtain ⟨⟨his, hjs, hmeet⟩, hparts⟩ := List.isChain_cons_cons.mp h
          have hcut : PartsRuns is (js :: parts).flatten := by
            refine ⟨his, by simp [hjs], ?_⟩
            simp only [List.flatten_cons]
            rwa [List.head_append_of_ne_nil hjs]
          rw [List.flatten_cons, adjacentRuns_append hcut, ih hparts]
          rfl

/-! ## Stages -/

theorem isRun_of_isFrom {i : Instruction} (h : i.isFrom = true) : isRun i = false := by
  rw [Instruction.isFrom, beq_iff_eq] at h
  rw [isRun, h]
  decide

/-- A stage behind another one begins with a `FROM`. -/
theorem isChain_stages {d : Document} (h : d.WellStaged) :
    d.stages.IsChain PartsRuns := by
  rw [Document.stages, List.isChain_map, List.isChain_range]
  intro k hk
  have hfroms : d.stageCount = d.instructions.countP (·.isFrom) := by
    by_cases hnone : d.instructions.countP (·.isFrom) = 0
    · by_cases hempty : d.instructions = []
      · rw [Document.stageCount_of_empty h hempty, hnone]
      · rw [Document.stageCount_of_no_from h hnone hempty] at hk
        exact absurd hk (Nat.not_lt_zero k)
    · exact Document.stageCount_of_from h hnone
  obtain ⟨first, hfirst, -⟩ := Document.exists_stage_opening h (k := k) (by omega)
  obtain ⟨opening, hopens, -, hhead⟩ := Document.exists_stage_opening h (k := k + 1) (by omega)
  have hne : d.stage k ≠ [] := by
    intro hnil
    simp [hnil] at hfirst
  obtain ⟨is, his⟩ := List.head?_eq_some_iff.mp (hhead (Nat.succ_pos k))
  have hfrom : opening.isFrom = true := by
    have hmem : opening ∈ (d.stage (k + 1)).filter (·.isFrom) := hopens ▸ List.mem_singleton_self _
    exact (List.mem_filter.mp hmem).2
  refine ⟨hne, his ▸ List.cons_ne_nil opening is, ?_⟩
  simp only [his, List.head_cons, isRun_of_isFrom hfrom, Bool.and_false]

theorem consecutiveRuns_eq {d : Document} (h : d.WellStaged) (p : Patterns) :
    consecutiveRuns d p = adjacentRuns d.instructions := by
  rw [consecutiveRuns, ← adjacentRuns_flatten (isChain_stages h), Document.flatten_stages h]

/-! ## Blocks -/

theorem length_adjacentRuns_of_runs (i : Instruction) {is : List Instruction}
    (h : ∀ j ∈ i :: is, isRun j = true) : (adjacentRuns (i :: is)).length = is.length := by
  induction is generalizing i with
  | nil => rfl
  | cons j is ih =>
      obtain ⟨hi, his⟩ := List.forall_mem_cons.mp h
      rw [adjacentRuns_cons_cons, hi, his j List.mem_cons_self, List.length_append, ih j his]
      exact Nat.add_comm 1 is.length

theorem adjacentRuns_of_no_run {is : List Instruction} (h : ∀ i ∈ is, isRun i = false) :
    adjacentRuns is = [] := by
  rw [adjacentRuns_eq, List.map_eq_nil_iff]
  refine List.filter_eq_nil_iff.mpr fun pair hpair => ?_
  simp [h pair.1 (List.of_mem_zip hpair).1]

/-- In a block all instructions are commands, or none is. -/
theorem isRun_eq_of_mem_block {i j : Instruction} {is : List Instruction}
    (h : (i :: is).IsChain fun i j => isRun i == isRun j) (hj : j ∈ i :: is) :
    isRun j = isRun i := by
  induction is generalizing i with
  | nil => rw [List.mem_singleton.mp hj]
  | cons k is ih =>
      obtain ⟨hik, his⟩ := List.isChain_cons_cons.mp h
      rcases List.mem_cons.mp hj with rfl | hj
      · rfl
      · exact (ih his hj).trans (beq_iff_eq.mp hik).symm

theorem length_adjacentRuns_block {is : List Instruction} (hne : is ≠ [])
    (h : is.IsChain fun i j => isRun i == isRun j) :
    (adjacentRuns is).length + (if is.all isRun then 1 else 0) = is.countP isRun := by
  obtain ⟨i, is, rfl⟩ := List.exists_cons_of_ne_nil hne
  have hsame : ∀ j ∈ i :: is, isRun j = isRun i := fun j => isRun_eq_of_mem_block h
  cases hi : isRun i with
  | true =>
      rw [hi] at hsame
      rw [length_adjacentRuns_of_runs i hsame, List.countP_eq_length.mpr hsame,
        if_pos (List.all_eq_true.mpr hsame), List.length_cons]
  | false =>
      rw [hi] at hsame
      rw [adjacentRuns_of_no_run hsame, List.countP_eq_zero.mpr (by simpa using hsame),
        if_neg (by simp [hi])]
      rfl

theorem length_flatMap_adjacentRuns {blocks : List (List Instruction)}
    (h : ∀ is ∈ blocks,
      (adjacentRuns is).length + (if is.all isRun then 1 else 0) = is.countP isRun) :
    (blocks.flatMap adjacentRuns).length + (blocks.filter (·.all isRun)).length =
      blocks.flatten.countP isRun := by
  induction blocks with
  | nil => rfl
  | cons is blocks ih =>
      obtain ⟨his, hblocks⟩ := List.forall_mem_cons.mp h
      rw [List.flatMap_cons, List.length_append, List.filter_cons, List.flatten_cons,
        List.countP_append, ← his, ← ih hblocks]
      split
      · rw [List.length_cons]
        omega
      · omega

/-- There are as many matches and blocks together as there are commands. -/
theorem length_adjacentRuns_add (is : List Instruction) :
    (adjacentRuns is).length + (runBlocks is).length = is.countP isRun := by
  have hparted : (is.splitBy fun i j => isRun i == isRun j).IsChain PartsRuns := by
    refine (List.isChain_getLast_head_splitBy _ is).imp ?_
    rintro js ks ⟨hjs, hks, hdiffer⟩
    refine ⟨hjs, hks, ?_⟩
    cases hrun : isRun (js.getLast hjs) with
    | false => rfl
    | true => simpa [hrun] using hdiffer
  have hblocks : ∀ js ∈ is.splitBy fun i j => isRun i == isRun j,
      (adjacentRuns js).length + (if js.all isRun then 1 else 0) = js.countP isRun := by
    intro js hjs
    exact length_adjacentRuns_block (List.ne_nil_of_mem_splitBy hjs)
      (List.isChain_of_mem_splitBy hjs)
  have hcount := length_flatMap_adjacentRuns hblocks
  rwa [← adjacentRuns_flatten hparted, List.flatten_splitBy] at hcount

/-- **The rule reports exactly the commands right after a command,** in the order of the file, and
quotes the line of the command before.  Hence each maximal block of commands gives one match less
than it has commands. -/
theorem parse_reports_adjacent_runs {text : String} {d : Document} (h : parse text = .ok d)
    (p : Patterns) :
    (Registry.standard.get? "OPT-008").map Rule.check = some (.ofDockerfile consecutiveRuns) ∧
    (consecutiveRuns d p = (runPairs d.instructions).map fun pair =>
      matchAt pair.2 (some s!"RUN follows the RUN on line {pair.1.line}.")) ∧
    (consecutiveRuns d p).length + (runBlocks d.instructions).length =
      d.instructions.countP isRun := by
  have hflat := consecutiveRuns_eq (Dockerfile.parse_wellStaged h) p
  refine ⟨rfl, ?_, ?_⟩
  · rw [hflat, adjacentRuns_eq]
  · rw [hflat, length_adjacentRuns_add]

/-- Two commands stand before the first `FROM`, three in a block behind it, and one right behind the
`FROM` of the second stage. -/
theorem parse_reports_adjacent_runs_of_four_blocks :
    let d : Document :=
      ⟨[⟨"RUN", "a", 1, 0⟩, ⟨"RUN", "b", 2, 0⟩, ⟨"FROM", "x", 3, 0⟩, ⟨"RUN", "c", 4, 0⟩,
        ⟨"RUN", "d", 5, 0⟩, ⟨"RUN", "e", 6, 0⟩, ⟨"USER", "u", 7, 0⟩, ⟨"RUN", "f", 8, 0⟩,
        ⟨"FROM", "y", 9, 1⟩, ⟨"RUN", "g", 10, 1⟩], 2⟩
    parse "RUN a\nRUN b\nFROM x\nRUN c\nRUN d\nRUN e\nUSER u\nRUN f\nFROM y\nRUN g\n" = .ok d ∧
      (consecutiveRuns d .standard).map (fun m => (m.line, m.message)) =
        [(2, some "RUN follows the RUN on line 1."), (5, some "RUN follows the RUN on line 4."),
          (6, some "RUN follows the RUN on line 5.")] ∧
      (consecutiveRuns d .standard).length + 4 = 7 := by
  intro d
  have h : parse "RUN a\nRUN b\nFROM x\nRUN c\nRUN d\nRUN e\nUSER u\nRUN f\nFROM y\nRUN g\n" =
      .ok d := by decide +kernel
  obtain ⟨-, hfound, hcount⟩ := parse_reports_adjacent_runs h .standard
  refine ⟨h, ?_, hcount⟩
  rw [hfound]
  decide +kernel

end ContainerAudit.Rule
