import ContainerAudit.Proofs.Dockerfile.Stage
import ContainerAudit.Proofs.Entries
import Mathlib.Data.List.Basic

/-!
# Stages as a partition

Stages are looked up by the numbers that reading has written into the instructions.  That they are
windows of the file, one behind the other and each opened by its `FROM`, is a property of these
numbers alone: each is one less than the number of `FROM`s up to its instruction (`Staged`), so they
never decrease and go up exactly at a `FROM`.

The instructions before the first `FROM` have no `FROM` to count and are taken to the first stage.
This is why a `FROM` is the first instruction of every stage but that one, and why the last stage of
a file with a single `FROM` is the whole file (`parse_partitions_stages`).
-/

namespace ContainerAudit.Dockerfile

/-! ## The numbers of stages -/

/-- Behind a number of `FROM`s, each instruction has the number of the stage that the `FROM`s up to
it have reached. -/
def Staged : Nat → List Instruction → Prop
  | _, [] => True
  | froms, i :: is => i.stage = froms + i.isFrom.toNat - 1 ∧ Staged (froms + i.isFrom.toNat) is

theorem staged_stageFrom (froms : Nat) (ss : List Statement) :
    Staged froms (stageFrom froms ss) := by
  induction ss generalizing froms with
  | nil => trivial
  | cons s ss ih =>
      have hfrom : ∀ stage, (⟨String.ofList s.keyword, String.ofList s.arguments, s.line, stage⟩ :
          Instruction).isFrom = s.isFrom := by
        intro stage
        rw [← isFrom_statement]
        simp only [Instruction.statement, String.toList_ofList, Statement.isFrom]
      rw [stageFrom_cons, Staged, hfrom]
      exact ⟨rfl, ih _⟩

/-- The document is as reading leaves it: its instructions are in their stages, and the stages are
counted. -/
structure Document.WellStaged (d : Document) : Prop where
  staged : Staged 0 d.instructions
  counted : d.stageCount = stagesOf d.instructions

theorem parse_wellStaged {text : String} {d : Document} (h : parse text = .ok d) :
    d.WellStaged := by
  obtain ⟨out, -, rfl⟩ := parse_eq_ok.mp h
  exact ⟨staged_stageFrom 0 out, rfl⟩

theorem staged_append {froms : Nat} {is js : List Instruction} :
    Staged froms (is ++ js) ↔ Staged froms is ∧ Staged (froms + is.countP (·.isFrom)) js := by
  induction is generalizing froms with
  | nil => simp [Staged]
  | cons i is ih =>
      have hcount : froms + i.isFrom.toNat + is.countP (·.isFrom) =
          froms + (i :: is).countP (·.isFrom) := by
        rw [List.countP_cons]
        cases i.isFrom <;> simp
        omega
      rw [List.cons_append, Staged, ih, Staged, hcount, and_assoc]

/-- An instruction has the number of the stage that the `FROM`s before it and it itself have
reached. -/
theorem Staged.stage_eq {froms : Nat} {before after : List Instruction} {i : Instruction}
    (h : Staged froms (before ++ i :: after)) :
    i.stage = froms + before.countP (·.isFrom) + i.isFrom.toNat - 1 :=
  (staged_append.mp h).2.1

theorem Staged.stage_eq_of_getElem? {is : List Instruction} (h : Staged 0 is) {k : Nat}
    {i : Instruction} (hk : is[k]? = some i) :
    i.stage = (is.take (k + 1)).countP (·.isFrom) - 1 := by
  obtain ⟨hlt, hi⟩ := List.getElem?_eq_some_iff.mp hk
  have hsplit : is = is.take k ++ i :: is.drop (k + 1) := by
    rw [← hi, List.getElem_cons_drop, List.take_append_drop]
  rw [hsplit] at h
  rw [h.stage_eq, List.take_add_one, hk, Option.toList_some, List.countP_append,
    List.countP_singleton, Nat.zero_add]
  cases i.isFrom <;> rfl

theorem Staged.bounds {froms : Nat} {is : List Instruction} (h : Staged froms is) :
    ∀ i ∈ is, froms - 1 ≤ i.stage ∧ i.stage ≤ froms + is.countP (·.isFrom) - 1 := by
  intro i hi
  obtain ⟨before, after, rfl⟩ := List.append_of_mem hi
  rw [h.stage_eq, List.countP_append, List.countP_cons]
  cases i.isFrom <;> simp <;> omega

/-- The numbers of stages never decrease. -/
theorem Staged.pairwise {froms : Nat} {is : List Instruction} (h : Staged froms is) :
    is.Pairwise fun i j => i.stage ≤ j.stage := by
  induction is generalizing froms with
  | nil => exact .nil
  | cons i is ih =>
      obtain ⟨hi, his⟩ := h
      refine List.pairwise_cons.mpr ⟨fun j hj => ?_, ih his⟩
      have := (his.bounds j hj).1
      omega

/-! ## Windows -/

section Windows

variable {α : Type} {number : α → Nat} {l : List α}

/-- Of numbers that never decrease and end with `n`, those below `n` come first. -/
theorem filter_lt_append_filter_eq {n : Nat} (hl : l.Pairwise fun a b => number a ≤ number b)
    (hle : ∀ a ∈ l, number a ≤ n) :
    l.filter (number · < n) ++ l.filter (number · == n) = l := by
  induction l with
  | nil => rfl
  | cons a l ih =>
      obtain ⟨ha, hl⟩ := List.pairwise_cons.mp hl
      by_cases han : number a < n
      · rw [List.filter_cons_of_pos (by simpa using han),
          List.filter_cons_of_neg (by simpa using Nat.ne_of_lt han), List.cons_append,
          ih hl fun b hb => hle b (List.mem_cons_of_mem a hb)]
      · have hall : ∀ b ∈ a :: l, number b = n := by
          intro b hb
          have hbn := hle b hb
          rcases List.mem_cons.mp hb with rfl | hb
          · omega
          · have := ha b hb
            omega
        rw [List.filter_eq_nil_iff.mpr fun b hb => by simp [hall b hb],
          List.filter_eq_self.mpr fun b hb => by simp [hall b hb], List.nil_append]

/-- What bears numbers that never decrease is recovered by collecting the numbers one by one. -/
theorem flatMap_range_filter (n : Nat) (hl : l.Pairwise fun a b => number a ≤ number b)
    (hlt : ∀ a ∈ l, number a < n) :
    (List.range n).flatMap (fun k => l.filter (number · == k)) = l := by
  induction n generalizing l with
  | zero =>
      cases l with
      | nil => rfl
      | cons a l => exact absurd (hlt a List.mem_cons_self) (Nat.not_lt_zero _)
  | succ n ih =>
      have hsplit := filter_lt_append_filter_eq hl fun a ha => Nat.le_of_lt_succ (hlt a ha)
      have hbelow := ih (hl.filter (number · < n)) fun a ha => by
        simpa using (List.mem_filter.mp ha).2
      rw [List.range_succ, List.flatMap_append, List.flatMap_singleton]
      conv_rhs => rw [← hsplit, ← hbelow]
      congr 1
      refine List.flatMap_congr fun k hk => ?_
      rw [List.filter_filter]
      refine List.filter_congr fun a _ => ?_
      have hk := List.mem_range.mp hk
      by_cases hak : number a = k <;> simp [hak, hk]

end Windows

/-- After a `FROM`, its stage goes on up to the next one. -/
theorem Staged.filter_eq_takeWhile {k : Nat} {is : List Instruction} (h : Staged (k + 1) is) :
    is.filter (·.stage == k) = is.takeWhile (!·.isFrom) := by
  induction is with
  | nil => rfl
  | cons i is ih =>
      cases hfrom : i.isFrom with
      | false =>
          simp only [Staged, hfrom, Bool.toNat_false, Nat.add_zero] at h
          obtain ⟨hi, his⟩ := h
          rw [List.filter_cons_of_pos (by simpa using hi),
            List.takeWhile_cons_of_pos (by simp [hfrom]), ih his]
      | true =>
          have hnone : ∀ j ∈ i :: is, ¬(j.stage == k) = true := by
            simp only [Staged, hfrom, Bool.toNat_true] at h
            obtain ⟨hi, his⟩ := h
            intro j hj
            rcases List.mem_cons.mp hj with rfl | hj
            · simp [hi]
            · have := (his.bounds j hj).1
              simp only [beq_iff_eq]
              omega
          rw [List.filter_eq_nil_iff.mpr hnone, List.takeWhile_cons_of_neg (by simp [hfrom])]

/-- The stage that a `FROM` opens: the `FROM` and what comes behind it, up to the next one.  Only
the first stage begins before its `FROM`. -/
theorem Staged.filter_opened {before after : List Instruction} {opening : Instruction}
    (h : Staged 0 (before ++ opening :: after)) (hopen : opening.isFrom = true) :
    (before ++ opening :: after).filter (·.stage == before.countP (·.isFrom)) =
      (if before.countP (·.isFrom) = 0 then before else []) ++
        opening :: after.takeWhile (!·.isFrom) := by
  have hstage : opening.stage = before.countP (·.isFrom) := by
    rw [h.stage_eq, hopen, Bool.toNat_true]
    omega
  obtain ⟨hbefore, -, hafter⟩ := staged_append.mp h
  rw [hopen, Bool.toNat_true, Nat.zero_add] at hafter
  rw [List.filter_append, List.filter_cons_of_pos (by simpa using hstage),
    hafter.filter_eq_takeWhile]
  congr 1
  split
  · next hzero =>
      refine List.filter_eq_self.mpr fun i hi => ?_
      have := (hbefore.bounds i hi).2
      simp only [beq_iff_eq]
      omega
  · next hpos =>
      refine List.filter_eq_nil_iff.mpr fun i hi => ?_
      have := (hbefore.bounds i hi).2
      simp only [beq_iff_eq]
      omega

/-- Each `FROM` up to a number of them has its place in the file. -/
theorem exists_opening {is : List Instruction} {k : Nat} (hk : k < is.countP (·.isFrom)) :
    ∃ before opening after, is = before ++ opening :: after ∧ opening.isFrom = true ∧
      before.countP (·.isFrom) = k := by
  induction is generalizing k with
  | nil => exact absurd hk (Nat.not_lt_zero k)
  | cons i is ih =>
      cases hfrom : i.isFrom with
      | false =>
          rw [List.countP_cons_of_neg (by simp [hfrom])] at hk
          obtain ⟨before, opening, after, rfl, hopen, hcount⟩ := ih hk
          refine ⟨i :: before, opening, after, rfl, hopen, ?_⟩
          rw [List.countP_cons_of_neg (by simp [hfrom]), hcount]
      | true =>
          cases k with
          | zero => exact ⟨[], i, is, rfl, hfrom, rfl⟩
          | succ k =>
              rw [List.countP_cons_of_pos hfrom] at hk
              obtain ⟨before, opening, after, rfl, hopen, hcount⟩ := ih (Nat.lt_of_succ_lt_succ hk)
              refine ⟨i :: before, opening, after, rfl, hopen, ?_⟩
              rw [List.countP_cons_of_pos hfrom, hcount]

namespace Document

variable {d : Document}

section Staged

variable (h : d.WellStaged)

include h

theorem stageCount_of_no_from (hnone : d.instructions.countP (·.isFrom) = 0)
    (hne : d.instructions ≠ []) : d.stageCount = 1 := by
  simp [h.counted, stagesOf, hnone, hne]

theorem stageCount_of_from (hsome : d.instructions.countP (·.isFrom) ≠ 0) :
    d.stageCount = d.instructions.countP (·.isFrom) := by
  rw [h.counted, stagesOf_of_from hsome]

theorem stageCount_of_empty (hempty : d.instructions = []) : d.stageCount = 0 := by
  simp [h.counted, stagesOf, hempty]

theorem stage_lt_stageCount : ∀ i ∈ d.instructions, i.stage < d.stageCount := by
  intro i hi
  have hle := (h.staged.bounds i hi).2
  by_cases hnone : d.instructions.countP (·.isFrom) = 0
  · rw [stageCount_of_no_from h hnone (List.ne_nil_of_mem hi)]
    omega
  · rw [stageCount_of_from h hnone]
    omega

theorem flatten_stages : d.stages.flatten = d.instructions := by
  rw [stages, ← List.flatMap_def]
  exact flatMap_range_filter d.stageCount h.staged.pairwise (stage_lt_stageCount h)

/-- Each stage that a `FROM` opens holds no other, and all but the first begin with it. -/
theorem exists_stage_opening {k : Nat} (hk : k < d.instructions.countP (·.isFrom)) :
    ∃ opening, (d.stage k).filter (·.isFrom) = [opening] ∧ d.stageFrom? k = some opening ∧
      (1 ≤ k → (d.stage k).head? = some opening) := by
  obtain ⟨before, opening, after, his, hopen, hcount⟩ := exists_opening hk
  have hstage : d.stage k = (if k = 0 then before else []) ++
      opening :: after.takeWhile (!·.isFrom) := by
    have hstaged := h.staged
    rw [his] at hstaged
    rw [stage, his, ← hcount]
    exact hstaged.filter_opened hopen
  have hnone : ∀ i ∈ after.takeWhile (!·.isFrom), i.isFrom = false := by
    intro i hi
    simpa using List.mem_takeWhile_imp hi
  have hearly : ∀ i ∈ (if k = 0 then before else []), i.isFrom = false := by
    intro i hi
    split at hi
    · next hzero =>
        rw [hzero, List.countP_eq_zero] at hcount
        simpa using hcount i hi
    · exact absurd hi List.not_mem_nil
  have hfroms : (d.stage k).filter (·.isFrom) = [opening] := by
    rw [hstage, List.filter_append, List.filter_cons_of_pos (by exact hopen),
      List.filter_eq_nil_iff.mpr fun i hi => by simp [hearly i hi],
      List.filter_eq_nil_iff.mpr fun i hi => by simp [hnone i hi], List.nil_append]
  refine ⟨opening, hfroms, ?_, ?_⟩
  · rw [stageFrom?, ← List.head?_filter, hfroms, List.head?_cons]
  · intro hpos
    rw [hstage, if_neg (Nat.pos_iff_ne_zero.mp hpos)]
    rfl

theorem finalStage_of_one_from (hone : d.instructions.countP (·.isFrom) < 2) :
    d.finalStage = d.instructions := by
  refine List.filter_eq_self.mpr fun i hi => ?_
  have hle := (h.staged.bounds i hi).2
  have hlt := stage_lt_stageCount h i hi
  have hcount : d.stageCount = 1 := by
    by_cases hnone : d.instructions.countP (·.isFrom) = 0
    · exact stageCount_of_no_from h hnone (List.ne_nil_of_mem hi)
    · rw [stageCount_of_from h hnone]
      omega
  simp only [finalIndex, beq_iff_eq]
  omega

/-- With several `FROM`s the last stage is what the last of them opens. -/
theorem finalStage_of_froms (hmany : 2 ≤ d.instructions.countP (·.isFrom)) :
    ∃ before opening after, d.instructions = before ++ opening :: after ∧
      opening.isFrom = true ∧ (∀ i ∈ after, i.isFrom = false) ∧
      d.finalStage = opening :: after := by
  have hlast : d.instructions.countP (·.isFrom) - 1 < d.instructions.countP (·.isFrom) := by omega
  obtain ⟨before, opening, after, his, hopen, hcount⟩ := exists_opening hlast
  have htotal : d.instructions.countP (·.isFrom) =
      before.countP (·.isFrom) + (after.countP (·.isFrom) + 1) := by
    rw [his, List.countP_append, List.countP_cons_of_pos hopen]
  have hnone : ∀ i ∈ after, i.isFrom = false := by
    have hzero : after.countP (·.isFrom) = 0 := by omega
    intro i hi
    simpa using List.countP_eq_zero.mp hzero i hi
  refine ⟨before, opening, after, his, hopen, hnone, ?_⟩
  have hindex : d.finalIndex = before.countP (·.isFrom) := by
    rw [finalIndex, stageCount_of_from h (by omega)]
    omega
  have hpos : before.countP (·.isFrom) ≠ 0 := by omega
  have hstaged := h.staged
  rw [his] at hstaged
  rw [finalStage, hindex, stage, his, hstaged.filter_opened hopen, if_neg hpos,
    List.takeWhile_eq_self_iff.mpr fun i hi => by simp [hnone i hi], List.nil_append]

end Staged

end Document

/-! ## Aliases -/

def Instruction.declares? (i : Instruction) : Option String :=
  if i.isFrom then alias? i.arguments else none

theorem Instruction.declares?_eq_some {i : Instruction} {name : String} :
    i.declares? = some name ↔ i.isFrom = true ∧ alias? i.arguments = some name := by
  rw [Instruction.declares?]
  split <;> simp_all

/-- The aliases after one more instruction. -/
def addAlias (names : List (String × Nat)) (i : Instruction) : List (String × Nat) :=
  match i.declares? with
  | some name => put name i.stage names
  | none => names

theorem stageNames_eq (d : Document) : d.stageNames = d.instructions.foldl addAlias [] :=
  rfl

theorem lookup_addAlias (names : List (String × Nat)) (i : Instruction) (name : String) :
    (addAlias names i).lookup name =
      if i.declares? = some name then some i.stage else names.lookup name := by
  rw [addAlias]
  split
  · next declared hdeclared =>
      rw [hdeclared, lookup_put]
      simp only [Option.some.injEq, eq_comm]
  · next hnone => simp [hnone]

/-- The last instruction that declares an alias has it. -/
theorem lookup_foldl_addAlias (is : List Instruction) (name : String) :
    (is.foldl addAlias []).lookup name =
      (is.reverse.find? (·.declares? == some name)).map (·.stage) := by
  induction is using List.reverseRecOn with
  | nil => rfl
  | append_singleton is i ih =>
      rw [List.foldl_append, List.foldl_cons, List.foldl_nil, lookup_addAlias, ih,
        List.reverse_append, List.reverse_singleton, List.singleton_append, List.find?_cons]
      by_cases hi : i.declares? = some name
      · rw [if_pos hi, beq_iff_eq.mpr hi]
        rfl
      · rw [if_neg hi, beq_false_of_ne hi]

theorem nodup_foldl_addAlias (is : List Instruction) :
    ((is.foldl addAlias []).map (·.1)).Nodup := by
  induction is using List.reverseRecOn with
  | nil => exact List.nodup_nil
  | append_singleton is i ih =>
      rw [List.foldl_append, List.foldl_cons, List.foldl_nil, addAlias]
      split
      · exact nodup_map_fst_put ih
      · exact ih

/-- An alias stands for the number of `FROM`s before the last one that declares it. -/
theorem Document.lookup_stageNames_eq_some {d : Document} (h : Staged 0 d.instructions)
    {name : String} {k : Nat} :
    d.stageNames.lookup name = some k ↔
      ∃ before opening after, d.instructions = before ++ opening :: after ∧
        opening.isFrom = true ∧ alias? opening.arguments = some name ∧
        (∀ i ∈ after, i.isFrom = true → alias? i.arguments ≠ some name) ∧
        before.countP (·.isFrom) = k := by
  have hstage : ∀ before opening after, d.instructions = before ++ opening :: after →
      opening.isFrom = true → opening.stage = before.countP (·.isFrom) := by
    intro before opening after his hopen
    rw [his] at h
    rw [h.stage_eq, hopen, Bool.toNat_true]
    omega
  rw [stageNames_eq, lookup_foldl_addAlias, Option.map_eq_some_iff]
  simp only [List.find?_eq_some_iff_append, beq_iff_eq, Instruction.declares?_eq_some,
    Bool.not_eq_true', beq_eq_false_iff_ne, ne_eq, not_and]
  constructor
  · rintro ⟨opening, ⟨⟨hopen, halias⟩, later, earlier, hsplit, hlater⟩, rfl⟩
    have his : d.instructions = earlier.reverse ++ opening :: later.reverse := by
      rw [← List.reverse_reverse d.instructions, hsplit]
      simp
    refine ⟨earlier.reverse, opening, later.reverse, his, hopen, halias, fun i hi => ?_, ?_⟩
    · exact hlater i (List.mem_reverse.mp hi)
    · exact (hstage _ _ _ his hopen).symm
  · rintro ⟨before, opening, after, his, hopen, halias, hafter, rfl⟩
    refine ⟨opening, ⟨⟨hopen, halias⟩, after.reverse, before.reverse, ?_, fun i hi => ?_⟩, ?_⟩
    · rw [his]
      simp
    · exact hafter i (List.mem_reverse.mp hi)
    · exact hstage _ _ _ his hopen

/-! ## The stages of a file -/

/-- **Stages partition a file.**  Put one behind the other they are its instructions, and the number
of a stage counts the `FROM`s.  Every `FROM` opens a stage of its own, and all stages but the first
begin with it; the last stage is what the last `FROM` opens, or the whole file if there are not two
of them.  An alias stands for the stage of the last `FROM` that declares it. -/
theorem parse_partitions_stages {text : String} {d : Document} (h : parse text = .ok d) :
    let is := d.instructions
    let froms := is.countP (·.isFrom)
    d.stages.flatten = is ∧
    (∀ k i, is[k]? = some i →
      i.stage = (is.take (k + 1)).countP (·.isFrom) - 1 ∧ i.stage < d.stageCount) ∧
    (froms ≠ 0 → d.stageCount = froms) ∧
    (froms = 0 → is ≠ [] → d.stageCount = 1) ∧
    (is = [] → d.stageCount = 0) ∧
    (∀ k < froms, ∃ opening, (d.stage k).filter (·.isFrom) = [opening] ∧
      d.stageFrom? k = some opening ∧ (1 ≤ k → (d.stage k).head? = some opening)) ∧
    (2 ≤ froms → ∃ before opening after, is = before ++ opening :: after ∧
      opening.isFrom = true ∧ (∀ i ∈ after, i.isFrom = false) ∧
      d.finalStage = opening :: after) ∧
    (froms < 2 → d.finalStage = is) ∧
    (d.stageNames.map (·.1)).Nodup ∧
    (∀ name k, d.stageNames.lookup name = some k ↔
      ∃ before opening after, is = before ++ opening :: after ∧
        opening.isFrom = true ∧ alias? opening.arguments = some name ∧
        (∀ i ∈ after, i.isFrom = true → alias? i.arguments ≠ some name) ∧
        before.countP (·.isFrom) = k) := by
  intro is froms
  have hd := parse_wellStaged h
  refine ⟨Document.flatten_stages hd, fun k i hk => ?_, Document.stageCount_of_from hd,
    Document.stageCount_of_no_from hd, Document.stageCount_of_empty hd,
    fun k => Document.exists_stage_opening hd, Document.finalStage_of_froms hd,
    Document.finalStage_of_one_from hd, nodup_foldl_addAlias is,
    fun name k => Document.lookup_stageNames_eq_some hd.staged⟩
  exact ⟨hd.staged.stage_eq_of_getElem? hk,
    Document.stage_lt_stageCount hd i (List.mem_of_getElem? hk)⟩

/-- An `ARG` in front belongs to the first stage, and two stages declare the same alias. -/
theorem parse_partitions_repeated_alias :
    let d : Document :=
      ⟨[⟨"ARG", "v", 1, 0⟩, ⟨"FROM", "a AS Base", 2, 0⟩, ⟨"RUN", "x", 3, 0⟩,
        ⟨"FROM", "b as base", 4, 1⟩, ⟨"FROM", "base", 5, 2⟩, ⟨"USER", "u", 6, 2⟩], 3⟩
    parse "ARG v\nFROM a AS Base\nRUN x\nFROM b as base\nFROM base\nUSER u\n" = .ok d ∧
      d.stages.flatten = d.instructions ∧ d.stageCount = 3 ∧
      (∃ opening, d.stageFrom? 0 = some opening ∧ (d.stage 0).filter (·.isFrom) = [opening]) ∧
      (∃ before opening after, d.instructions = before ++ opening :: after ∧
        d.finalStage = opening :: after) ∧
      d.stageNames.lookup "base" = some 1 := by
  intro d
  have h : parse "ARG v\nFROM a AS Base\nRUN x\nFROM b as base\nFROM base\nUSER u\n" = .ok d := by
    rfl
  obtain ⟨hflatten, -, hcount, -, -, hopening, hfinal, -, -, hnames⟩ := parse_partitions_stages h
  refine ⟨h, hflatten, hcount (by decide), ?_, ?_, ?_⟩
  · obtain ⟨opening, hfroms, hfrom, -⟩ := hopening 0 (by decide)
    exact ⟨opening, hfrom, hfroms⟩
  · obtain ⟨before, opening, after, his, -, -, hstage⟩ := hfinal (by decide)
    exact ⟨before, opening, after, his, hstage⟩
  · refine (hnames "base" 1).mpr ⟨d.instructions.take 3, ⟨"FROM", "b as base", 4, 1⟩,
      d.instructions.drop 4, rfl, by decide, by decide, by decide, by decide⟩

end ContainerAudit.Dockerfile
