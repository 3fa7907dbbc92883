import ContainerAudit.Proofs.Dockerfile.Span
import ContainerAudit.Proofs.Dockerfile.StagePartition
import ContainerAudit.Proofs.Rule.Displacement

/-!
# Where the matches of a rule stand

A match on a Dockerfile has the line and the text of one instruction.  No rule reports an
instruction twice, and all of them report in the order of the file (`anchors_of_mem_ofKind`), so the
lines of the matches increase (`Anchored.pairwise_line`).

Both facts are one about sublists: the places of the matches are among those of the instructions, in
the same order.  Rules that go through the stages one by one keep it because the stages, put
together, are the file.
-/

namespace ContainerAudit

open ContainerAudit.Dockerfile (Instruction Document Staged)

/-- The place of a match: its line and its text. -/
def Match.place (m : Match) : Int × String :=
  (m.line, m.text)

/-- The place of an instruction: its line and its text. -/
def Dockerfile.Instruction.place (i : Instruction) : Int × String :=
  (i.line, i.text)

namespace Rule

/-- The matches stand at instructions of the list, in the order of the list and at each instruction
at most once. -/
def Anchored (is : List Instruction) (found : List Match) : Prop :=
  (found.map Match.place).Sublist (is.map Instruction.place)

/-! ## What follows from it -/

section Anchored

variable {is : List Instruction} {found : List Match}

theorem Anchored.exists_instruction (h : Anchored is found) :
    ∀ m ∈ found, ∃ i ∈ is, m.line = i.line ∧ m.text = i.text := by
  intro m hm
  obtain ⟨i, hi, hplace⟩ := List.mem_map.mp (h.subset (List.mem_map_of_mem hm))
  obtain ⟨hline, htext⟩ := Prod.mk.inj hplace
  exact ⟨i, hi, hline.symm, htext.symm⟩

theorem Anchored.pairwise_line (h : Anchored is found)
    (his : is.Pairwise fun i j => i.line < j.line) : (found.map (·.line)).Pairwise (· < ·) := by
  have hplaces : (is.map Instruction.place).Pairwise fun a b => a.1 < b.1 :=
    List.pairwise_map.mpr (his.imp fun hij => Int.ofNat_lt.mpr hij)
  have hfound := hplaces.sublist h
  rw [List.pairwise_map] at hfound
  exact List.pairwise_map.mpr hfound

theorem Anchored.of_sublist {js : List Instruction} (h : Anchored is found)
    (hsub : is.Sublist js) : Anchored js found :=
  h.trans (hsub.map Instruction.place)

theorem Anchored.append {js : List Instruction} {found' : List Match} (h : Anchored is found)
    (h' : Anchored js found') : Anchored (is ++ js) (found ++ found') := by
  unfold Anchored
  rw [List.map_append, List.map_append]
  exact List.Sublist.append h h'

end Anchored

/-! ## Single instructions -/

theorem anchored_nil (is : List Instruction) : Anchored is [] :=
  List.nil_sublist _

theorem anchored_singleton {is : List Instruction} {i : Instruction} (hi : i ∈ is)
    (message fix : Option String) : Anchored is [matchAt i message fix] :=
  List.singleton_sublist.mpr (List.mem_map_of_mem (f := Instruction.place) hi)

theorem anchored_map_filter {make : Instruction → Match} (hmake : ∀ i, (make i).place = i.place)
    (test : Instruction → Bool) (is : List Instruction) :
    Anchored is ((is.filter test).map make) := by
  have hplaces : ((is.filter test).map make).map Match.place =
      (is.filter test).map Instruction.place := by
    rw [List.map_map]
    exact List.map_congr_left fun i _ => hmake i
  rw [Anchored, hplaces]
  exact List.filter_sublist.map Instruction.place

theorem anchored_eachThat (test : Instruction → Bool) (is : List Instruction) :
    Anchored is (eachThat test is) :=
  anchored_map_filter (fun _ => rfl) test is

theorem anchored_filterMap {g : Instruction → Option Match}
    (hg : ∀ i m, g i = some m → m.place = i.place) (is : List Instruction) :
    Anchored is (is.filterMap g) := by
  induction is with
  | nil => exact anchored_nil []
  | cons i is ih =>
      cases hi : g i with
      | none =>
          rw [List.filterMap_cons_none hi]
          exact ih.of_sublist (List.sublist_cons_self i is)
      | some m =>
          rw [List.filterMap_cons_some hi, Anchored, List.map_cons, List.map_cons, hg i m hi]
          exact List.Sublist.cons_cons _ ih

/-! ## Rules -/

/-- The check gives matches that stand at the instructions of the document. -/
def Anchors (f : Document → Patterns → List Match) : Prop :=
  ∀ d p, Document.WellStaged d → Anchored d.instructions (f d p)

theorem anchors_eachThat (test : Document → Patterns → Instruction → Bool) :
    Anchors fun d p => eachThat (test d p) d.instructions :=
  fun d p _ => anchored_eachThat (test d p) d.instructions

theorem secretInVariable_anchors : Anchors secretInVariable := by
  intro d p _
  refine anchored_filterMap (fun i m hm => ?_) d.instructions
  obtain ⟨name, -, rfl⟩ := Option.map_eq_some_iff.mp hm
  rfl

theorem sensitivePort_anchors : Anchors sensitivePort := by
  intro d p _
  refine anchored_filterMap (fun i m hm => ?_) d.instructions
  obtain ⟨-, hm⟩ := Option.ite_none_right_eq_some.mp hm
  cases hm
  rfl

theorem addForLocal_anchors : Anchors addForLocal := by
  intro d p _
  exact anchored_map_filter (fun _ => rfl) addsLocalFiles d.instructions

theorem toolchainShipped_anchors : Anchors toolchainShipped := by
  intro d p _
  rw [toolchainShipped]
  split
  · exact anchored_nil _
  · refine anchored_filterMap (fun i m hm => ?_) d.instructions
    obtain ⟨-, hm⟩ := Option.ite_none_right_eq_some.mp hm
    cases hm
    rfl

/-! ### The last stage -/

theorem finalStage_sublist (d : Document) : d.finalStage.Sublist d.instructions :=
  List.filter_sublist

theorem mem_of_stageFrom? {d : Document} {index : Nat} {i : Instruction}
    (h : d.stageFrom? index = some i) : i ∈ d.instructions :=
  List.mem_of_mem_filter (List.mem_of_find?_eq_some h)

theorem bloatedBase_anchors : Anchors bloatedBase := by
  intro d p _
  refine (anchored_eachThat _ _).of_sublist ?_
  cases hfrom : d.stageFrom? d.finalIndex with
  | none => exact List.nil_sublist _
  | some i => exact List.singleton_sublist.mpr (mem_of_stageFrom? hfrom)

theorem shellForm_anchors : Anchors shellForm := by
  intro d p _
  exact (anchored_map_filter (fun _ => rfl) _ d.finalStage).of_sublist (finalStage_sublist d)

theorem healthUnchecked_anchors : Anchors healthUnchecked := by
  intro d p _
  rw [healthUnchecked]
  split
  · exact anchored_nil _
  · cases hexpose : d.finalStage.find? (·.keyword == "EXPOSE") with
    | none => exact anchored_nil _
    | some i =>
        have hi : i ∈ d.finalStage := List.mem_of_find?_eq_some hexpose
        exact anchored_singleton ((finalStage_sublist d).subset hi) none none

theorem runsAsRoot_anchors : Anchors runsAsRoot := by
  intro d p _
  rw [runsAsRoot]
  cases hlast : (d.finalStage.filter (·.keyword == "USER")).getLast? with
  | some last =>
      have hmem : last ∈ d.finalStage := List.mem_of_mem_filter (List.mem_of_getLast? hlast)
      dsimp only
      split
      · exact anchored_singleton ((finalStage_sublist d).subset hmem) _ none
      · exact anchored_nil _
  | none =>
      cases hanchor : (d.stageFrom? d.finalIndex).or d.finalStage.head? with
      | none => exact anchored_nil _
      | some i =>
          have hi : i ∈ d.instructions := by
            rcases Option.or_eq_some_iff.mp hanchor with hfrom | ⟨-, hhead⟩
            · exact mem_of_stageFrom? hfrom
            · exact (finalStage_sublist d).subset (List.mem_of_head? hhead)
          exact anchored_singleton hi none none

/-! ### Stage by stage -/

theorem anchored_withMessage (f : Instruction → List Instruction → Option String)
    (is : List Instruction) : Anchored is (withMessage f is) := by
  induction is with
  | nil => exact anchored_nil []
  | cons i is ih =>
      have hi : Anchored [i] ((f i is).map fun message => matchAt i (some message)).toList := by
        cases f i is with
        | none => exact anchored_nil _
        | some message => exact anchored_singleton (List.mem_singleton_self i) _ none
      rw [withMessage_cons]
      exact hi.append ih

/-- Only what comes behind the first instruction is reported: the second of two commands. -/
theorem anchored_adjacentRuns (is : List Instruction) : Anchored is.tail (adjacentRuns is) := by
  induction is with
  | nil => exact anchored_nil []
  | cons i is ih =>
      cases is with
      | nil => exact anchored_nil []
      | cons j is =>
          have hj : ∀ message, Anchored [j] [matchAt j message] :=
            fun message => anchored_singleton (List.mem_singleton_self j) message none
          rw [adjacentRuns]
          dsimp only [List.tail_cons] at ih ⊢
          split
          · exact (hj _).append ih
          · exact ih.of_sublist (List.sublist_cons_self j is)

/-- A rule that goes through the stages one by one goes through the file. -/
theorem anchors_stages {f : Patterns → List Instruction → List Match}
    (h : ∀ p is, Anchored is (f p is)) : Anchors fun d p => d.stages.flatMap (f p) := by
  intro d p hstaged
  have hblocks : ∀ blocks : List (List Instruction),
      Anchored blocks.flatten (blocks.flatMap (f p)) := by
    intro blocks
    induction blocks with
    | nil => exact anchored_nil []
    | cons block blocks ih => exact (h p block).append ih
  have hstages := hblocks d.stages
  rwa [Document.flatten_stages hstaged] at hstages

/-! ## All rules on Dockerfiles -/

/-- A rule that checks Dockerfiles by a function whose matches stand at their instructions. -/
def AnchorsMatches (rule : Rule) : Prop :=
  ∃ f, rule.check = .ofDockerfile f ∧ Anchors f

theorem imageSecurityRules_anchor : ∀ rule ∈ imageSecurityRules, rule.AnchorsMatches := by
  simp only [imageSecurityRules, List.forall_mem_cons, List.not_mem_nil, IsEmpty.forall_iff,
    implies_true, and_true]
  refine ⟨⟨_, rfl, anchors_eachThat _⟩, ⟨_, rfl, runsAsRoot_anchors⟩,
    ⟨_, rfl, secretInVariable_anchors⟩, ⟨_, rfl, anchors_eachThat _⟩,
    ⟨_, rfl, anchors_eachThat _⟩, ⟨_, rfl, shellForm_anchors⟩, ⟨_, rfl, anchors_eachThat _⟩,
    ⟨_, rfl, anchors_eachThat _⟩, ⟨_, rfl, sensitivePort_anchors⟩,
    ⟨_, rfl, anchors_stages fun _ => anchored_withMessage _⟩⟩

theorem optimizationRules_anchor : ∀ rule ∈ optimizationRules, rule.AnchorsMatches := by
  simp only [optimizationRules, List.forall_mem_cons, List.not_mem_nil, IsEmpty.forall_iff,
    implies_true, and_true]
  refine ⟨⟨_, rfl, anchors_eachThat _⟩, ⟨_, rfl, bloatedBase_anchors⟩,
    ⟨_, rfl, anchors_stages fun _ => anchored_withMessage _⟩, ⟨_, rfl, anchors_eachThat _⟩,
    ⟨_, rfl, anchors_eachThat _⟩, ⟨_, rfl, anchors_eachThat _⟩, ⟨_, rfl, anchors_eachThat _⟩,
    ⟨_, rfl, anchors_stages fun _ is => ?_⟩, ⟨_, rfl, addForLocal_anchors⟩,
    ⟨_, rfl, healthUnchecked_anchors⟩, ⟨_, rfl, toolchainShipped_anchors⟩,
    ⟨_, rfl, anchors_eachThat _⟩, ⟨_, rfl, anchors_eachThat _⟩⟩
  exact (anchored_adjacentRuns is).of_sublist (List.tail_sublist is)

theorem anchors_of_mem_ofKind {rule : Rule} (h : rule ∈ Registry.standard.ofKind .dockerfile) :
    rule.AnchorsMatches := by
  rw [Registry.standard_ofKind_dockerfile] at h
  rcases List.mem_append.mp h with hmem | hmem
  · exact imageSecurityRules_anchor rule hmem
  · exact optimizationRules_anchor rule hmem

end Rule

end ContainerAudit
