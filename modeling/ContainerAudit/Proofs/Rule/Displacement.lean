import ContainerAudit.Proofs.Dockerfile.Displacement
import ContainerAudit.Rule.Registry
import Mathlib.Data.List.Forall2

/-!
# Rules on documents further down

A rule finds in a document what it finds in the same document further down the file.  Its tests do
not look at lines, so its matches are the same ones, moved (`movesWithText_of_mem_ofKind`).

Three rules quote the line of a second instruction in their messages: that of a removal, of an
installation, and of a command before.  What they say there is a fixed text with the number of a
line in it (`quotation?`), and this number moves as well (`Match.Moved`).

Four rules look at the last stage only.  What they find moves with that stage, even if other stages
come before it (`OnFinalStage`).
-/

namespace ContainerAudit

open ContainerAudit.Dockerfile (Instruction Document)

/-! ## Matches that move -/

/-- A message that quotes the number of a line: the text before the number and the text after it. -/
structure Quotation where
  before : String
  after : String
  before_ne : before ≠ "" := by decide

def Quotation.message (q : Quotation) (line : Nat) : String :=
  q.before ++ toString line ++ q.after

/-- What the messages of a rule say around the number of a line, for the rules that quote one. -/
def quotation? (rule : String) : Option Quotation :=
  if rule = "SEC-010" then
    some { before := "Secret file copied here is removed on line ",
           after := ", but remains in the earlier layer." }
  else if rule = "OPT-003" then
    some { before := "Dependencies are installed on line ",
           after := ", after the full context copy." }
  else if rule = "OPT-008" then
    some { before := "RUN follows the RUN on line ", after := "." }
  else none

def Match.shift (k : Nat) (m : Match) : Match :=
  { m with line := m.line + k }

/-- `m.Moved q k m'`: the match `m'` is `m`, `k` lines further down.  Where messages quote the
number of a line, this number is `k` more as well; else the messages are the same. -/
inductive Match.Moved (k : Nat) : Option Quotation → Match → Match → Prop
  | plain (m : Match) : Match.Moved k none m (m.shift k)
  | quoting (q : Quotation) (quoted : Nat) (m : Match) (h : m.message = some (q.message quoted)) :
      Match.Moved k (some q) m { m.shift k with message := some (q.message (quoted + k)) }

theorem forall₂_moved_map (k : Nat) (found : List Match) :
    List.Forall₂ (Match.Moved k none) found (found.map (·.shift k)) := by
  rw [List.forall₂_map_right_iff]
  exact List.forall₂_same.mpr fun m _ => .plain m

namespace Rule

/-- The check, on a document further down, gives the same matches further down. -/
def Displaces (q? : Option Quotation) (f : Document → Patterns → List Match) : Prop :=
  ∀ k d p, List.Forall₂ (Match.Moved k q?) (f d p) (f (d.shift k) p)

theorem displaces_of_map {f : Document → Patterns → List Match}
    (h : ∀ k d p, f (d.shift k) p = (f d p).map (·.shift k)) : Displaces none f := by
  intro k d p
  rw [h]
  exact forall₂_moved_map k (f d p)

section Behind

variable (lines froms : Nat)

theorem map_filter_behind {test : Instruction → Bool} {make : Instruction → Match}
    (htest : ∀ i, test (i.behind lines froms) = test i)
    (hmake : ∀ i, make (i.behind lines froms) = (make i).shift lines) (is : List Instruction) :
    ((is.map (·.behind lines froms)).filter test).map make =
      ((is.filter test).map make).map (·.shift lines) := by
  rw [List.filter_map, List.map_map, List.map_map]
  have htests : test ∘ (·.behind lines froms) = test := funext htest
  rw [htests]
  exact List.map_congr_left fun i _ => hmake i

theorem matchAt_behind (i : Instruction) (message fix : Option String) :
    matchAt (i.behind lines froms) message fix = (matchAt i message fix).shift lines := by
  simp only [matchAt, Match.shift, Instruction.behind, Int.natCast_add]
  rfl

theorem toList_map_matchAt_behind (i? : Option Instruction) :
    ((i?.map (·.behind lines froms)).map matchAt).toList =
      ((i?.map matchAt).toList).map (·.shift lines) := by
  cases i? with
  | none => rfl
  | some i => exact congrArg (· :: []) (matchAt_behind lines froms i none none)

end Behind

section Shift

variable (k : Nat)

theorem filterMap_shift {g : Instruction → Option Match}
    (h : ∀ i, g (i.shift k) = (g i).map (·.shift k)) (is : List Instruction) :
    (is.map (·.shift k)).filterMap g = (is.filterMap g).map (·.shift k) := by
  rw [List.filterMap_map, List.map_filterMap]
  exact List.filterMap_congr fun i _ => h i

theorem map_filter_shift {test : Instruction → Bool} {make : Instruction → Match}
    (htest : ∀ i, test (i.shift k) = test i) (hmake : ∀ i, make (i.shift k) = (make i).shift k)
    (is : List Instruction) :
    ((is.map (·.shift k)).filter test).map make = ((is.filter test).map make).map (·.shift k) :=
  map_filter_behind k 0 htest hmake is

theorem matchAt_shift (i : Instruction) (message fix : Option String) :
    matchAt (i.shift k) message fix = (matchAt i message fix).shift k :=
  matchAt_behind k 0 i message fix

theorem eachThat_shift {test : Instruction → Bool} (htest : ∀ i, test (i.shift k) = test i)
    (is : List Instruction) :
    eachThat test (is.map (·.shift k)) = (eachThat test is).map (·.shift k) :=
  map_filter_shift k htest (fun i => matchAt_shift k i none none) is

end Shift

/-! ## Rules on single instructions -/

/-- A rule that tests each instruction on its own, whatever its line. -/
theorem displaces_eachThat {test : Patterns → Instruction → Bool}
    (htest : ∀ k p i, test p (i.shift k) = test p i) :
    Displaces none fun d p => eachThat (test p) d.instructions :=
  displaces_of_map fun k d p => eachThat_shift k (htest k p) d.instructions

theorem displaces_filterMap {g : Patterns → Instruction → Option Match}
    (hg : ∀ k p i, g p (i.shift k) = (g p i).map (·.shift k)) :
    Displaces none fun d p => d.instructions.filterMap (g p) :=
  displaces_of_map fun k d p => filterMap_shift k (hg k p) d.instructions

theorem unpinnedBase_displaces : Displaces none unpinnedBase := by
  refine displaces_of_map fun k d p => ?_
  rw [unpinnedBase, Document.stageNames_shift]
  exact eachThat_shift k (fun _ => rfl) d.instructions

theorem secretInVariable_displaces : Displaces none secretInVariable := by
  refine displaces_filterMap fun k p i => ?_
  rw [Option.map_map]
  exact congrArg (Option.map · _) (funext fun name => matchAt_shift k i _ _)

theorem sensitivePort_displaces : Displaces none sensitivePort := by
  refine displaces_filterMap fun k p i => ?_
  rw [apply_ite (Option.map _)]
  exact congrArg (fun m => ite _ (some m) none) (matchAt_shift k i _ _)

theorem addForLocal_displaces : Displaces none addForLocal :=
  displaces_of_map fun k d _ =>
    map_filter_shift k (fun _ => rfl) (fun i => matchAt_shift k i _ _) d.instructions

theorem toolchainShipped_displaces : Displaces none toolchainShipped := by
  refine displaces_of_map fun k d p => ?_
  rw [toolchainShipped, Document.stageCount_shift, toolchainShipped]
  split
  · rfl
  · refine filterMap_shift k (fun i => ?_) d.instructions
    rw [apply_ite (Option.map _)]
    exact congrArg (fun m => ite _ (some m) none) (matchAt_shift k i _ _)

/-! ## Rules on the last stage -/

/-- A rule that looks at the last stage only, and neither at lines nor at the number of the stage:
where a stage comes further down and behind other stages, what the rule finds in it moves with
it. -/
def OnFinalStage (f : Document → Patterns → List Match) : Prop :=
  ∀ lines froms (d d' : Document) p, d'.finalStage = d.finalStage.map (·.behind lines froms) →
    f d' p = (f d p).map (·.shift lines)

theorem OnFinalStage.displaces {f : Document → Patterns → List Match} (h : OnFinalStage f) :
    Displaces none f :=
  displaces_of_map fun k d p => h k 0 d (d.shift k) p (Document.finalStage_shift k d)

theorem stageFrom?_behind {lines froms : Nat} {d d' : Document}
    (h : d'.finalStage = d.finalStage.map (·.behind lines froms)) :
    d'.stageFrom? d'.finalIndex = (d.stageFrom? d.finalIndex).map (·.behind lines froms) := by
  show d'.finalStage.find? (·.isFrom) = (d.finalStage.find? (·.isFrom)).map _
  rw [h, List.find?_map]
  rfl

theorem bloatedBase_onFinalStage : OnFinalStage bloatedBase := by
  intro lines froms d d' p h
  rw [bloatedBase, stageFrom?_behind h, Option.toList_map]
  exact map_filter_behind lines froms (fun _ => rfl) (fun i => matchAt_behind lines froms i _ _) _

theorem shellForm_onFinalStage : OnFinalStage shellForm := by
  intro lines froms d d' p h
  rw [shellForm, h]
  exact map_filter_behind lines froms (fun _ => rfl) (fun i => matchAt_behind lines froms i _ _) _

theorem healthUnchecked_onFinalStage : OnFinalStage healthUnchecked := by
  intro lines froms d d' p h
  have hcheck : d'.finalStage.any (·.keyword == "HEALTHCHECK") =
      d.finalStage.any (·.keyword == "HEALTHCHECK") := by
    rw [h, List.any_map]
    rfl
  have hexpose : d'.finalStage.find? (·.keyword == "EXPOSE") =
      (d.finalStage.find? (·.keyword == "EXPOSE")).map (·.behind lines froms) := by
    rw [h, List.find?_map]
    rfl
  rw [healthUnchecked, hcheck, hexpose, healthUnchecked]
  split
  · rfl
  · exact toList_map_matchAt_behind lines froms _

theorem runsAsRoot_onFinalStage : OnFinalStage runsAsRoot := by
  intro lines froms d d' p h
  have husers : (d'.finalStage.filter (·.keyword == "USER")).getLast? =
      (d.finalStage.filter (·.keyword == "USER")).getLast?.map (·.behind lines froms) := by
    rw [h, List.filter_map, List.getLast?_map]
    rfl
  have hanchor : (d'.stageFrom? d'.finalIndex).or d'.finalStage.head? =
      ((d.stageFrom? d.finalIndex).or d.finalStage.head?).map (·.behind lines froms) := by
    rw [stageFrom?_behind h, h, List.head?_map]
    cases d.stageFrom? d.finalIndex <;> rfl
  rw [runsAsRoot, husers, hanchor, runsAsRoot]
  cases (d.finalStage.filter (·.keyword == "USER")).getLast? with
  | none => exact toList_map_matchAt_behind lines froms _
  | some last =>
      have huser : userName (last.behind lines froms).arguments = userName last.arguments := rfl
      simp only [Option.map_some, huser]
      split
      · exact congrArg (· :: []) (matchAt_behind lines froms last _ none)
      · rfl

/-! ## Rules that look at what comes behind -/

theorem withMessage_cons (f : Instruction → List Instruction → Option String) (i : Instruction)
    (is : List Instruction) :
    withMessage f (i :: is) =
      ((f i is).map fun message => matchAt i (some message)).toList ++ withMessage f is := by
  simp only [withMessage, withRest, List.filterMap_cons]
  cases f i is <;> rfl

theorem matchAt_moved (k : Nat) (q : Quotation) (i j : Instruction) :
    Match.Moved k (some q) (matchAt i (some (q.message j.line)))
      (matchAt (i.shift k) (some (q.message (j.shift k).line))) := by
  rw [matchAt_shift]
  exact .quoting q j.line (matchAt i (some (q.message j.line))) rfl

/-- The messages quote the line of an instruction that is searched for behind another one. -/
theorem withMessage_moved {k : Nat} {q : Quotation}
    {f : Instruction → List Instruction → Option String}
    (search : Instruction → List Instruction → Option Instruction)
    (hf : ∀ i rest, f i rest = (search i rest).map fun j => q.message j.line)
    (hsearch : ∀ i rest, search (i.shift k) (rest.map (·.shift k)) =
      (search i rest).map (·.shift k)) (is : List Instruction) :
    List.Forall₂ (Match.Moved k (some q)) (withMessage f is)
      (withMessage f (is.map (·.shift k))) := by
  induction is with
  | nil => exact .nil
  | cons i is ih =>
      rw [List.map_cons, withMessage_cons, withMessage_cons, hf, hf, hsearch]
      refine List.rel_append ?_ ih
      cases search i is with
      | none => exact .nil
      | some j => exact .cons (matchAt_moved k q i j) .nil

theorem forall₂_flatMap {α : Type} {R : Match → Match → Prop} {f g : α → List Match} (l : List α)
    (h : ∀ a ∈ l, List.Forall₂ R (f a) (g a)) : List.Forall₂ R (l.flatMap f) (l.flatMap g) := by
  induction l with
  | nil => exact .nil
  | cons a l ih =>
      obtain ⟨ha, hl⟩ := List.forall_mem_cons.mp h
      exact List.rel_append ha (ih hl)

/-- A rule that goes through the stages one by one. -/
theorem displaces_stages {q? : Option Quotation} {f : Patterns → List Instruction → List Match}
    (h : ∀ k p is, List.Forall₂ (Match.Moved k q?) (f p is) (f p (is.map (·.shift k)))) :
    Displaces q? fun d p => d.stages.flatMap (f p) := by
  intro k d p
  simp only [Document.stages_shift, List.flatMap_map]
  exact forall₂_flatMap _ fun stage _ => h k p stage

theorem secretRemovedLater_displaces :
    Displaces (quotation? "SEC-010") secretRemovedLater := by
  refine displaces_stages fun k p => withMessage_moved (fun i rest =>
    if isCopy i then
      rest.find? (removes (secretNames (p.entries .secretFilePatterns) i.arguments.toList))
    else none) (fun i rest => ?_) fun i rest => ?_
  · rw [removalMessage?]
    split <;> rfl
  · rw [List.find?_map, apply_ite (Option.map _)]
    rfl

theorem contextCopiedFirst_displaces :
    Displaces (quotation? "OPT-003") contextCopiedFirst := by
  refine displaces_stages fun k p => withMessage_moved (fun i rest =>
    if copiesContext i then rest.find? (installsDependencies (p.entries .dependencyInstallCommands))
    else none) (fun i rest => ?_) fun i rest => ?_
  · rw [contextMessage?]
    split <;> rfl
  · rw [List.find?_map, apply_ite (Option.map _)]
    rfl

theorem consecutiveRuns_displaces : Displaces (quotation? "OPT-008") consecutiveRuns := by
  refine displaces_stages fun k _ is => ?_
  induction is with
  | nil => exact .nil
  | cons i is ih =>
      cases is with
      | nil => exact .nil
      | cons j is =>
          have hruns : ((i.shift k).keyword == "RUN" && (j.shift k).keyword == "RUN") =
              (i.keyword == "RUN" && j.keyword == "RUN") := rfl
          rw [List.map_cons, List.map_cons, adjacentRuns, adjacentRuns, hruns]
          split
          · exact .cons (matchAt_moved k _ j i) ih
          · exact ih

/-! ## All rules on Dockerfiles -/

/-- A rule that checks Dockerfiles by a function that moves with them. -/
def MovesWithText (rule : Rule) : Prop :=
  ∃ f, rule.check = .ofDockerfile f ∧ Displaces (quotation? rule.id) f

theorem imageSecurityRules_displace : ∀ rule ∈ imageSecurityRules, rule.MovesWithText := by
  simp only [imageSecurityRules, List.forall_mem_cons, List.not_mem_nil, IsEmpty.forall_iff,
    implies_true, and_true]
  refine ⟨⟨_, rfl, displaces_eachThat fun _ _ _ => rfl⟩,
    ⟨_, rfl, runsAsRoot_onFinalStage.displaces⟩, ⟨_, rfl, secretInVariable_displaces⟩,
    ⟨_, rfl, displaces_eachThat fun _ _ _ => rfl⟩,
    ⟨_, rfl, displaces_eachThat fun _ _ _ => rfl⟩, ⟨_, rfl, shellForm_onFinalStage.displaces⟩,
    ⟨_, rfl, displaces_eachThat fun _ _ _ => rfl⟩, ⟨_, rfl, displaces_eachThat fun _ _ _ => rfl⟩,
    ⟨_, rfl, sensitivePort_displaces⟩, ⟨_, rfl, secretRemovedLater_displaces⟩⟩

theorem optimizationRules_displace : ∀ rule ∈ optimizationRules, rule.MovesWithText := by
  simp only [optimizationRules, List.forall_mem_cons, List.not_mem_nil, IsEmpty.forall_iff,
    implies_true, and_true]
  refine ⟨⟨_, rfl, unpinnedBase_displaces⟩, ⟨_, rfl, bloatedBase_onFinalStage.displaces⟩,
    ⟨_, rfl, contextCopiedFirst_displaces⟩, ⟨_, rfl, displaces_eachThat fun _ _ _ => rfl⟩,
    ⟨_, rfl, displaces_eachThat fun _ _ _ => rfl⟩, ⟨_, rfl, displaces_eachThat fun _ _ _ => rfl⟩,
    ⟨_, rfl, displaces_eachThat fun _ _ _ => rfl⟩, ⟨_, rfl, consecutiveRuns_displaces⟩,
    ⟨_, rfl, addForLocal_displaces⟩, ⟨_, rfl, healthUnchecked_onFinalStage.displaces⟩,
    ⟨_, rfl, toolchainShipped_displaces⟩, ⟨_, rfl, displaces_eachThat fun _ _ _ => rfl⟩,
    ⟨_, rfl, displaces_eachThat fun _ _ _ => rfl⟩⟩

theorem movesWithText_of_mem_ofKind {rule : Rule}
    (h : rule ∈ Registry.standard.ofKind .dockerfile) :
    rule.MovesWithText := by
  rw [Registry.standard_ofKind_dockerfile] at h
  rcases List.mem_append.mp h with hmem | hmem
  · exact imageSecurityRules_displace rule hmem
  · exact optimizationRules_displace rule hmem

end Rule

end ContainerAudit
