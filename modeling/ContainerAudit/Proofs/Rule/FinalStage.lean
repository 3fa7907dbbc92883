import ContainerAudit.Proofs.Dockerfile.Concatenation
import ContainerAudit.Proofs.Dockerfile.StagePartition
import ContainerAudit.Proofs.Rule.Displacement

/-!
# Rules on the last stage of a file

Four rules look at what the last stage makes of the image: the user it runs as, the form of its
process, its base image and its health check.  Nothing above the last stage has a say in them: put a
file that opens a stage behind any other one, and what they find in it is what they find in the
second file alone, further down (`parse_append_final_stage`).

That this holds is a matter of numbers.  The stages of the second file are counted on from those of
the first, so the last number is one of the second file (`finalStage_append`), provided that the
first file has a `FROM` and the second one starts with one: what comes before the first `FROM` of a
file is taken to its first stage.

The rule on users reports a file at most once, whatever its stages are.
-/

namespace ContainerAudit

open ContainerAudit.Dockerfile (Instruction Document Staged parse escapeChar continued)

namespace Dockerfile

/-! ## The last stage behind another file -/

/-- Behind a `FROM`, instructions that are counted on keep their stages apart from those before. -/
theorem Staged.continued_eq_map (lines froms : Nat) {before : Nat} {is : List Instruction}
    (h : Staged (before + 1) is) :
    continued lines (froms + (before + 1)) is = is.map (·.behind lines froms) := by
  induction is generalizing before with
  | nil => rfl
  | cons i is ih =>
      obtain ⟨hi, his⟩ := h
      have hstage : froms + (before + 1) + i.isFrom.toNat - 1 = i.stage + froms := by omega
      have hnext : before + 1 + i.isFrom.toNat = before + i.isFrom.toNat + 1 := by omega
      rw [hnext] at his
      rw [continued_cons, List.map_cons, hstage, Nat.add_assoc, hnext, ih his]
      rfl

theorem Staged.continued_opened (lines froms : Nat) {opening : Instruction}
    {is : List Instruction} (h : Staged 0 (opening :: is)) (hopen : opening.isFrom = true) :
    continued lines froms (opening :: is) = (opening :: is).map (·.behind lines froms) := by
  obtain ⟨hstage, his⟩ := h
  rw [hopen, Bool.toNat_true] at hstage his
  have hzero : froms + 1 - 1 = opening.stage + froms := by omega
  rw [continued_cons, hopen, Bool.toNat_true, hzero, List.map_cons]
  exact congrArg _ (his.continued_eq_map lines froms)

theorem countP_isFrom_behind (lines froms : Nat) (is : List Instruction) :
    (is.map (·.behind lines froms)).countP (·.isFrom) = is.countP (·.isFrom) := by
  rw [List.countP_map]
  rfl

/-- The last stage of two files, one behind the other, is the last stage of the second. -/
theorem Document.finalStage_append (lines : Nat) {is : List Instruction} {d : Document}
    (h : Staged 0 is) (hfrom : is.countP (·.isFrom) ≠ 0) (hstaged : d.WellStaged)
    (hd : d.instructions.countP (·.isFrom) ≠ 0) :
    (ofInstructions (is ++ d.instructions.map (·.behind lines (is.countP (·.isFrom))))).finalStage =
      d.finalStage.map (·.behind lines (is.countP (·.isFrom))) := by
  generalize hfroms : is.countP (·.isFrom) = froms at hfrom ⊢
  have hindex : (ofInstructions (is ++ d.instructions.map (·.behind lines froms))).finalIndex =
      d.finalIndex + froms := by
    have hcount : (is ++ d.instructions.map (·.behind lines froms)).countP (·.isFrom) =
        froms + d.instructions.countP (·.isFrom) := by
      rw [List.countP_append, countP_isFrom_behind, hfroms]
    have htotal : stagesOf (is ++ d.instructions.map (·.behind lines froms)) =
        froms + d.instructions.countP (·.isFrom) := by
      rw [stagesOf_of_from (by rw [hcount]; omega), hcount]
    change stagesOf _ - 1 = _
    rw [htotal, finalIndex, stageCount_of_from hstaged hd]
    omega
  have hbefore : is.filter (·.stage == d.finalIndex + froms) = [] := by
    refine List.filter_eq_nil_iff.mpr fun i hi => ?_
    have hle := (h.bounds i hi).2
    rw [beq_iff_eq]
    omega
  have hbehind : ∀ i : Instruction,
      ((i.behind lines froms).stage == d.finalIndex + froms) = (i.stage == d.finalIndex) := by
    intro i
    rw [Bool.eq_iff_iff, beq_iff_eq, beq_iff_eq]
    exact Nat.add_right_cancel_iff
  rw [finalStage, stage, hindex, ofInstructions, List.filter_append, hbefore, List.nil_append,
    List.filter_map]
  exact congrArg _ (List.filter_congr fun i _ => hbehind i)

theorem finalStage_ne_nil {d : Document} (h : d.WellStaged)
    (hne : d.instructions ≠ []) : d.finalStage ≠ [] := by
  by_cases hmany : 2 ≤ d.instructions.countP (·.isFrom)
  · obtain ⟨-, opening, after, -, -, -, hfinal⟩ := Document.finalStage_of_froms h hmany
    exact hfinal ▸ List.cons_ne_nil opening after
  · rwa [Document.finalStage_of_one_from h (Nat.not_le.mp hmany)]

end Dockerfile

namespace Rule

/-- The rules that look at the last stage only. -/
def finalStageRules : List (String × (Document → Patterns → List Match)) :=
  [("SEC-002", runsAsRoot), ("SEC-006", shellForm), ("OPT-002", bloatedBase),
    ("OPT-010", healthUnchecked)]

theorem finalStageRules_onFinalStage : ∀ rule ∈ finalStageRules,
    (Registry.standard.get? rule.1).map Rule.check = some (.ofDockerfile rule.2) ∧
      OnFinalStage rule.2 := by
  simp only [finalStageRules, List.forall_mem_cons, List.not_mem_nil, IsEmpty.forall_iff,
    implies_true, and_true]
  exact ⟨⟨rfl, runsAsRoot_onFinalStage⟩, ⟨rfl, shellForm_onFinalStage⟩,
    ⟨rfl, bloatedBase_onFinalStage⟩, ⟨rfl, healthUnchecked_onFinalStage⟩⟩

/-! ## How often a file is reported for its user -/

theorem length_runsAsRoot_le (d : Document) (p : Patterns) : (runsAsRoot d p).length ≤ 1 := by
  rw [runsAsRoot]
  split
  · split <;> simp
  · cases (d.stageFrom? d.finalIndex).or d.finalStage.head? <;> simp

theorem length_runsAsRoot_of_no_user {d : Document} (hne : d.finalStage ≠ [])
    (huser : ∀ i ∈ d.finalStage, i.keyword ≠ "USER") (p : Patterns) :
    (runsAsRoot d p).length = 1 := by
  have hnone : d.finalStage.filter (·.keyword == "USER") = [] := by
    refine List.filter_eq_nil_iff.mpr fun i hi => ?_
    simpa using huser i hi
  obtain ⟨first, rest, hfinal⟩ := List.exists_cons_of_ne_nil hne
  simp only [runsAsRoot, hnone, List.getLast?_nil]
  rw [hfinal, List.head?_cons]
  cases d.stageFrom? d.finalIndex <;> rfl

/-- **Nothing before the last stage has a say in the rules on it.**  They find in two files, one
behind the other, what they find in the second alone, further down.  The rule on users gives at most
one match on a file, and exactly one if there are instructions and none of the last stage sets a
user. -/
theorem parse_append_final_stage :
    (∀ (t₁ t₂ : String) (d₁ d₂ : Document) (escape : Char), t₁.toList.getLast? = some '\n' →
      parse t₁ = .ok d₁ → parse t₂ = .ok d₂ →
      (∃ i ∈ d₁.instructions, i.keyword = "FROM") →
      (∃ i ∈ d₂.instructions.head?, i.keyword = "FROM") →
      escapeChar (Text.lines t₁.toList) = escape →
      escapeChar (Text.lines t₂.toList) = escape →
      escapeChar (Text.lines (t₁ ++ t₂).toList) = escape →
      ∃ d, parse (t₁ ++ t₂) = .ok d ∧ ∀ rule ∈ finalStageRules,
        (Registry.standard.get? rule.1).map Rule.check = some (.ofDockerfile rule.2) ∧
        ∀ p, rule.2 d p = (rule.2 d₂ p).map (·.shift (Text.lines t₁.toList).length)) ∧
    (∀ d p, (runsAsRoot d p).length ≤ 1) ∧
    ∀ text d p, parse text = .ok d → d.instructions ≠ [] →
      (∀ i ∈ d.finalStage, i.keyword ≠ "USER") → (runsAsRoot d p).length = 1 := by
  refine ⟨?_, length_runsAsRoot_le, ?_⟩
  · intro t₁ t₂ d₁ d₂ escape hend h₁ h₂ hfrom hfirst he₁ he₂ he
    obtain ⟨opening, hhead, hkeyword⟩ := hfirst
    obtain ⟨is, his⟩ := List.head?_eq_some_iff.mp hhead
    have hopen : opening.isFrom = true := beq_iff_eq.mpr hkeyword
    have hd₂ := Dockerfile.parse_wellStaged h₂
    have hstaged := hd₂.staged
    have hread := (Dockerfile.parse_append t₁ t₂ (.inr hend) h₁ he₁ he₂ he).1 d₂ h₂
    rw [his] at hstaged
    rw [his, hstaged.continued_opened _ _ hopen, ← his] at hread
    refine ⟨_, hread, fun rule hrule => ?_⟩
    obtain ⟨hcheck, hfinal⟩ := finalStageRules_onFinalStage rule hrule
    refine ⟨hcheck, fun p => hfinal _ _ d₂ _ p (Document.finalStage_append _
      (Dockerfile.parse_wellStaged h₁).staged ?_ hd₂ ?_)⟩
    · obtain ⟨i, hi, hkeyword⟩ := hfrom
      exact Nat.ne_of_gt (List.countP_pos_iff.mpr ⟨i, hi, beq_iff_eq.mpr hkeyword⟩)
    · rw [his, List.countP_cons_of_pos hopen]
      exact Nat.succ_ne_zero _
  · intro text d p h hne huser
    have hstage := Dockerfile.finalStage_ne_nil (Dockerfile.parse_wellStaged h) hne
    exact length_runsAsRoot_of_no_user hstage huser p

/-- The first file sets a user, checks its health and has a `FROM` in the body of a here-document.
The second does none of this and is reported for all of it, from the eighth line on. -/
theorem parse_append_final_stage_behind_heredoc :
    ∃ d, parse ("FROM a\nUSER u\nCMD [\"x\"]\nHEALTHCHECK NONE\nRUN <<E\nFROM z\nE\n" ++
        "FROM debian\nEXPOSE 80\nCMD run\n") = .ok d ∧
      runsAsRoot d .standard = [⟨8, "FROM debian", none, none⟩] ∧
      shellForm d .standard = [⟨10, "CMD run", none, some "Use exec form: CMD [\"run\"]"⟩] ∧
      bloatedBase d .standard = [⟨8, "FROM debian", none, none⟩] ∧
      healthUnchecked d .standard = [⟨9, "EXPOSE 80", none, none⟩] ∧
      (runsAsRoot ⟨[⟨"FROM", "debian", 1, 0⟩, ⟨"EXPOSE", "80", 2, 0⟩, ⟨"CMD", "run", 3, 0⟩], 1⟩
        .standard).length = 1 := by
  have h₁ : parse "FROM a\nUSER u\nCMD [\"x\"]\nHEALTHCHECK NONE\nRUN <<E\nFROM z\nE\n" =
      .ok ⟨[⟨"FROM", "a", 1, 0⟩, ⟨"USER", "u", 2, 0⟩, ⟨"CMD", "[\"x\"]", 3, 0⟩,
        ⟨"HEALTHCHECK", "NONE", 4, 0⟩, ⟨"RUN", "<<E\nFROM z\nE", 5, 0⟩], 1⟩ := by
    decide +kernel
  have h₂ : parse "FROM debian\nEXPOSE 80\nCMD run\n" =
      .ok ⟨[⟨"FROM", "debian", 1, 0⟩, ⟨"EXPOSE", "80", 2, 0⟩, ⟨"CMD", "run", 3, 0⟩], 1⟩ := by
    decide +kernel
  obtain ⟨hbehind, -, honce⟩ := parse_append_final_stage
  obtain ⟨d, hd, hrules⟩ := hbehind _ _ _ _ '\\' (by decide) h₁ h₂
    ⟨_, List.mem_cons_self, rfl⟩ ⟨_, rfl, rfl⟩ (by decide) (by decide) (by decide)
  refine ⟨d, hd, ?_, ?_, ?_, ?_, honce _ _ _ h₂ (by simp) (by decide)⟩
  · refine ((hrules ("SEC-002", runsAsRoot) (by simp [finalStageRules])).2 .standard).trans ?_
    decide +kernel
  · refine ((hrules ("SEC-006", shellForm) (by simp [finalStageRules])).2 .standard).trans ?_
    decide +kernel
  · refine ((hrules ("OPT-002", bloatedBase) (by simp [finalStageRules])).2 .standard).trans ?_
    decide +kernel
  · refine ((hrules ("OPT-010", healthUnchecked) (by simp [finalStageRules])).2 .standard).trans ?_
    decide +kernel

end Rule

end ContainerAudit
