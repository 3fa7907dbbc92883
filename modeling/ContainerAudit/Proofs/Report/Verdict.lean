import ContainerAudit.Proofs.Report.Evaluation

/-!
# Verdicts

On each manifest that it applies to, a rule passes, or is violated, or fails.  A run shows the three
in three different lists.  Under the pairs of rule and file that name its tasks, it puts each task
into one of three sets (`mem_names_run`), which are disjoint because a pair names no more than one
task (`disjoint_names_run`).
-/

namespace ContainerAudit

/-- How a rule fares on a manifest. -/
inductive Verdict where
  | passed
  | violated
  | failed
  deriving DecidableEq, Repr

def Rule.verdict (rule : Rule) (p : Patterns) (m : Manifest) : Verdict :=
  match rule.check m p with
  | .ok [] => .passed
  | .ok (_ :: _) => .violated
  | .error _ => .failed

/-- The rules and files that an evaluation shows with a verdict. -/
def Evaluation.names (e : Evaluation) : Verdict → Finset (String × String)
  | .passed => ((e.checks.filter (·.passed)).map fun c => (c.rule, c.file)).toFinset
  | .violated => (e.findings.map fun f => (f.rule, f.file)).toFinset
  | .failed => (e.failures.map fun f => (f.rule, f.file)).toFinset

theorem names_empty (v : Verdict) : ({} : Evaluation).names v = ∅ := by
  cases v <;> rfl

theorem names_append (a b : Evaluation) (v : Verdict) :
    (a.append b).names v = a.names v ∪ b.names v := by
  cases v <;>
    simp only [Evaluation.names, Evaluation.append, List.filter_append, List.map_append,
      List.toFinset_append]

/-- What a rule gives on a manifest shows the verdict, and no other. -/
theorem names_evaluate (rule : Rule) (p : Patterns) (m : Manifest) (v : Verdict) :
    (rule.evaluate p m).names v = if rule.verdict p m = v then {(rule.id, m.path)} else ∅ := by
  rw [Rule.evaluate, Rule.verdict]
  rcases rule.check m p with reason | found
  · cases v <;> rfl
  · cases found with
    | nil => cases v <;> rfl
    | cons first rest =>
        cases v with
        | passed => rfl
        | failed => rfl
        | violated =>
            -- all findings bear the names of the rule and the file
            ext name
            simp only [Evaluation.names, List.map_map, List.mem_toFinset, List.mem_map,
              if_true, Finset.mem_singleton]
            constructor
            · rintro ⟨found, -, rfl⟩
              rfl
            · rintro rfl
              exact ⟨first, List.mem_cons_self, rfl⟩

section Run

variable (r : Registry) (p : Patterns) (suppressed : List String) {ms : List Manifest}

theorem mem_names_run {v : Verdict} {name : String × String} :
    name ∈ (r.run p suppressed ms).names v ↔
      ∃ t ∈ r.tasks suppressed ms, t.2.verdict p t.1 = v ∧ name = (t.2.id, t.1.path) := by
  rw [Registry.run]
  induction r.tasks suppressed ms with
  | nil => simp [names_empty]
  | cons t tasks ih =>
      rw [List.map_cons, List.foldr_cons, names_append, Finset.mem_union, ih, names_evaluate,
        List.exists_mem_cons_iff]
      refine or_congr_left ?_
      by_cases hv : t.2.verdict p t.1 = v
      · rw [if_pos hv, Finset.mem_singleton, and_iff_right hv]
      · rw [if_neg hv]
        exact iff_of_false (Finset.notMem_empty name) fun h => hv h.1

def taskNames (r : Registry) (suppressed : List String) (ms : List Manifest) :
    Finset (String × String) :=
  ((r.tasks suppressed ms).map fun t => (t.2.id, t.1.path)).toFinset

/-- A task has one verdict, and no other task has its name. -/
theorem disjoint_names_run (hms : OnePerPath ms) {v w : Verdict} (hne : v ≠ w) :
    Disjoint ((r.run p suppressed ms).names v) ((r.run p suppressed ms).names w) := by
  rw [Finset.disjoint_left]
  intro name hv hw
  obtain ⟨t, ht, hvt, rfl⟩ := (mem_names_run r p suppressed).mp hv
  obtain ⟨u, hu, hwu, hname⟩ := (mem_names_run r p suppressed).mp hw
  obtain ⟨hrule, hpath⟩ := Prod.mk.inj hname
  rw [task_eq hms ht hu hrule hpath] at hvt
  exact hne (hvt.symm.trans hwu)

theorem union_names_run :
    (r.run p suppressed ms).names .passed ∪ (r.run p suppressed ms).names .violated ∪
      (r.run p suppressed ms).names .failed = taskNames r suppressed ms := by
  ext name
  simp only [Finset.mem_union, mem_names_run, taskNames, List.mem_toFinset, List.mem_map]
  constructor
  · rintro ((⟨t, ht, -, rfl⟩ | ⟨t, ht, -, rfl⟩) | ⟨t, ht, -, rfl⟩) <;> exact ⟨t, ht, rfl⟩
  · rintro ⟨t, ht, rfl⟩
    cases hv : t.2.verdict p t.1 with
    | passed => exact .inl (.inl ⟨t, ht, hv, rfl⟩)
    | violated => exact .inl (.inr ⟨t, ht, hv, rfl⟩)
    | failed => exact .inr ⟨t, ht, hv, rfl⟩

theorem card_names_run (hms : OnePerPath ms) :
    ((r.run p suppressed ms).names .passed).card + ((r.run p suppressed ms).names .violated).card +
      ((r.run p suppressed ms).names .failed).card = (taskNames r suppressed ms).card := by
  have hpassed : Disjoint ((r.run p suppressed ms).names .passed)
      ((r.run p suppressed ms).names .violated) := disjoint_names_run r p suppressed hms (by decide)
  have hfailed : Disjoint ((r.run p suppressed ms).names .passed ∪
      (r.run p suppressed ms).names .violated) ((r.run p suppressed ms).names .failed) :=
    Finset.disjoint_union_left.mpr ⟨disjoint_names_run r p suppressed hms (by decide),
      disjoint_names_run r p suppressed hms (by decide)⟩
  rw [← union_names_run r p, Finset.card_union_of_disjoint hfailed,
    Finset.card_union_of_disjoint hpassed]

end Run

end ContainerAudit
