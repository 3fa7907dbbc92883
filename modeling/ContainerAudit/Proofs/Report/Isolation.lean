import ContainerAudit.Proofs.Report.Evaluation

/-!
# Rules apart from each other

What a rule gives on a manifest depends on nothing but the rule and the manifest, and bears the
rule's id.  So the part of a run that concerns some of the rules is the run of the tasks with those
rules (`run_keep`), and it does not matter what the other rules do (`run_withCheck`).

Each task leaves exactly one trace besides its findings, a check or a failure, and the two never
come together (`evaluate_yields`).
-/

namespace ContainerAudit

/-! ## The part of an evaluation that concerns some rules -/

/-- What the evaluation holds on the rules with an id in `keep`. -/
def Evaluation.keep (keep : String → Bool) (e : Evaluation) : Evaluation :=
  ⟨e.findings.filter fun f => keep f.rule, e.checks.filter fun c => keep c.rule,
    e.failures.filter fun f => keep f.rule⟩

section Keep

variable {keep : String → Bool}

theorem keep_append (a b : Evaluation) :
    (a.append b).keep keep = (a.keep keep).append (b.keep keep) := by
  simp only [Evaluation.append, Evaluation.keep, List.filter_append]

/-- What concerns one rule is kept as a whole, or not at all. -/
theorem Evaluation.BelongsTo.keep_eq {e : Evaluation} {rule file : String}
    (h : e.BelongsTo rule file) : e.keep keep = if keep rule then e else {} := by
  by_cases hrule : keep rule = true
  · rw [if_pos hrule, Evaluation.keep,
      List.filter_eq_self.mpr fun f hf => by rw [(h.finding f hf).1, hrule],
      List.filter_eq_self.mpr fun c hc => by rw [(h.check c hc).1, hrule],
      List.filter_eq_self.mpr fun f hf => by rw [(h.failure f hf).1, hrule]]
  · rw [if_neg hrule, Evaluation.keep,
      List.filter_eq_nil_iff.mpr fun f hf => by rwa [(h.finding f hf).1],
      List.filter_eq_nil_iff.mpr fun c hc => by rwa [(h.check c hc).1],
      List.filter_eq_nil_iff.mpr fun f hf => by rwa [(h.failure f hf).1]]

/-- Keeping the results of some rules is running the tasks with those rules. -/
theorem evaluations_keep (p : Patterns) (tasks : List (Manifest × Rule)) :
    ((tasks.map fun t => t.2.evaluate p t.1).foldr Evaluation.append {}).keep keep =
      ((tasks.filter fun t => keep t.2.id).map fun t => t.2.evaluate p t.1).foldr
        Evaluation.append {} := by
  induction tasks with
  | nil => rfl
  | cons t tasks ih =>
      rw [List.map_cons, List.foldr_cons, keep_append, ih, (evaluate_belongsTo t.2 p t.1).keep_eq]
      by_cases hrule : keep t.2.id = true
      · rw [if_pos hrule, List.filter_cons_of_pos (by exact hrule), List.map_cons, List.foldr_cons]
      · rw [if_neg hrule, List.filter_cons_of_neg (by exact hrule)]
        rfl

theorem run_keep (r : Registry) (p : Patterns) (suppressed : List String) (ms : List Manifest) :
    (r.run p suppressed ms).keep keep =
      (((r.tasks suppressed ms).filter fun t => keep t.2.id).map fun t =>
        t.2.evaluate p t.1).foldr Evaluation.append {} :=
  evaluations_keep p (r.tasks suppressed ms)

end Keep

/-! ## A rule with another check -/

def Rule.withCheck (id : String) (check : Check) (rule : Rule) : Rule :=
  if rule.id = id then { rule with check } else rule

theorem Rule.withCheck_of_ne {id : String} {rule : Rule} (h : rule.id ≠ id) (check : Check) :
    rule.withCheck id check = rule :=
  if_neg h

@[simp] theorem Rule.id_withCheck (id : String) (check : Check) (rule : Rule) :
    (rule.withCheck id check).id = rule.id := by
  unfold Rule.withCheck
  split <;> rfl

@[simp] theorem Rule.kind_withCheck (id : String) (check : Check) (rule : Rule) :
    (rule.withCheck id check).kind = rule.kind := by
  unfold Rule.withCheck
  split <;> rfl

/-- The registry in which the rule with an id has another check. -/
def Registry.withCheck (r : Registry) (id : String) (check : Check) : Registry where
  rules := r.rules.map (Rule.withCheck id check)
  nodup_ids := by
    have hids : Rule.id ∘ Rule.withCheck id check = Rule.id := by
      funext rule
      exact Rule.id_withCheck id check rule
    rw [List.map_map, hids]
    exact r.nodup_ids

section WithCheck

variable (r : Registry) (id : String) (check : Check) (p : Patterns) (suppressed : List String)

theorem applicable_withCheck (m : Manifest) :
    (r.withCheck id check).applicable suppressed m =
      (r.applicable suppressed m).map (Rule.withCheck id check) := by
  simp only [Registry.applicable, Registry.ofKind, Registry.withCheck, List.filter_map,
    Function.comp_def, Rule.id_withCheck, Rule.kind_withCheck]

theorem tasks_withCheck (ms : List Manifest) :
    (r.withCheck id check).tasks suppressed ms =
      (r.tasks suppressed ms).map fun t => (t.1, t.2.withCheck id check) := by
  simp only [Registry.tasks, applicable_withCheck, List.map_flatMap, List.map_map,
    Function.comp_def]

/-- The tasks with other rules are the same. -/
theorem filter_tasks_withCheck (ms : List Manifest) :
    ((r.withCheck id check).tasks suppressed ms).filter (fun t => t.2.id != id) =
      (r.tasks suppressed ms).filter fun t => t.2.id != id := by
  rw [tasks_withCheck, List.filter_map]
  simp only [Function.comp_def, Rule.id_withCheck]
  refine (List.map_congr_left fun t ht => ?_).trans (List.map_id _)
  have hne : t.2.id ≠ id := bne_iff_ne.mp (List.mem_filter.mp ht).2
  rw [Rule.withCheck_of_ne hne]
  rfl

theorem run_withCheck (ms : List Manifest) :
    ((r.withCheck id check).run p suppressed ms).keep (· != id) =
      (r.run p suppressed ms).keep (· != id) := by
  rw [run_keep, run_keep, filter_tasks_withCheck]

end WithCheck

/-! ## What each task gives -/

/-- What a rule gives on a manifest: a check, which it passed if there is no finding, or else a
failure and nothing besides. -/
inductive Rule.Yields (rule : Rule) (p : Patterns) (m : Manifest) : Evaluation → Prop
  | checked {found : List Match} {findings : List Finding} (h : rule.check m p = .ok found)
      (hfindings : findings = found.map (Finding.ofMatch rule m.path)) :
      rule.Yields p m ⟨findings, [⟨rule.id, m.path, findings.isEmpty⟩], []⟩
  | failed {reason : String} (h : rule.check m p = .error reason) :
      rule.Yields p m ⟨[], [], [⟨rule.id, m.path, reason⟩]⟩

theorem evaluate_yields (rule : Rule) (p : Patterns) (m : Manifest) :
    rule.Yields p m (rule.evaluate p m) := by
  rw [Rule.evaluate]
  cases hcheck : rule.check m p with
  | ok found => exact .checked hcheck rfl
  | error reason => exact .failed hcheck

/-- **Rules do not interfere with each other.**  Whatever check takes the place of a rule's own, the
results of all other rules stay as they are.  Each pair of a manifest and a rule that applies to it
gives one check and no failure, or one failure and nothing else, and the run is made up of these. -/
theorem run_isolates_rules (r : Registry) (p : Patterns) (suppressed : List String)
    (ms : List Manifest) :
    (∀ (id : String) (check : Check),
      let e := r.run p suppressed ms
      let e' := (r.withCheck id check).run p suppressed ms
      e'.findings.filter (·.rule != id) = e.findings.filter (·.rule != id) ∧
      e'.checks.filter (·.rule != id) = e.checks.filter (·.rule != id) ∧
      e'.failures.filter (·.rule != id) = e.failures.filter (·.rule != id)) ∧
    ∃ results : List Evaluation,
      List.Forall₂ (fun t e => t.2.Yields p t.1 e) (r.tasks suppressed ms) results ∧
      r.run p suppressed ms =
        ⟨results.flatMap (·.findings), results.flatMap (·.checks),
          results.flatMap (·.failures)⟩ := by
  refine ⟨fun id check => ?_, ?_⟩
  · have hkeep := run_withCheck r id check p suppressed ms
    exact ⟨congrArg Evaluation.findings hkeep, congrArg Evaluation.checks hkeep,
      congrArg Evaluation.failures hkeep⟩
  · refine ⟨(r.tasks suppressed ms).map fun t => t.2.evaluate p t.1, ?_, ?_⟩
    · rw [List.forall₂_map_right_iff]
      exact List.forall₂_same.mpr fun t _ => evaluate_yields t.2 p t.1
    · exact foldr_append _

end ContainerAudit
