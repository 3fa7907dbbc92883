import ContainerAudit.Proofs.Audit.Sources
import ContainerAudit.Proofs.Report.Isolation

/-!
# Suppressed rules

Rules that are suppressed are not run at all.  The report is none the less the one without
suppression, with what these rules gave left out (`report_suppress`): a run under more suppressed
rules is the part of the run that concerns the others (`run_suppress`), and leaving out rules
commutes with all that a report does to its parts, since the rule is part of every key.
-/

namespace ContainerAudit

/-! ## Runs under more suppressed rules -/

section Run

variable {keep : String → Bool} {suppressed suppressed' : List String}

theorem applicable_suppress (h : ∀ id, id ∈ suppressed' ↔ id ∈ suppressed ∨ ¬keep id)
    (r : Registry) (m : Manifest) :
    r.applicable suppressed' m = (r.applicable suppressed m).filter fun rule => keep rule.id := by
  rw [Registry.applicable, Registry.applicable, List.filter_filter]
  refine List.filter_congr fun rule _ => ?_
  have hid := h rule.id
  rw [Bool.eq_iff_iff, Bool.and_eq_true]
  simp only [Bool.not_eq_true', ← Bool.not_eq_true, List.contains_iff_mem]
  tauto

theorem tasks_suppress (h : ∀ id, id ∈ suppressed' ↔ id ∈ suppressed ∨ ¬keep id) (r : Registry)
    (ms : List Manifest) :
    r.tasks suppressed' ms = (r.tasks suppressed ms).filter fun t => keep t.2.id := by
  simp only [Registry.tasks, applicable_suppress h, List.filter_flatMap, List.filter_map,
    Function.comp_def]

theorem run_suppress (h : ∀ id, id ∈ suppressed' ↔ id ∈ suppressed ∨ ¬keep id) (r : Registry)
    (p : Patterns) (ms : List Manifest) :
    r.run p suppressed' ms = (r.run p suppressed ms).keep keep := by
  rw [run_keep, ← tasks_suppress h]
  rfl

end Run

/-! ## Reports on some of the rules -/

namespace Report

variable (keep : String → Bool)

theorem passedChecks_keep (checks : List CheckResult) :
    passedChecks (checks.filter fun c => keep c.rule) =
      distinct
        ((checks.filter fun c => c.passed && keep c.rule).map fun c => (c.rule, c.file)) := by
  rw [passedChecks, List.filter_filter]

/-- The report on some of the rules: all that concerns the others is left out. -/
theorem aggregate_keep (e : Evaluation) (parseFailures : List ParseFailure)
    (huntied : Untied RuleFailure.order e.failures) :
    let r := aggregate e.findings e.checks parseFailures e.failures
    let kept := r.findings.filter fun f => keep f.rule
    aggregate (e.keep keep).findings (e.keep keep).checks parseFailures (e.keep keep).failures =
      { findings := kept
        summary :=
          { critical := countOf kept .critical
            high := countOf kept .high
            medium := countOf kept .medium
            passed := ((e.checks.filter fun c => c.passed && keep c.rule).map
              fun c => (c.rule, c.file)).toFinset.card }
        parseFailures := r.parseFailures
        ruleFailures := r.ruleFailures.filter fun f => keep f.rule } := by
  have h₁ : sortBy Finding.order (distinctBy Finding.key (e.findings.filter fun f => keep f.rule)) =
      (sortBy Finding.order (distinctBy Finding.key e.findings)).filter fun f => keep f.rule := by
    rw [← sortBy_filter _ (untied_distinctBy_key e.findings)]
    exact congrArg _ (distinctBy_filter (fun key : String × String × Int => keep key.1) e.findings)
  have h₂ := congrArg List.length (passedChecks_keep keep e.checks)
  rw [length_distinct] at h₂
  have h₃ : sortBy RuleFailure.order (distinct (e.failures.filter fun f => keep f.rule)) =
      (sortBy RuleFailure.order (distinct e.failures)).filter fun f => keep f.rule := by
    rw [distinct_filter, sortBy_filter _ huntied.distinct]
  simp only [aggregate, Evaluation.keep, h₁, h₂, h₃]

end Report

/-! ## Configurations that suppress more rules -/

theorem Config.mem_suppress {c : Config} {ids : List String} {id : String} :
    id ∈ (c.suppress ids).suppressed ↔ id ∈ c.suppressed ∨ id ∈ ids.map Config.ruleId := by
  rw [Config.suppress, mem_sortedSet, List.mem_append]

namespace Audit

/-- **Suppression is a filter on the report.**  If the registry has the rules to suppress, the
report is that without suppression, less what it says on these rules; numbers are those of what is
left.  If it does not have one of them there is no report. -/
theorem report_suppress (registry : Registry) (config : Config) (sources : List Source)
    (ids : List String) :
    let named := ids.map Config.ruleId
    (∀ {r : Run}, OneText sources → run registry config sources = .ok r →
      (∀ id ∈ named, registry.contains id) →
      let kept := r.report.findings.filter (·.rule ∉ named)
      report registry (config.suppress ids) sources =
        .ok
          { findings := kept
            summary :=
              { critical := Report.countOf kept .critical
                high := Report.countOf kept .high
                medium := Report.countOf kept .medium
                passed := ((r.evaluation.checks.filter fun c => c.passed && c.rule ∉ named).map
                  fun c => (c.rule, c.file)).toFinset.card }
            parseFailures := r.report.parseFailures
            ruleFailures := r.report.ruleFailures.filter (·.rule ∉ named) }) ∧
    (∀ id ∈ named, ¬registry.contains id →
      ∃ unknown, report registry (config.suppress ids) sources = .error (.unknownRules unknown) ∧
        ∀ id, id ∈ unknown ↔ (id ∈ config.suppressed ∨ id ∈ named) ∧ ¬registry.contains id) := by
  intro named
  refine ⟨?_, ?_⟩
  · intro r htexts hr hnamed kept
    obtain ⟨hknown, hreadable, rfl⟩ := run_eq_ok_iff.mp hr
    have hknown' : unknownRules registry (config.suppress ids).suppressed = [] := by
      rw [unknownRules_eq_nil] at hknown ⊢
      intro id hid
      exact (Config.mem_suppress.mp hid).elim (hknown id) (hnamed id)
    have hmore (id : String) : id ∈ (config.suppress ids).suppressed ↔
        id ∈ config.suppressed ∨ ¬decide (id ∉ named) := by
      rw [Config.mem_suppress, decide_eq_true_eq, not_not]
    have huntied := untied_run_failures registry config.patterns config.suppressed htexts.onePerPath
    have hpatterns : (config.suppress ids).patterns = config.patterns := rfl
    rw [report_eq_ok_iff.mpr ⟨hknown', hreadable, rfl⟩, reportOn, hpatterns, run_suppress hmore]
    exact congrArg Except.ok (Report.aggregate_keep _ _ _ huntied)
  · intro id hid hmissing
    have hunknown : id ∈ unknownRules registry (config.suppress ids).suppressed :=
      mem_unknownRules.mpr ⟨Config.mem_suppress.mpr (.inr hid), hmissing⟩
    refine ⟨_, report_of_unknown sources (List.ne_nil_of_mem hunknown), fun id => ?_⟩
    rw [mem_unknownRules, Config.mem_suppress]

/-- A rule with a finding is suppressed under a spelling of its id; a rule that is not there cannot
be. -/
theorem report_suppress_root_rule :
    let source : Source := ⟨"Dockerfile", "FROM debian\nUSER root\n"⟩
    let config : Config := {}
    ∃ r, run .standard config [source] = .ok r ∧ (∃ f ∈ r.report.findings, f.rule = "SEC-002") ∧
      (∃ r', report .standard (config.suppress [" sec-002\n"]) [source] = .ok r' ∧
        r'.findings = r.report.findings.filter (·.rule ∉ ["SEC-002"]) ∧ r'.summary.passed = 20) ∧
      ∃ unknown, report .standard (config.suppress ["SEC-002", "SEC-020"]) [source] =
        .error (.unknownRules unknown) ∧ "SEC-020" ∈ unknown := by
  intro source config
  have hrun := run_eq_ok_iff.mpr
    ⟨show unknownRules .standard config.suppressed = [] by decide,
      show ∀ s ∈ [source], s.Readable by decide, rfl⟩
  have hnamed : [" sec-002\n"].map Config.ruleId = ["SEC-002"] := by decide
  refine ⟨_, hrun, ?_, ?_, ?_⟩
  · have hfound : ∃ f ∈ distinctBy Finding.key (Registry.standard.run config.patterns
        config.suppressed (readings [source]).manifests).findings, f.rule = "SEC-002" := by
      decide +kernel
    obtain ⟨f, hf, hrule⟩ := hfound
    exact ⟨f, mem_sortBy.mpr hf, hrule⟩
  · obtain ⟨hkept, -⟩ := report_suppress .standard config [source] [" sec-002\n"]
    have hreport := hkept (by decide) hrun (by rw [hnamed]; decide)
    rw [hnamed] at hreport
    exact ⟨_, hreport, rfl, by decide +kernel⟩
  · obtain ⟨-, hmissing⟩ := report_suppress .standard config [source] ["SEC-002", "SEC-020"]
    obtain ⟨unknown, hreport, hunknown⟩ := hmissing "SEC-020" (by decide) (by decide)
    exact ⟨unknown, hreport, (hunknown "SEC-020").mpr (by decide)⟩

end Audit

end ContainerAudit
