import ContainerAudit.Proofs.Audit.Sources
import ContainerAudit.Proofs.Report.Verdict
import Mathlib.Algebra.BigOperators.Group.Finset.Basic

/-!
# No check gets lost

Every rule that applies to a file that parses is accounted for in the report, and once only: it
passed, or it has findings, or it failed (`report_accounts_for_checks`).  The report shows the three
by a number, by findings, of which several may belong to one check and some are dropped, and by
failures.  Each of them has as many distinct pairs of rule and file as the run has of that verdict.
-/

namespace ContainerAudit

/-! ## The number of tasks -/

/-- The rules of a registry for the file at a path, the suppressed ones left out. -/
def Registry.rulesFor (r : Registry) (suppressed : List String) (path : String) : List Rule :=
  r.rules.filter fun rule => rule.kind = Kind.ofPath (.ofText path) ∧ rule.id ∉ suppressed

theorem applicable_eq_rulesFor (r : Registry) (suppressed : List String) {m : Manifest}
    (h : m.content.kind = Kind.ofPath (.ofText m.path)) :
    r.applicable suppressed m = r.rulesFor suppressed m.path := by
  rw [Registry.applicable, Registry.ofKind, Registry.rulesFor, List.filter_filter, h]
  refine List.filter_congr fun rule _ => ?_
  rw [Bool.eq_iff_iff, Bool.and_eq_true, Bool.not_eq_true', ← Bool.not_eq_true,
    List.contains_iff_mem, beq_iff_eq, decide_eq_true_eq, and_comm]

theorem nodup_names_rulesFor (r : Registry) (suppressed : List String) (path : String) :
    ((r.rulesFor suppressed path).map fun rule => (rule.id, path)).Nodup := by
  have hids : ((r.rulesFor suppressed path).map Rule.id).Nodup :=
    r.nodup_ids.sublist (List.filter_sublist.map Rule.id)
  have hpairs := hids.map (f := fun id => (id, path)) fun id id' h => (Prod.mk.inj h).1
  rwa [List.map_map] at hpairs

/-- The tasks are those of the paths, each path with the rules for it. -/
theorem card_taskNames (r : Registry) (suppressed : List String) {ms : List Manifest}
    (hkind : ∀ m ∈ ms, m.content.kind = Kind.ofPath (.ofText m.path)) :
    (taskNames r suppressed ms).card =
      ∑ path ∈ (ms.map (·.path)).toFinset, (r.rulesFor suppressed path).length := by
  have hset : taskNames r suppressed ms = (ms.map (·.path)).toFinset.biUnion fun path =>
      ((r.rulesFor suppressed path).map fun rule => (rule.id, path)).toFinset := by
    ext name
    simp only [taskNames, List.mem_toFinset, List.mem_map, Finset.mem_biUnion]
    constructor
    · rintro ⟨⟨m, rule⟩, ht, rfl⟩
      obtain ⟨hm, hrule⟩ := mem_tasks.mp ht
      rw [applicable_eq_rulesFor r suppressed (hkind m hm)] at hrule
      exact ⟨m.path, ⟨m, hm, rfl⟩, rule, hrule, rfl⟩
    · rintro ⟨_, ⟨m, hm, rfl⟩, rule, hrule, rfl⟩
      rw [← applicable_eq_rulesFor r suppressed (hkind m hm)] at hrule
      exact ⟨(m, rule), mem_tasks.mpr ⟨hm, hrule⟩, rfl⟩
  rw [hset, Finset.card_biUnion]
  · refine Finset.sum_congr rfl fun path _ => ?_
    rw [List.toFinset_card_of_nodup (nodup_names_rulesFor r suppressed path), List.length_map]
  · intro path _ path' _ hne
    rw [Function.onFun, Finset.disjoint_left]
    intro name hname hname'
    obtain ⟨rule, -, rfl⟩ := List.mem_map.mp (List.mem_toFinset.mp hname)
    obtain ⟨rule', -, hpair⟩ := List.mem_map.mp (List.mem_toFinset.mp hname')
    exact hne (Prod.mk.inj hpair).2.symm

/-! ## What a report shows -/

namespace Report

theorem names_findings_aggregate (e : Evaluation) (parseFailures : List ParseFailure) :
    let r := aggregate e.findings e.checks parseFailures e.failures
    (r.findings.map fun f => (f.rule, f.file)).toFinset = e.names .violated := by
  ext name
  simp only [aggregate, Evaluation.names, List.mem_toFinset, List.mem_map, mem_sortBy]
  constructor
  · rintro ⟨f, hf, rfl⟩
    exact ⟨f, mem_of_mem_distinctBy hf, rfl⟩
  · -- a finding that is dropped leaves one with the same rule and file
    rintro ⟨f, hf, rfl⟩
    obtain ⟨g, hg, hkey⟩ : ∃ g ∈ distinctBy Finding.key e.findings, g.key = f.key :=
      exists_mem_distinctBy hf
    simp only [Finding.key, Prod.mk.injEq] at hkey
    exact ⟨g, hg, by rw [hkey.1, hkey.2.1]⟩

theorem length_ruleFailures_aggregate (e : Evaluation) (parseFailures : List ParseFailure)
    (huntied : Untied RuleFailure.order e.failures) :
    let r := aggregate e.findings e.checks parseFailures e.failures
    r.ruleFailures.length = (e.names .failed).card := by
  have hinj : ∀ f ∈ distinct e.failures, ∀ g ∈ distinct e.failures,
      (f.rule, f.file) = (g.rule, g.file) → f = g := by
    intro f hf g hg hname
    obtain ⟨hrule, hfile⟩ := Prod.mk.inj hname
    refine huntied f (mem_distinct.mp hf) g (mem_distinct.mp hg) ?_
    simp [RuleFailure.order, hrule, hfile]
  have hset : ((distinct e.failures).map fun f => (f.rule, f.file)).toFinset = e.names .failed := by
    ext name
    simp only [Evaluation.names, List.mem_toFinset, List.mem_map, mem_distinct]
  rw [← hset, List.toFinset_card_of_nodup ((nodup_distinctBy e.failures).map_on hinj),
    List.length_map]
  exact (sortBy_perm _).length_eq

theorem passed_aggregate (e : Evaluation) (parseFailures : List ParseFailure) :
    (aggregate e.findings e.checks parseFailures e.failures).summary.passed =
      (e.names .passed).card :=
  congrArg Nat.cast (length_distinct _)

end Report

/-! ## Audits -/

theorem Manifest.kind_of_parse {path text : String} {m : Manifest}
    (h : Manifest.parse path text = .ok m) : m.content.kind = Kind.ofPath (.ofText path) := by
  unfold Manifest.parse at h
  split at h
  · next hkind =>
      split at h
      · rw [hkind, ← Except.ok.inj h]
        rfl
      · exact nomatch h
  · next hkind =>
      split at h
      · rw [hkind, ← Except.ok.inj h]
        rfl
      · exact nomatch h
      · exact nomatch h

namespace Audit

theorem kind_of_mem_readings {sources : List Source} {m : Manifest}
    (h : m ∈ (readings sources).manifests) : m.content.kind = Kind.ofPath (.ofText m.path) := by
  obtain ⟨s, -, hsm⟩ := List.mem_filterMap.mp h
  rw [Manifest.kind_of_parse (Source.manifest?_eq_some.mp hsm), Source.path_of_manifest? hsm]

/-- The paths of the files that parse. -/
def parsedPaths (sources : List Source) : Finset String :=
  ((sources.filter (·.manifest?.isSome)).map (·.path)).toFinset

theorem parsedPaths_eq (sources : List Source) :
    parsedPaths sources = ((readings sources).manifests.map (·.path)).toFinset := by
  ext path
  simp only [parsedPaths, readings, List.mem_toFinset, List.mem_map, List.mem_filter,
    List.mem_filterMap]
  constructor
  · rintro ⟨s, ⟨hs, hparses⟩, rfl⟩
    obtain ⟨m, hm⟩ := Option.isSome_iff_exists.mp hparses
    exact ⟨m, ⟨s, hs, hm⟩, Source.path_of_manifest? hm⟩
  · rintro ⟨m, ⟨s, hs, hm⟩, rfl⟩
    exact ⟨s, ⟨hs, Option.isSome_iff_exists.mpr ⟨m, hm⟩⟩, (Source.path_of_manifest? hm).symm⟩

/-- **No check gets lost.**  The checks that passed, the pairs of a rule and a file with findings
and the failures of rules are together as many as there are files that parse with rules that are
run on them. -/
theorem report_accounts_for_checks (registry : Registry) (config : Config) {sources : List Source}
    {r : Report} (htexts : OneText sources) (hr : report registry config sources = .ok r) :
    r.summary.passed + (r.findings.map fun f => (f.rule, f.file)).toFinset.card +
        r.ruleFailures.length =
      ∑ path ∈ parsedPaths sources, (registry.rulesFor config.suppressed path).length := by
  obtain ⟨-, -, rfl⟩ := report_eq_ok_iff.mp hr
  have hms := htexts.onePerPath
  have huntied := untied_run_failures registry config.patterns config.suppressed hms
  rw [reportOn, Run.report, Report.passed_aggregate, Report.names_findings_aggregate,
    Report.length_ruleFailures_aggregate _ _ huntied, ← Int.natCast_add, ← Int.natCast_add,
    card_names_run _ _ _ hms, card_taskNames _ _ fun m hm => kind_of_mem_readings hm,
    parsedPaths_eq]

/-- Of three rules one passes, one has two findings that count as one, and one fails.  They are run
on a file that is given twice, but not on one that does not parse. -/
theorem report_accounts_for_three_verdicts :
    let rule (id : String) (check : Check) : Rule :=
      { id, kind := .dockerfile, severity := .high, title := "", check }
    let registry : Registry :=
      ⟨[rule "R1" fun _ _ => .ok [],
        rule "R2" fun _ _ => .ok [⟨1, "a", none, none⟩, ⟨1, "b", none, none⟩],
        rule "R3" fun _ _ => .error "broken"], by decide⟩
    let file : Source := ⟨"Dockerfile", "FROM debian\n"⟩
    let broken : Source := ⟨"web/Dockerfile", "RUN <<END\n"⟩
    ∃ r, report registry {} [file, broken, file] = .ok r ∧
      r.summary.passed + (r.findings.map fun f => (f.rule, f.file)).toFinset.card +
        r.ruleFailures.length = 3 := by
  intro rule registry file broken
  have hreport := report_eq_ok_iff.mpr
    ⟨show unknownRules registry ({} : Config).suppressed = [] by decide,
      show ∀ s ∈ [file, broken, file], s.Readable by decide, rfl⟩
  refine ⟨_, hreport, ?_⟩
  rw [report_accounts_for_checks registry {} (by decide) hreport]
  decide +kernel

end Audit

end ContainerAudit
