import ContainerAudit.Proofs.Report.Aggregate

/-!
# Runs of rules on manifests

A run is the list of what its tasks give, a task being a manifest with a rule that applies to it.
Everything that a task gives bears the id of its rule and the path of its manifest.  Since no two
rules of a registry share an id, the two name the task, provided that no two manifests share a path
(`task_eq`).  That is what keeps the findings, checks and failures of different tasks apart.
-/

namespace ContainerAudit

/-! ## What one task gives -/

/-- Everything in the evaluation bears the id of a rule and the path of a file. -/
structure Evaluation.BelongsTo (e : Evaluation) (rule file : String) : Prop where
  finding : ∀ f ∈ e.findings, f.rule = rule ∧ f.file = file
  check : ∀ c ∈ e.checks, c.rule = rule ∧ c.file = file
  failure : ∀ f ∈ e.failures, f.rule = rule ∧ f.file = file

theorem evaluate_belongsTo (rule : Rule) (p : Patterns) (m : Manifest) :
    (rule.evaluate p m).BelongsTo rule.id m.path := by
  unfold Rule.evaluate
  split
  · refine ⟨?_, fun c hc => ?_, fun f hf => absurd hf List.not_mem_nil⟩
    · intro f hf
      obtain ⟨found, -, rfl⟩ := List.mem_map.mp hf
      exact ⟨rfl, rfl⟩
    · rw [List.mem_singleton.mp hc]
      exact ⟨rfl, rfl⟩
  · refine ⟨fun f hf => absurd hf List.not_mem_nil, fun c hc => absurd hc List.not_mem_nil, ?_⟩
    intro f hf
    rw [List.mem_singleton.mp hf]
    exact ⟨rfl, rfl⟩

/-- A rule fails on a manifest at most once. -/
theorem evaluate_failure_unique {rule : Rule} {p : Patterns} {m : Manifest} {f g : RuleFailure}
    (hf : f ∈ (rule.evaluate p m).failures) (hg : g ∈ (rule.evaluate p m).failures) : f = g := by
  cases hcheck : rule.check m p with
  | ok found =>
      rw [Rule.evaluate, hcheck] at hf
      exact absurd hf List.not_mem_nil
  | error reason =>
      rw [Rule.evaluate, hcheck] at hf hg
      rw [List.mem_singleton.mp hf, List.mem_singleton.mp hg]

/-- The matches of a rule on a manifest; there are none if it fails. -/
def Rule.found (rule : Rule) (p : Patterns) (m : Manifest) : List Match :=
  (rule.check m p).toOption.getD []

theorem Rule.found_of_check {rule : Rule} {p : Patterns} {m : Manifest} {found : List Match}
    (h : rule.check m p = .ok found) : rule.found p m = found := by
  rw [Rule.found, h]
  rfl

theorem findings_evaluate (rule : Rule) (p : Patterns) (m : Manifest) :
    (rule.evaluate p m).findings = (rule.found p m).map (Finding.ofMatch rule m.path) := by
  rw [Rule.evaluate, Rule.found]
  cases rule.check m p <;> rfl

/-- Of the matches of one rule on one file, those count as one that stand on one line. -/
theorem mem_distinctBy_findings_evaluate {rule : Rule} {p : Patterns} {m : Manifest}
    {f : Finding} :
    f ∈ distinctBy Finding.key (rule.evaluate p m).findings ↔
      ∃ first, (rule.found p m).find? (·.line == first.line) = some first ∧
        f = Finding.ofMatch rule m.path first := by
  have hkey : ∀ a b : Match, (Finding.key (Finding.ofMatch rule m.path a) ==
      Finding.key (Finding.ofMatch rule m.path b)) = (a.line == b.line) := by
    intro a b
    rw [Bool.eq_iff_iff, beq_iff_eq, beq_iff_eq]
    simp [Finding.key, Finding.ofMatch]
  have hfind : ∀ first : Match, ((rule.found p m).map (Finding.ofMatch rule m.path)).find?
      (fun g => Finding.key g == Finding.key (Finding.ofMatch rule m.path first)) =
      ((rule.found p m).find? (·.line == first.line)).map (Finding.ofMatch rule m.path) := by
    intro first
    rw [List.find?_map]
    exact congrArg (Option.map _) (congrArg (List.find? · _) (funext fun a => hkey a first))
  rw [mem_distinctBy, findings_evaluate]
  constructor
  · intro hf
    obtain ⟨a, -, rfl⟩ := List.mem_map.mp (List.mem_of_find?_eq_some hf)
    rw [hfind] at hf
    obtain ⟨first, hfirst, heq⟩ := Option.map_eq_some_iff.mp hf
    have hline : first.line = a.line := by simpa using List.find?_some hfirst
    exact ⟨first, by rw [hline]; exact hfirst, heq.symm⟩
  · rintro ⟨first, hfirst, rfl⟩
    rw [hfind, hfirst]
    rfl

/-! ## What a run gives -/

theorem foldr_append (es : List Evaluation) :
    es.foldr Evaluation.append {} =
      ⟨es.flatMap (·.findings), es.flatMap (·.checks), es.flatMap (·.failures)⟩ := by
  induction es with
  | nil => rfl
  | cons e es ih => rw [List.foldr_cons, ih]; rfl

theorem run_eq (r : Registry) (p : Patterns) (suppressed : List String) (ms : List Manifest) :
    r.run p suppressed ms =
      { findings := (r.tasks suppressed ms).flatMap fun t => (t.2.evaluate p t.1).findings
        checks := (r.tasks suppressed ms).flatMap fun t => (t.2.evaluate p t.1).checks
        failures := (r.tasks suppressed ms).flatMap fun t => (t.2.evaluate p t.1).failures } := by
  rw [Registry.run, foldr_append, List.flatMap_map, List.flatMap_map, List.flatMap_map]

/-- One run after another is a run on both lists of manifests. -/
theorem run_append (r : Registry) (p : Patterns) (suppressed : List String)
    (ms ns : List Manifest) :
    r.run p suppressed (ms ++ ns) =
      (r.run p suppressed ms).append (r.run p suppressed ns) := by
  simp only [run_eq, Registry.tasks, List.flatMap_append, Evaluation.append]

section Tasks

variable {r : Registry} {suppressed : List String} {ms : List Manifest}

theorem mem_tasks {m : Manifest} {rule : Rule} :
    (m, rule) ∈ r.tasks suppressed ms ↔ m ∈ ms ∧ rule ∈ r.applicable suppressed m := by
  simp only [Registry.tasks, List.mem_flatMap, List.mem_map, Prod.mk.injEq]
  constructor
  · rintro ⟨m, hm, rule, hrule, rfl, rfl⟩
    exact ⟨hm, hrule⟩
  · rintro ⟨hm, hrule⟩
    exact ⟨m, hm, rule, hrule, rfl, rfl⟩

theorem mem_rules_of_mem_applicable {m : Manifest} {rule : Rule}
    (h : rule ∈ r.applicable suppressed m) : rule ∈ r.rules :=
  List.mem_of_mem_filter (List.mem_of_mem_filter h)

/-- No two manifests share a path. -/
def OnePerPath (ms : List Manifest) : Prop :=
  ∀ m ∈ ms, ∀ n ∈ ms, m.path = n.path → m = n

/-- A rule id and a path name a task. -/
theorem task_eq (hms : OnePerPath ms) {t u : Manifest × Rule} (ht : t ∈ r.tasks suppressed ms)
    (hu : u ∈ r.tasks suppressed ms) (hrule : t.2.id = u.2.id) (hpath : t.1.path = u.1.path) :
    t = u := by
  obtain ⟨m, rule⟩ := t
  obtain ⟨n, rule'⟩ := u
  obtain ⟨hm, hm'⟩ := mem_tasks.mp ht
  obtain ⟨hn, hn'⟩ := mem_tasks.mp hu
  have hrules : rule = rule' :=
    List.inj_on_of_nodup_map r.nodup_ids (mem_rules_of_mem_applicable hm')
      (mem_rules_of_mem_applicable hn') hrule
  rw [hms m hm n hn hpath, hrules]

theorem tasks_congr {ns : List Manifest} (h : ∀ m, m ∈ ms ↔ m ∈ ns) (t : Manifest × Rule) :
    t ∈ r.tasks suppressed ms ↔ t ∈ r.tasks suppressed ns := by
  rw [mem_tasks, mem_tasks, h]

end Tasks

/-! ## Runs on manifests of which no two share a path -/

section OnePerPath

variable (r : Registry) (p : Patterns) (suppressed : List String) {ms : List Manifest}

/-- The findings of different tasks do not count as one, so each task keeps its own. -/
theorem mem_distinctBy_run_findings (hms : OnePerPath ms) {f : Finding} :
    f ∈ distinctBy Finding.key (r.run p suppressed ms).findings ↔
      ∃ t ∈ r.tasks suppressed ms, f ∈ distinctBy Finding.key (t.2.evaluate p t.1).findings := by
  rw [run_eq]
  refine mem_distinctBy_flatMap fun t ht u hu x hx y hy hkey => ?_
  obtain ⟨hxrule, hxfile⟩ := (evaluate_belongsTo t.2 p t.1).finding x hx
  obtain ⟨hyrule, hyfile⟩ := (evaluate_belongsTo u.2 p u.1).finding y hy
  simp only [Finding.key, Prod.mk.injEq] at hkey
  exact task_eq hms ht hu (by rw [← hxrule, ← hyrule, hkey.1])
    (by rw [← hxfile, ← hyfile, hkey.2.1])

theorem untied_run_failures (hms : OnePerPath ms) :
    Untied RuleFailure.order (r.run p suppressed ms).failures := by
  rw [run_eq]
  intro f hf g hg htie
  obtain ⟨hfile, hrule⟩ := RuleFailure.eq_of_order_eq htie
  obtain ⟨t, ht, hft⟩ := List.mem_flatMap.mp hf
  obtain ⟨u, hu, hgu⟩ := List.mem_flatMap.mp hg
  obtain ⟨hfrule, hffile⟩ := (evaluate_belongsTo t.2 p t.1).failure f hft
  obtain ⟨hgrule, hgfile⟩ := (evaluate_belongsTo u.2 p u.1).failure g hgu
  obtain rfl : t = u := task_eq hms ht hu (by rw [← hfrule, ← hgrule, hrule])
    (by rw [← hffile, ← hgfile, hfile])
  exact evaluate_failure_unique hft hgu

end OnePerPath

/-! ## Runs on one manifest -/

section Single

variable (r : Registry) (p : Patterns) (suppressed : List String) (m : Manifest)

theorem findings_run_single :
    (r.run p suppressed [m]).findings = (r.applicable suppressed m).flatMap fun rule =>
      (rule.found p m).map (Finding.ofMatch rule m.path) := by
  rw [run_eq]
  simp only [Registry.tasks, List.flatMap_singleton, List.flatMap_map, findings_evaluate]

theorem onePerPath_single : OnePerPath [m] := by
  intro n hn o ho _
  rw [List.mem_singleton.mp hn, List.mem_singleton.mp ho]

/-- What stays of the findings on one manifest is, of each rule and on each line, the first. -/
theorem mem_distinctBy_run_single {f : Finding} :
    f ∈ distinctBy Finding.key (r.run p suppressed [m]).findings ↔
      ∃ rule ∈ r.applicable suppressed m, ∃ first,
        (rule.found p m).find? (·.line == first.line) = some first ∧
          f = Finding.ofMatch rule m.path first := by
  rw [mem_distinctBy_run_findings r p suppressed (onePerPath_single m)]
  constructor
  · rintro ⟨⟨n, rule⟩, ht, hf⟩
    obtain ⟨hn, hrule⟩ := mem_tasks.mp ht
    obtain rfl := List.mem_singleton.mp hn
    exact ⟨rule, hrule, mem_distinctBy_findings_evaluate.mp hf⟩
  · rintro ⟨rule, hrule, hf⟩
    exact ⟨(m, rule), mem_tasks.mpr ⟨List.mem_singleton_self m, hrule⟩,
      mem_distinctBy_findings_evaluate.mpr hf⟩

/-- No two findings on a manifest count as one if no rule reports a line twice. -/
theorem nodup_key_run_single
    (h : ∀ rule ∈ r.applicable suppressed m, ((rule.found p m).map (·.line)).Nodup) :
    ((r.run p suppressed [m]).findings.map Finding.key).Nodup := by
  have hrule : ∀ rule : Rule, ∀ key ∈ ((rule.found p m).map (Finding.ofMatch rule m.path)).map
      Finding.key, key.1 = rule.id := by
    simp [Finding.key, Finding.ofMatch]
  rw [findings_run_single, List.map_flatMap, List.nodup_flatMap]
  constructor
  · intro rule hmem
    refine List.Nodup.of_map (fun key => key.2.2) ?_
    rw [List.map_map, List.map_map]
    exact h rule hmem
  · have hids : ((r.applicable suppressed m).map Rule.id).Nodup :=
      r.nodup_ids.sublist ((List.filter_sublist.trans List.filter_sublist).map Rule.id)
    refine (List.pairwise_map.mp hids).imp fun {rule rule'} hne key hkey hkey' => hne ?_
    rw [← hrule rule key hkey, hrule rule' key hkey']

end Single

/-! ## The files in a run -/

/-- Everything that a run gives bears the path of one of its manifests. -/
theorem run_file (r : Registry) (p : Patterns) (suppressed : List String) (ms : List Manifest) :
    (∀ f ∈ (r.run p suppressed ms).findings, ∃ m ∈ ms, f.file = m.path) ∧
    (∀ c ∈ (r.run p suppressed ms).checks, ∃ m ∈ ms, c.file = m.path) ∧
    (∀ f ∈ (r.run p suppressed ms).failures, ∃ m ∈ ms, f.file = m.path) := by
  rw [run_eq]
  refine ⟨fun f hf => ?_, fun c hc => ?_, fun f hf => ?_⟩
  · obtain ⟨t, ht, hf⟩ := List.mem_flatMap.mp hf
    exact ⟨t.1, (mem_tasks.mp ht).1, ((evaluate_belongsTo t.2 p t.1).finding f hf).2⟩
  · obtain ⟨t, ht, hc⟩ := List.mem_flatMap.mp hc
    exact ⟨t.1, (mem_tasks.mp ht).1, ((evaluate_belongsTo t.2 p t.1).check c hc).2⟩
  · obtain ⟨t, ht, hf⟩ := List.mem_flatMap.mp hf
    exact ⟨t.1, (mem_tasks.mp ht).1, ((evaluate_belongsTo t.2 p t.1).failure f hf).2⟩

end ContainerAudit
