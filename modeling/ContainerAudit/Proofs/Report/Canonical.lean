import ContainerAudit.Proofs.Report.Aggregate

/-!
# The canonical report

Findings are thinned out by one key and sorted by another: rule, file and line tell which of them
count as one, while the order begins with the severity, which the first key leaves out.  The two fit
together because findings that tie in the order also count as one (`Finding.key_eq_of_order_eq`).
What is left after thinning out has therefore one order only, and a strict one, and a report is
fixed by its raw findings as the first of each kind in that order (`aggregate_canonical`).

Looking for a finding by its key gives the same in a report as in the raw findings
(`find?_findings_aggregate`).  So a report may stand in for the findings that went into it when more
of them come in (`aggregate_findings_append`): sorting them in between moves no finding in front of
another one that counts as the same.
-/

namespace ContainerAudit

/-! ## The order -/

/-- The finding comes before the other: it is graver, or as grave and earlier by file, line and
rule. -/
def Finding.Precedes (a b : Finding) : Prop :=
  b.severity.rank < a.severity.rank ∨ b.severity.rank = a.severity.rank ∧
    (a.file < b.file ∨ a.file = b.file ∧
      (a.line < b.line ∨ a.line = b.line ∧ a.rule < b.rule))

theorem Finding.order_eq_lt_iff {a b : Finding} : Finding.order a b = .lt ↔ a.Precedes b := by
  have htext (s t : String) : compare s t = .lt ↔ s < t := compareOfLessAndEq_eq_lt
  simp only [Finding.order, Finding.Precedes, Ordering.then_eq_lt, Std.compare_eq_iff_eq,
    Nat.compare_eq_lt, Int.compare_eq_lt, htext]

/-- Elements that are all different and do not tie are sorted strictly. -/
theorem pairwise_lt_sortBy {α : Type} {order : α → α → Ordering} [Std.TransCmp order] {l : List α}
    (huntied : Untied order l) (hnodup : l.Nodup) :
    (sortBy order l).Pairwise fun a b => order a b = .lt := by
  have hdiffer : (sortBy order l).Nodup := (sortBy_perm l).nodup_iff.mpr hnodup
  refine ((pairwise_sortBy l).and hdiffer).imp_of_mem ?_
  rintro a b ha hb ⟨hle, hne⟩
  cases hab : order a b with
  | lt => rfl
  | eq => exact absurd (huntied a (mem_sortBy.mp ha) b (mem_sortBy.mp hb) hab) hne
  | gt => exact absurd hle (by simp [hab])

/-! ## Counting -/

/-- The number of findings that are at least as grave as a threshold. -/
def Summary.reaching (s : Summary) (threshold : Severity) : Int :=
  ((Severity.all.filter fun severity => threshold.rank ≤ severity.rank).map s.count).foldr (· + ·) 0

theorem foldr_add_nonneg {counts : List Int} (h : ∀ n ∈ counts, 0 ≤ n) :
    0 ≤ counts.foldr (· + ·) 0 := by
  induction counts with
  | nil => exact Int.le_refl 0
  | cons n counts ih =>
      obtain ⟨hn, hcounts⟩ := List.forall_mem_cons.mp h
      exact Int.add_nonneg hn (ih hcounts)

theorem foldr_add_pos {counts : List Int} (h : ∀ n ∈ counts, 0 ≤ n) :
    0 < counts.foldr (· + ·) 0 ↔ ∃ n ∈ counts, 0 < n := by
  induction counts with
  | nil => simp
  | cons n counts ih =>
      obtain ⟨hn, hcounts⟩ := List.forall_mem_cons.mp h
      have hrest := foldr_add_nonneg hcounts
      rw [List.foldr_cons, List.exists_mem_cons_iff, ← ih hcounts]
      omega

theorem Severity.mem_all (severity : Severity) : severity ∈ Severity.all := by
  cases severity <;> decide

theorem Summary.reaching_pos {s : Summary} (h : ∀ severity, 0 ≤ s.count severity)
    {threshold : Severity} : 0 < s.reaching threshold ↔
      ∃ severity, threshold.rank ≤ severity.rank ∧ 0 < s.count severity := by
  rw [Summary.reaching, foldr_add_pos (List.forall_mem_map.mpr fun severity _ => h severity)]
  simp [Severity.mem_all]

namespace Report

theorem exitCode_eq_one_iff {r : Report} {threshold : Severity} :
    r.exitCode threshold = 1 ↔ ∃ f ∈ r.findings, threshold.rank ≤ f.severity.rank := by
  unfold exitCode failed
  split <;> simp_all

theorem exitCode_eq_zero_iff {r : Report} {threshold : Severity} :
    r.exitCode threshold = 0 ↔ ∀ f ∈ r.findings, f.severity.rank < threshold.rank := by
  unfold exitCode failed
  split <;> simp_all

/-- If the numbers of a report are right, they tell its exit code. -/
theorem exitCode_eq_one_iff_reaching {r : Report}
    (h : ∀ severity, r.summary.count severity = countOf r.findings severity)
    {threshold : Severity} : r.exitCode threshold = 1 ↔ 0 < r.summary.reaching threshold := by
  rw [exitCode_eq_one_iff, Summary.reaching_pos fun severity => h severity ▸ Int.natCast_nonneg _]
  simp only [h, countOf, Int.natCast_pos, List.countP_pos_iff, beq_iff_eq]
  constructor
  · rintro ⟨f, hf, hrank⟩
    exact ⟨f.severity, hrank, f, hf, rfl⟩
  · rintro ⟨severity, hrank, f, hf, rfl⟩
    exact ⟨f, hf, hrank⟩

theorem countOf_add (findings : List Finding) :
    countOf findings .critical + countOf findings .high + countOf findings .medium =
      findings.length := by
  induction findings with
  | nil => rfl
  | cons f findings ih =>
      simp only [countOf, List.countP_cons, List.length_cons] at ih ⊢
      cases f.severity <;> simp <;> omega

/-! ## The findings of a report -/

section Aggregate

variable (raw : List Finding) (checks : List CheckResult) (parseFailures : List ParseFailure)
  (ruleFailures : List RuleFailure)

theorem mem_findings_aggregate {f : Finding} :
    f ∈ (aggregate raw checks parseFailures ruleFailures).findings ↔
      f ∈ distinctBy Finding.key raw :=
  mem_sortBy

theorem nodup_key_findings_aggregate :
    ((aggregate raw checks parseFailures ruleFailures).findings.map Finding.key).Nodup :=
  ((sortBy_perm _).map Finding.key).nodup_iff.mpr (nodup_map_distinctBy raw)

theorem count_summary_aggregate (severity : Severity) :
    (aggregate raw checks parseFailures ruleFailures).summary.count severity =
      countOf (aggregate raw checks parseFailures ruleFailures).findings severity := by
  cases severity <;> rfl

/-- What is found by its key in a report is what is found in the raw findings. -/
theorem find?_findings_aggregate (key : String × String × Int) :
    (aggregate raw checks parseFailures ruleFailures).findings.find? (fun f => f.key == key) =
      raw.find? (fun f => f.key == key) := by
  ext f
  rw [find?_eq_some_of_nodup (nodup_key_findings_aggregate ..), mem_findings_aggregate,
    mem_distinctBy]
  constructor
  · rintro ⟨hfirst, rfl⟩
    exact hfirst
  · intro hfirst
    have hkey := List.find?_some hfirst
    obtain rfl : f.key = key := eq_of_beq hkey
    exact ⟨hfirst, rfl⟩

end Aggregate

/-- The report that raw findings make: of each kind the first, all in order and counted. -/
structure Canonical (raw : List Finding) (r : Report) : Prop where
  ordered : r.findings.Pairwise Finding.Precedes
  /-- What is reported is the first of the raw findings with its rule, file and line. -/
  firsts : ∀ f, f ∈ r.findings ↔
    ∃ before after, raw = before ++ f :: after ∧ ∀ g ∈ before, g.key ≠ f.key
  /-- No rule, file and line is lost, and none is there twice. -/
  keys : ∀ key, (r.findings.map Finding.key).count key =
    if key ∈ raw.map Finding.key then 1 else 0
  counted : ∀ severity, r.summary.count severity =
    (r.findings.filter fun f => f.severity = severity).length
  total : r.summary.critical + r.summary.high + r.summary.medium = r.findings.length
  exits : ∀ threshold, r.exitCode threshold = 1 ↔ 0 < r.summary.reaching threshold

theorem canonical_aggregate (raw : List Finding) (checks : List CheckResult)
    (parseFailures : List ParseFailure) (ruleFailures : List RuleFailure) :
    (aggregate raw checks parseFailures ruleFailures).Canonical raw where
  ordered := by
    have hstrict := pairwise_lt_sortBy (untied_distinctBy_key raw) (nodup_distinctBy raw)
    exact hstrict.imp Finding.order_eq_lt_iff.mp
  firsts f := by
    rw [mem_findings_aggregate, mem_distinctBy, List.find?_eq_some_iff_append]
    simp
  keys key := by
    have hnodup := nodup_key_findings_aggregate raw checks parseFailures ruleFailures
    rw [hnodup.count]
    refine if_congr ?_ rfl rfl
    simp only [List.mem_map, mem_findings_aggregate]
    constructor
    · rintro ⟨f, hf, rfl⟩
      exact ⟨f, mem_of_mem_distinctBy hf, rfl⟩
    · rintro ⟨f, hf, rfl⟩
      exact exists_mem_distinctBy hf
  counted severity := by
    rw [count_summary_aggregate, countOf, List.countP_eq_length_filter]
    rfl
  total := by
    rw [← countOf_add, Int.natCast_add, Int.natCast_add]
    rfl
  exits _ := exitCode_eq_one_iff_reaching (count_summary_aggregate raw checks _ _)

/-- **A report is the canonical form of its findings.**  If raw findings that count as one are one,
their order does not show in it either. -/
theorem aggregate_canonical (raw : List Finding) (checks : List CheckResult)
    (parseFailures : List ParseFailure) (ruleFailures : List RuleFailure) :
    (aggregate raw checks parseFailures ruleFailures).Canonical raw ∧
      ((∀ f ∈ raw, ∀ g ∈ raw, f.key = g.key → f = g) →
        ∀ raw', raw'.Perm raw →
          aggregate raw' checks parseFailures ruleFailures =
            aggregate raw checks parseFailures ruleFailures) := by
  refine ⟨canonical_aggregate raw checks parseFailures ruleFailures, ?_⟩
  intro hone raw' hperm
  have hmem (f : Finding) : f ∈ raw' ↔ f ∈ raw := hperm.mem_iff
  have hone' : ∀ f ∈ raw', ∀ g ∈ raw', f.key = g.key → f = g := fun f hf g hg =>
    hone f ((hmem f).mp hf) g ((hmem g).mp hg)
  refine aggregate_congr_findings fun f => ?_
  rw [mem_distinctBy_of_injOn hone', mem_distinctBy_of_injOn hone, hmem]

/-- Two rules that find something on one line may be run in either order. -/
theorem aggregate_canonical_on_shared_line :
    ∃ f g : Finding, f ≠ g ∧ f.file = g.file ∧ f.line = g.line ∧
      aggregate [g, f] = aggregate [f, g] := by
  let f : Finding := ⟨"SEC-001", .critical, "Dockerfile", 3, "USER root", "", "", none, none⟩
  let g : Finding := ⟨"OPT-001", .medium, "Dockerfile", 3, "USER root", "", "", none, none⟩
  exact ⟨f, g, by decide, rfl, rfl,
    (aggregate_canonical [f, g] [] [] []).2 (by decide) [g, f] (List.Perm.swap f g [])⟩

/-! ## More findings -/

/-- **A report stands in for the findings that went into it.**  Findings that come in later join it
as they would have joined those, and without any it stays as it is. -/
theorem aggregate_findings_append (xs ys : List Finding) (checks checks' : List CheckResult)
    (parseFailures parseFailures' : List ParseFailure)
    (ruleFailures ruleFailures' : List RuleFailure) :
    let before := aggregate xs checks' parseFailures' ruleFailures'
    aggregate (before.findings ++ ys) checks parseFailures ruleFailures =
        aggregate (xs ++ ys) checks parseFailures ruleFailures ∧
      aggregate before.findings checks parseFailures ruleFailures =
        aggregate xs checks parseFailures ruleFailures := by
  intro before
  have hmore (zs : List Finding) :
      aggregate (before.findings ++ zs) checks parseFailures ruleFailures =
        aggregate (xs ++ zs) checks parseFailures ruleFailures := by
    refine aggregate_congr_findings fun f => ?_
    rw [mem_distinctBy, mem_distinctBy, List.find?_append, List.find?_append,
      find?_findings_aggregate]
  refine ⟨hmore ys, ?_⟩
  simpa only [List.append_nil] using hmore []

end Report

end ContainerAudit
