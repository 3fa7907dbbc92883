import ContainerAudit.Proofs.Entries
import ContainerAudit.Proofs.Report.Order

/-!
# Bringing results together

A report forgets the order in which results came in and how often they came, as long as those that
are left after thinning out do not tie (`aggregate_congr`).  Results on different files do not
touch: their reports are merged by sorting again and adding up (`aggregate_append`).
-/

namespace ContainerAudit

/-! ## Ties -/

theorem untied_distinctBy_key (findings : List Finding) :
    Untied Finding.order (distinctBy Finding.key findings) :=
  fun _ ha _ hb h => eq_of_mem_distinctBy ha hb (Finding.key_eq_of_order_eq h)

theorem Untied.distinct {α : Type} [BEq α] [LawfulBEq α] {order : α → α → Ordering} {l : List α}
    (h : Untied order l) : Untied order (distinct l) :=
  h.of_subset fun _ ha => mem_distinct.mp ha

/-- Only which findings are left after thinning out shows once they are sorted. -/
theorem sortBy_distinctBy_congr {findings findings' : List Finding}
    (h : ∀ f, f ∈ distinctBy Finding.key findings ↔ f ∈ distinctBy Finding.key findings') :
    sortBy Finding.order (distinctBy Finding.key findings) =
      sortBy Finding.order (distinctBy Finding.key findings') :=
  sortBy_eq_of_perm (distinctBy_perm h) (untied_distinctBy_key findings)

namespace Report

/-- A report depends on its findings through the distinct ones, and on checks and failures through
the sets of them. -/
theorem aggregate_congr {findings findings' : List Finding} {checks checks' : List CheckResult}
    {parseFailures parseFailures' : List ParseFailure}
    {ruleFailures ruleFailures' : List RuleFailure}
    (hfindings : ∀ f, f ∈ distinctBy Finding.key findings ↔ f ∈ distinctBy Finding.key findings')
    (hchecks : ∀ c, c ∈ checks ↔ c ∈ checks')
    (hparse : ∀ f, f ∈ parseFailures ↔ f ∈ parseFailures')
    (hparseUntied : Untied ParseFailure.order parseFailures)
    (hrule : ∀ f, f ∈ ruleFailures ↔ f ∈ ruleFailures')
    (hruleUntied : Untied RuleFailure.order ruleFailures) :
    aggregate findings checks parseFailures ruleFailures =
      aggregate findings' checks' parseFailures' ruleFailures' := by
  have h₁ := sortBy_distinctBy_congr hfindings
  have h₂ : (passedChecks checks).length = (passedChecks checks').length := by
    refine (distinct_perm fun pair => ?_).length_eq
    simp only [List.mem_map, List.mem_filter, hchecks]
  have h₃ : sortBy ParseFailure.order (distinct parseFailures) =
      sortBy ParseFailure.order (distinct parseFailures') :=
    sortBy_eq_of_perm (distinct_perm hparse) hparseUntied.distinct
  have h₄ : sortBy RuleFailure.order (distinct ruleFailures) =
      sortBy RuleFailure.order (distinct ruleFailures') :=
    sortBy_eq_of_perm (distinct_perm hrule) hruleUntied.distinct
  simp only [aggregate, h₁, h₂, h₃, h₄]

/-- With the rest given, a report depends on the distinct findings. -/
theorem aggregate_congr_findings {findings findings' : List Finding} {checks : List CheckResult}
    {parseFailures : List ParseFailure} {ruleFailures : List RuleFailure}
    (h : ∀ f, f ∈ distinctBy Finding.key findings ↔ f ∈ distinctBy Finding.key findings') :
    aggregate findings checks parseFailures ruleFailures =
      aggregate findings' checks parseFailures ruleFailures := by
  simp only [aggregate, sortBy_distinctBy_congr h]

/-! ## Results on different files -/

/-- Two reports in one: their findings and failures sorted together, their numbers added. -/
def merge (a b : Report) : Report :=
  { findings := sortBy Finding.order (a.findings ++ b.findings)
    summary :=
      { critical := a.summary.critical + b.summary.critical
        high := a.summary.high + b.summary.high
        medium := a.summary.medium + b.summary.medium
        passed := a.summary.passed + b.summary.passed }
    parseFailures := sortBy ParseFailure.order (a.parseFailures ++ b.parseFailures)
    ruleFailures := sortBy RuleFailure.order (a.ruleFailures ++ b.ruleFailures) }

theorem countOf_sortBy_append (order : Finding → Finding → Ordering) (fs gs : List Finding)
    (severity : Severity) :
    countOf (sortBy order (fs ++ gs)) severity = countOf fs severity + countOf gs severity := by
  rw [countOf, (sortBy_perm (fs ++ gs)).countP_eq, List.countP_append, countOf, countOf]

/-- Two sorted lists, sorted together, are what is got by sorting all at once. -/
theorem sortBy_append_sortBy {α : Type} {order : α → α → Ordering} [Std.TransCmp order]
    {l m : List α} (h : Untied order (l ++ m)) :
    sortBy order (l ++ m) = sortBy order (sortBy order l ++ sortBy order m) :=
  sortBy_eq_of_perm ((sortBy_perm l).symm.append (sortBy_perm m).symm) h

theorem sortBy_distinct_append {α : Type} [BEq α] [LawfulBEq α] {order : α → α → Ordering}
    [Std.TransCmp order] {l m : List α} (hapart : ∀ a ∈ l, ∀ b ∈ m, a ≠ b)
    (h : Untied order (l ++ m)) :
    sortBy order (distinct (l ++ m)) =
      sortBy order (sortBy order (distinct l) ++ sortBy order (distinct m)) := by
  have huntied := h.distinct
  rw [distinct_append hapart] at huntied ⊢
  exact sortBy_append_sortBy huntied

theorem length_passedChecks_append {checks checks' : List CheckResult}
    (h : ∀ c ∈ checks, ∀ c' ∈ checks', c.file ≠ c'.file) :
    (passedChecks (checks ++ checks')).length =
      (passedChecks checks).length + (passedChecks checks').length := by
  rw [passedChecks, List.filter_append, List.map_append, distinct_append, List.length_append,
    passedChecks, passedChecks]
  intro a ha b hb hab
  obtain ⟨c, hc, rfl⟩ := List.mem_map.mp ha
  obtain ⟨c', hc', rfl⟩ := List.mem_map.mp hb
  exact h c (List.mem_filter.mp hc).1 c' (List.mem_filter.mp hc').1 (Prod.mk.inj hab).2

theorem aggregate_append {findings findings' : List Finding} {checks checks' : List CheckResult}
    {parseFailures parseFailures' : List ParseFailure}
    {ruleFailures ruleFailures' : List RuleFailure}
    (hfindings : ∀ f ∈ findings, ∀ f' ∈ findings', f.file ≠ f'.file)
    (hchecks : ∀ c ∈ checks, ∀ c' ∈ checks', c.file ≠ c'.file)
    (hparse : ∀ f ∈ parseFailures, ∀ f' ∈ parseFailures', f.path ≠ f'.path)
    (hparseUntied : Untied ParseFailure.order (parseFailures ++ parseFailures'))
    (hrule : ∀ f ∈ ruleFailures, ∀ f' ∈ ruleFailures', f.file ≠ f'.file)
    (hruleUntied : Untied RuleFailure.order (ruleFailures ++ ruleFailures')) :
    aggregate (findings ++ findings') (checks ++ checks') (parseFailures ++ parseFailures')
        (ruleFailures ++ ruleFailures') =
      (aggregate findings checks parseFailures ruleFailures).merge
        (aggregate findings' checks' parseFailures' ruleFailures') := by
  have hkeys : ∀ f ∈ findings, ∀ f' ∈ findings', f.key ≠ f'.key := fun f hf f' hf' h =>
    hfindings f hf f' hf' (Prod.mk.inj (Prod.mk.inj h).2).1
  have h₁ : sortBy Finding.order (distinctBy Finding.key (findings ++ findings')) =
      sortBy Finding.order (sortBy Finding.order (distinctBy Finding.key findings) ++
        sortBy Finding.order (distinctBy Finding.key findings')) := by
    have huntied := untied_distinctBy_key (findings ++ findings')
    rw [distinctBy_append hkeys] at huntied ⊢
    exact sortBy_append_sortBy huntied
  have h₂ := sortBy_distinct_append (fun f hf f' hf' h => hparse f hf f' hf' (h ▸ rfl)) hparseUntied
  have h₃ := sortBy_distinct_append (fun f hf f' hf' h => hrule f hf f' hf' (h ▸ rfl)) hruleUntied
  simp only [aggregate, merge, h₁, h₂, h₃, countOf_sortBy_append,
    length_passedChecks_append hchecks, Int.natCast_add]

theorem aggregate_failure (failure : ParseFailure) :
    aggregate [] [] [failure] [] = { parseFailures := [failure] } := by
  simp [aggregate, sortBy, distinct, distinctBy, distinctFrom, countOf, passedChecks]

theorem merge_failure (failure : ParseFailure) (findings : List Finding)
    (checks : List CheckResult) (parseFailures : List ParseFailure)
    (ruleFailures : List RuleFailure) :
    let r := aggregate findings checks parseFailures ruleFailures
    merge { parseFailures := [failure] } r =
      { r with parseFailures := sortBy ParseFailure.order (failure :: r.parseFailures) } := by
  simp only [aggregate, merge, List.nil_append, sortBy_sortBy, Int.zero_add, List.singleton_append]

end Report

end ContainerAudit
