import ContainerAudit.Proofs.Report.Canonical
import ContainerAudit.Report.Text
import Mathlib.Algebra.BigOperators.Group.List.Lemmas

/-!
# Recommended actions

A report recommends one action for each of the rules that come first in it.  The findings that bring
these rules in are told apart from the others by two things (`Introduces`): nothing before such a
finding has its rule, and the rules of all that stands before it are brought in as well.  The walk
that looks for them ends as soon as there are enough (`noteRules_eq`).  For each of them there is
one action, with the number of findings of its rule (`recommendations_eq`).

All this holds of any list of findings.  That the actions come in the order of their urgency holds
only because a report is sorted, the gravest findings first (`aggregate_recommends`).
-/

namespace ContainerAudit.Report

def findingsOf (r : Report) (rule : String) : Nat :=
  (r.findings.filter fun f => f.rule = rule).length

/-- The text of an action, from the first finding of a rule and the number of its findings. -/
def actionText (f : Finding) (count : Nat) : String :=
  "[" ++ f.severity.name ++ "] " ++ f.title ++ " (" ++ f.rule ++ ", " ++
    (if count = 1 then "1 occurrence" else toString count ++ " occurrences") ++ "): " ++
    (f.fix.filter fun s => !s.isEmpty).getD f.message

/-- The findings that bring in the first rules of a report, as many as the limit allows. -/
structure Introduces (r : Report) (limit : Int) (firsts : List Finding) : Prop where
  /-- They stand in the order of the report. -/
  sublist : firsts.Sublist r.findings
  /-- Each is the first with its rule, and the rules before it are brought in as well. -/
  first : ∀ f ∈ firsts, ∃ before after, r.findings = before ++ f :: after ∧
    ∀ g ∈ before, g.rule ≠ f.rule ∧ g.rule ∈ firsts.map Finding.rule
  length_eq : firsts.length = min limit.toNat (r.findings.map Finding.rule).toFinset.card

/-- The first finding of each rule, up to the limit. -/
def leading (r : Report) (limit : Int) : List Finding :=
  (distinctBy Finding.rule r.findings).take limit.toNat

theorem mem_of_mem_leading {r : Report} {limit : Int} {f : Finding} (h : f ∈ r.leading limit) :
    f ∈ r.findings :=
  mem_of_mem_distinctBy (List.mem_of_mem_take h)

theorem introduces_leading (r : Report) (limit : Int) : r.Introduces limit (r.leading limit) where
  sublist := (List.take_sublist _ _).trans (distinctBy_sublist _)
  first := by
    intro f hf
    have hfirst := mem_distinctBy.mp (List.mem_of_mem_take hf)
    obtain ⟨-, before, after, hsplit, hbefore⟩ := List.find?_eq_some_iff_append.mp hfirst
    have hother : ∀ g ∈ before, g.rule ≠ f.rule := by simpa using hbefore
    refine ⟨before, after, hsplit, fun g hg => ⟨hother g hg, ?_⟩⟩
    -- what is distinct before the finding is cut off only if the finding is
    have hpart : distinctBy Finding.rule before <+: distinctBy Finding.rule r.findings := by
      rw [hsplit]
      exact (List.prefix_append _ _).trans (distinctBy_isPrefix hother)
    have hlength : (distinctBy Finding.rule before).length ≤ limit.toNat := by
      by_contra hlong
      have hcut : r.leading limit <+: distinctBy Finding.rule before :=
        List.prefix_of_prefix_length_le (List.take_prefix _ _) hpart
          ((List.length_take_le _ _).trans (Nat.le_of_not_le hlong))
      exact hother f (mem_of_mem_distinctBy (hcut.subset hf)) rfl
    obtain ⟨d, hd, hrule⟩ : ∃ d ∈ distinctBy Finding.rule before, d.rule = g.rule :=
      exists_mem_distinctBy hg
    rw [← hrule]
    exact List.mem_map_of_mem ((List.prefix_take_iff.mpr ⟨hpart, hlength⟩).subset hd)
  length_eq := by
    rw [leading, List.length_take, ← length_distinct, distinct_map, List.length_map]

/-- The walk keeps what is noted and adds the rules that are new, up to the limit.  It ends behind a
finding only, so the first rule is noted even if the limit is zero or less. -/
theorem noteRules_eq {limit : Int} {noted : List String} (h : noted.length < (max limit 1).toNat)
    (findings : List Finding) :
    noteRules limit noted findings =
      (noted ++ (distinctFrom Finding.rule noted findings).map Finding.rule).take
        (max limit 1).toNat := by
  induction findings generalizing noted with
  | nil =>
      rw [noteRules, distinctFrom, List.map_nil, List.append_nil, List.take_of_length_le]
      omega
  | cons f findings ih =>
      by_cases hmem : f.rule ∈ noted
      · have hpos : 0 < noted.length := List.length_pos_of_mem hmem
        have hgoes : ¬limit ≤ noted.length := by omega
        rw [noteRules, if_pos (List.contains_iff_mem.mpr hmem), if_neg hgoes,
          distinctFrom_cons_of_mem hmem, ih h]
      · have hnew : ¬noted.contains f.rule = true := fun hf => hmem (List.contains_iff_mem.mp hf)
        have hseen : distinctFrom Finding.rule (f.rule :: noted) findings =
            distinctFrom Finding.rule (noted ++ [f.rule]) findings :=
          distinctFrom_congr fun g _ => by simp [or_comm]
        have happend : noted ++ (f :: distinctFrom Finding.rule (noted ++ [f.rule]) findings).map
            Finding.rule = (noted ++ [f.rule]) ++
              (distinctFrom Finding.rule (noted ++ [f.rule]) findings).map Finding.rule := by
          rw [List.map_cons, List.append_assoc, List.singleton_append]
        rw [noteRules, if_neg hnew, distinctFrom_cons_of_notMem hmem, hseen, happend]
        by_cases hends : limit ≤ (noted ++ [f.rule]).length
        · have hlength : (max limit 1).toNat = (noted ++ [f.rule]).length := by
            rw [List.length_append, List.length_singleton] at hends ⊢
            omega
          rw [if_pos hends, hlength, List.take_left]
        · rw [if_neg hends]
          refine ih ?_
          omega

theorem recommended_eq_take (r : Report) (limit : Int) :
    r.recommended limit = (distinct (r.findings.map Finding.rule)).take (max limit 1).toNat := by
  have hpos : ([] : List String).length < (max limit 1).toNat := by
    rw [List.length_nil]
    omega
  rw [recommended, noteRules_eq hpos, List.nil_append, distinct_map]
  rfl

theorem recommended_eq (r : Report) {limit : Int} (hlimit : 1 ≤ limit) :
    r.recommended limit = (r.leading limit).map Finding.rule := by
  rw [recommended_eq_take, distinct_map, max_eq_left hlimit, leading, List.map_take]

theorem nodup_recommended (r : Report) (limit : Int) : (r.recommended limit).Nodup := by
  rw [recommended_eq_take]
  exact (nodup_distinctBy _).sublist (List.take_sublist _ _)

/-! ## The texts of actions -/

theorem recommendation_of_first {r : Report} {f : Finding}
    (h : r.findings.find? (·.rule == f.rule) = some f) :
    r.recommendation f.rule = some (actionText f (r.findingsOf f.rule)) := by
  have hcount : r.findings.countP (·.rule == f.rule) = r.findingsOf f.rule :=
    List.countP_eq_length_filter
  have haction : (orText f.fix (some f.message)).getD "" =
      (f.fix.filter fun s => !s.isEmpty).getD f.message := by
    cases f.fix with
    | none => rfl
    | some s =>
        rw [orText, Option.filter_some]
        cases s.isEmpty <;> rfl
  rw [recommendation, h, Option.map_some, hcount, haction]
  rfl

/-- No rule that is brought in goes without its action. -/
theorem recommendations_eq (r : Report) {limit : Int} (hlimit : 1 ≤ limit) :
    r.recommendations limit =
      (r.leading limit).map fun f => actionText f (r.findingsOf f.rule) := by
  rw [recommendations, recommended_eq r hlimit, List.filterMap_map, ← List.filterMap_eq_map]
  refine List.filterMap_congr fun f hf => ?_
  exact recommendation_of_first (mem_distinctBy.mp (List.mem_of_mem_take hf))

/-! ## The number of findings -/

/-- If the limit cuts nothing off, each finding is counted for one of the rules. -/
theorem foldr_findingsOf (r : Report) {limit : Int}
    (h : ((r.findings.map Finding.rule).toFinset.card : Int) ≤ limit) :
    ((r.recommended limit).map r.findingsOf).foldr (· + ·) 0 = r.findings.length := by
  have hall : r.recommended limit = distinct (r.findings.map Finding.rule) := by
    have hlength : (distinct (r.findings.map Finding.rule)).length ≤ (max limit 1).toNat := by
      rw [length_distinct]
      omega
    rw [recommended_eq_take, List.take_of_length_le hlength]
  have hdedup : (r.recommended limit).Perm (r.findings.map Finding.rule).dedup := by
    refine (List.perm_ext_iff_of_nodup (nodup_recommended r limit) (List.nodup_dedup _)).mpr ?_
    intro rule
    rw [hall, mem_distinct, List.mem_dedup]
  have hcount : r.findingsOf = fun rule => (r.findings.map Finding.rule).count rule := by
    funext rule
    rw [List.count, List.countP_map, List.countP_eq_length_filter]
    rfl
  calc ((r.recommended limit).map r.findingsOf).foldr (· + ·) 0
    _ = ((r.findings.map Finding.rule).dedup.map r.findingsOf).foldr (· + ·) 0 :=
        (hdedup.map _).foldr_op_eq
    _ = ((r.findings.map Finding.rule).dedup.map fun rule =>
          (r.findings.map Finding.rule).count rule).sum := by
        rw [hcount, List.sum_eq_foldr]
    _ = r.findings.length := by
        rw [List.sum_map_count_dedup_eq_length, List.length_map]

/-- What a report recommends. -/
structure Recommends (r : Report) (limit : Int) (firsts : List Finding) : Prop
    extends Introduces r limit firsts where
  nodup : (r.recommended limit).Nodup
  ids : r.recommended limit = firsts.map Finding.rule
  /-- The graver findings come first. -/
  graver : firsts.Pairwise fun f g => g.severity.rank ≤ f.severity.rank
  actions : r.recommendations limit = firsts.map fun f => actionText f (r.findingsOf f.rule)
  total : ((r.findings.map Finding.rule).toFinset.card : Int) ≤ limit →
    (((r.recommended limit).map r.findingsOf).foldr (· + ·) 0 : Nat) = r.summary.total

/-- **A report recommends one action for each of its first rules, the gravest first.**  Where the
limit leaves no rule out, the numbers of findings in the actions add up to the total of the
report. -/
theorem aggregate_recommends (raw : List Finding) (checks : List CheckResult)
    (parseFailures : List ParseFailure) (ruleFailures : List RuleFailure) {limit : Int}
    (hlimit : 1 ≤ limit) :
    ∃ firsts, (aggregate raw checks parseFailures ruleFailures).Recommends limit firsts := by
  have hcanonical := canonical_aggregate raw checks parseFailures ruleFailures
  generalize aggregate raw checks parseFailures ruleFailures = r at hcanonical ⊢
  have hleading := introduces_leading r limit
  refine ⟨r.leading limit, hleading, nodup_recommended r limit, recommended_eq r hlimit, ?_,
    recommendations_eq r hlimit, ?_⟩
  · have hranks : r.findings.Pairwise fun f g => g.severity.rank ≤ f.severity.rank := by
      refine hcanonical.ordered.imp fun h => ?_
      rcases h with hgraver | ⟨hsame, -⟩
      · exact Nat.le_of_lt hgraver
      · exact Nat.le_of_eq hsame
    exact hranks.sublist hleading.sublist
  · intro hall
    rw [foldr_findingsOf r hall]
    exact hcanonical.total.symm

/-- Findings of two rules, one of them twice, as they stand in a report. -/
def twoRules : List Finding :=
  [{ rule := "SEC-001", severity := .critical, file := "a/Dockerfile", line := 7,
      text := "USER root", message := "Runs as root.", title := "Root", fix := some "Add USER." },
    { rule := "SEC-001", severity := .critical, file := "b/Dockerfile", line := 2,
      text := "USER 0", message := "Runs as root.", title := "Root", fix := some "" },
    { rule := "OPT-001", severity := .medium, file := "a/Dockerfile", line := 1,
      text := "FROM node", message := "Large.", title := "Base", fix := some "" }]

theorem aggregate_twoRules :
    aggregate twoRules = { findings := twoRules, summary := { critical := 2, medium := 1 } } := by
  have hdistinct : distinctBy Finding.key twoRules = twoRules := by decide
  have hordered : twoRules.Pairwise fun a b => (Finding.order a b).isLE = true := by decide
  have hsorted : sortBy Finding.order twoRules = twoRules := List.mergeSort_of_pairwise hordered
  have hparse : sortBy ParseFailure.order (distinct []) = [] := List.mergeSort_nil
  have hrule : sortBy RuleFailure.order (distinct []) = [] := List.mergeSort_nil
  rw [aggregate, hdistinct, hsorted, hparse, hrule]
  rfl

/-- The graver rule comes first, with both of its findings counted. -/
theorem aggregate_recommends_two_rules :
    ∃ firsts, (aggregate twoRules).Recommends 2 firsts ∧
      firsts.map Finding.rule = ["SEC-001", "OPT-001"] ∧
      (aggregate twoRules).recommendations 2 =
        ["[CRITICAL] Root (SEC-001, 2 occurrences): Add USER.",
          "[MEDIUM] Base (OPT-001, 1 occurrence): Large."] := by
  obtain ⟨firsts, h⟩ := aggregate_recommends twoRules [] [] [] (show (1 : Int) ≤ 2 by decide)
  refine ⟨firsts, h, ?_, ?_⟩
  · rw [← h.ids, aggregate_twoRules]
    decide
  · rw [aggregate_twoRules]
    decide

end ContainerAudit.Report
