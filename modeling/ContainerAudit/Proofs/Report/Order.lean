import ContainerAudit.Report.Basic
import Mathlib.Data.List.Forall2
import Mathlib.Data.List.Perm.Basic

/-!
# The orders of a report

The orders by which a report is sorted are lawful, but they do not tell all elements apart: two
findings with the same severity, file, line and rule may differ in their texts, and two failures in
their reasons.  Sorting therefore gives one result for all orders of a list only if no two of its
elements tie (`sortBy_eq_of_perm`).
-/

namespace ContainerAudit

open Std (TransCmp OrientedCmp)

section SortBy

variable {α : Type} {order : α → α → Ordering}

theorem sortBy_perm (l : List α) : (sortBy order l).Perm l :=
  List.mergeSort_perm l _

theorem mem_sortBy {l : List α} {a : α} : a ∈ sortBy order l ↔ a ∈ l :=
  (sortBy_perm l).mem_iff

/-- No two elements of the list tie. -/
def Untied (order : α → α → Ordering) (l : List α) : Prop :=
  ∀ a ∈ l, ∀ b ∈ l, order a b = .eq → a = b

theorem Untied.of_subset {l m : List α} (h : Untied order m) (hsub : l ⊆ m) : Untied order l :=
  fun a ha b hb => h a (hsub ha) b (hsub hb)

/-- Lists that correspond do so after sorting, if the order tells no difference between them. -/
theorem forall₂_sortBy {R : α → α → Prop}
    (horder : ∀ a a' b b', R a a' → R b b' → order a' b' = order a b) {l m : List α}
    (h : List.Forall₂ R l m) : List.Forall₂ R (sortBy order l) (sortBy order m) := by
  -- both are read off one sorted list of pairs
  obtain ⟨hlength, hzip⟩ := List.forall₂_iff_zip.mp h
  have hfst : (l.zip m).map Prod.fst = l := List.map_fst_zip (Nat.le_of_eq hlength)
  have hsnd : (l.zip m).map Prod.snd = m := List.map_snd_zip (Nat.le_of_eq hlength.symm)
  have hl : ((l.zip m).mergeSort fun x y => (order x.1 y.1).isLE).map Prod.fst =
      sortBy order l := by
    conv_rhs => rw [← hfst]
    exact List.map_mergeSort fun _ _ _ _ => rfl
  have hm : ((l.zip m).mergeSort fun x y => (order x.1 y.1).isLE).map Prod.snd =
      sortBy order m := by
    conv_rhs => rw [← hsnd]
    refine List.map_mergeSort fun x hx y hy => ?_
    rw [horder x.1 x.2 y.1 y.2 (hzip hx) (hzip hy)]
  rw [← hl, ← hm, List.forall₂_map_left_iff, List.forall₂_map_right_iff]
  exact List.forall₂_same.mpr fun x hx => hzip (List.mem_mergeSort.mp hx)

variable [TransCmp order]

theorem pairwise_sortBy (l : List α) : (sortBy order l).Pairwise fun a b => (order a b).isLE := by
  refine List.pairwise_mergeSort (fun a b c => TransCmp.isLE_trans) (fun a b => ?_) l
  have hswap : order b a = (order a b).swap := OrientedCmp.eq_swap
  rw [hswap]
  cases order a b <;> rfl

theorem sortBy_sortBy (l : List α) : sortBy order (sortBy order l) = sortBy order l :=
  List.mergeSort_of_pairwise (pairwise_sortBy l)

/-- Lists with the same elements are sorted alike if no two of the elements tie. -/
theorem sortBy_eq_of_perm {l m : List α} (hperm : l.Perm m) (h : Untied order l) :
    sortBy order l = sortBy order m := by
  refine List.Perm.eq_of_pairwise ?_ (pairwise_sortBy l) (pairwise_sortBy m)
    ((sortBy_perm l).trans (hperm.trans (sortBy_perm m).symm))
  intro a b ha hb hab hba
  have hb' : b ∈ l := hperm.mem_iff.mpr (mem_sortBy.mp hb)
  exact h a (mem_sortBy.mp ha) b hb' (OrientedCmp.isLE_antisymm hab hba)

/-- Some of the elements may be taken out before sorting or after. -/
theorem sortBy_filter (keep : α → Bool) {l : List α} (h : Untied order l) :
    sortBy order (l.filter keep) = (sortBy order l).filter keep :=
  calc sortBy order (l.filter keep)
    _ = sortBy order ((sortBy order l).filter keep) :=
        sortBy_eq_of_perm ((sortBy_perm l).filter keep).symm
          (h.of_subset (List.filter_subset_self l))
    _ = (sortBy order l).filter keep :=
        List.mergeSort_of_pairwise ((pairwise_sortBy l).filter keep)

end SortBy

/-! ## The three orders -/

instance : TransCmp Finding.order :=
  inferInstanceAs <| TransCmp <| compareLex (fun a b => compareOn (·.severity.rank) b a) <|
    compareLex (compareOn Finding.file) <|
    compareLex (compareOn Finding.line) (compareOn Finding.rule)

instance : TransCmp ParseFailure.order :=
  inferInstanceAs <| TransCmp <|
    compareLex (compareOn ParseFailure.path) (compareOn fun f => f.line.getD 0)

instance : TransCmp RuleFailure.order :=
  inferInstanceAs <| TransCmp <|
    compareLex (compareOn RuleFailure.file) (compareOn RuleFailure.rule)

/-- Findings tie only if they count as one. -/
theorem Finding.key_eq_of_order_eq {a b : Finding} (h : Finding.order a b = .eq) :
    a.key = b.key := by
  simp only [Finding.order, Ordering.then_eq_eq, Std.compare_eq_iff_eq] at h
  obtain ⟨-, hfile, hline, hrule⟩ := h
  rw [Finding.key, Finding.key, hfile, hline, hrule]

theorem ParseFailure.path_eq_of_order_eq {a b : ParseFailure} (h : ParseFailure.order a b = .eq) :
    a.path = b.path := by
  simp only [ParseFailure.order, Ordering.then_eq_eq, Std.compare_eq_iff_eq] at h
  exact h.1

theorem RuleFailure.eq_of_order_eq {a b : RuleFailure} (h : RuleFailure.order a b = .eq) :
    a.file = b.file ∧ a.rule = b.rule := by
  simpa only [RuleFailure.order, Ordering.then_eq_eq, Std.compare_eq_iff_eq] using h

end ContainerAudit
