import ContainerAudit.Proofs.Entries
import ContainerAudit.Rule.Registry
import Mathlib.Data.List.Perm.Lattice

/-!
# What a registry holds after any attempts

Rules are registered one after another, and an attempt that is refused does not end the run.
Whatever the attempts were, the registry holds the first rule of each id in the order of the
attempts.  This is what one attempt preserves (`rules_attempt`), and all that can be asked of a
registry follows from it (`attempts_keep_first`).
-/

namespace ContainerAudit.Registry

/-! ## One attempt -/

theorem contains_iff {r : Registry} {id : String} :
    r.contains id = true ↔ id ∈ r.rules.map Rule.id := by
  simp [contains]

theorem register_of_mem {r : Registry} {rule : Rule} (h : rule.id ∈ r.rules.map Rule.id) :
    r.register rule = .error ⟨rule.id⟩ := by
  rw [register, dif_pos (contains_iff.mpr h)]

theorem register_of_notMem {r : Registry} {rule : Rule} (h : rule.id ∉ r.rules.map Rule.id) :
    ∃ r', r.register rule = .ok r' ∧ r'.rules = r.rules ++ [rule] := by
  rw [register, dif_neg (mt contains_iff.mp h)]
  exact ⟨_, rfl, rfl⟩

/-- The registry after an attempt to register a rule.  If the rule is refused, nothing has been
added. -/
def attempt (r : Registry) (rule : Rule) : Registry :=
  match r.register rule with
  | .ok r' => r'
  | .error _ => r

theorem attempt_of_mem {r : Registry} {rule : Rule} (h : rule.id ∈ r.rules.map Rule.id) :
    r.attempt rule = r := by
  rw [attempt, register_of_mem h]

theorem rules_attempt_of_notMem {r : Registry} {rule : Rule} (h : rule.id ∉ r.rules.map Rule.id) :
    (r.attempt rule).rules = r.rules ++ [rule] := by
  obtain ⟨r', hr', hrules⟩ := register_of_notMem h
  rw [attempt, hr', hrules]

/-- The ids in a registry that holds the first rules of all ids are those that were attempted. -/
theorem mem_ids_iff {r : Registry} {attempted : List Rule}
    (h : r.rules = distinctBy Rule.id attempted) {id : String} :
    id ∈ r.rules.map Rule.id ↔ id ∈ attempted.map Rule.id := by
  rw [h, ← distinct_map, mem_distinct]

theorem rules_attempt {r : Registry} {attempted : List Rule}
    (h : r.rules = distinctBy Rule.id attempted) (rule : Rule) :
    (r.attempt rule).rules = distinctBy Rule.id (attempted ++ [rule]) := by
  by_cases hrule : rule.id ∈ attempted.map Rule.id
  · rw [attempt_of_mem ((mem_ids_iff h).mpr hrule), distinctBy_concat_of_mem hrule, h]
  · have hfresh : ∀ a ∈ attempted, ∀ b ∈ [rule], a.id ≠ b.id := by
      rintro a ha b hb heq
      rw [List.mem_singleton.mp hb] at heq
      exact hrule (heq ▸ List.mem_map_of_mem ha)
    rw [rules_attempt_of_notMem (mt (mem_ids_iff h).mp hrule), distinctBy_append hfresh, h]
    rfl

/-! ## Any number of attempts -/

/-- The registry after attempts to register rules, the first of them on an empty registry. -/
def after (attempted : List Rule) : Registry :=
  attempted.foldl attempt empty

theorem after_concat (attempted : List Rule) (rule : Rule) :
    after (attempted ++ [rule]) = (after attempted).attempt rule := by
  rw [after, List.foldl_append]
  rfl

theorem rules_after (attempted : List Rule) :
    (after attempted).rules = distinctBy Rule.id attempted := by
  induction attempted using List.reverseRecOn with
  | nil => rfl
  | append_singleton attempted rule ih =>
      rw [after_concat]
      exact rules_attempt ih rule

/-! ## What can be asked -/

theorem ofKind_perm (r : Registry) : (r.ofKind .dockerfile ++ r.ofKind .compose).Perm r.rules := by
  have hother : r.ofKind .compose = r.rules.filter fun rule => !(rule.kind == .dockerfile) := by
    refine List.filter_congr fun rule _ => ?_
    cases rule.kind <;> rfl
  rw [hother]
  exact List.filter_append_perm _ _

/-- The registry holds the first rule attempted with each id, in order, and answers accordingly.
The rules of the two kinds stand in that order too, and together they are all rules. -/
structure KeepsFirst (attempted : List Rule) (r : Registry) : Prop where
  rules : r.rules = distinctBy Rule.id attempted
  get : ∀ id, r.get? id = attempted.find? (·.id == id)
  contains : ∀ id, r.contains id = true ↔ id ∈ attempted.map Rule.id
  size : r.size = (attempted.map Rule.id).toFinset.card
  ofKind : ∀ kind, (r.ofKind kind).Sublist r.rules ∧
    ∀ rule, rule ∈ r.ofKind kind ↔ rule ∈ r.rules ∧ rule.kind = kind
  complementary : (r.ofKind .dockerfile ++ r.ofKind .compose).Perm r.rules

theorem keepsFirst_of_rules {r : Registry} {attempted : List Rule}
    (h : r.rules = distinctBy Rule.id attempted) : r.KeepsFirst attempted where
  rules := h
  get id := by rw [get?, h, find?_distinctBy]
  contains id := contains_iff.trans (mem_ids_iff h)
  size := by rw [size, h, ← length_distinct, distinct_map, List.length_map]
  ofKind kind := ⟨List.filter_sublist, fun rule => by simp [ofKind]⟩
  complementary := r.ofKind_perm

/-- **After any attempts a registry holds the first rule of each id.**  An attempt is refused
exactly if its id was attempted before, even if it was refused then.  A refusal names the id and
leaves the registry, and with it every answer, as it was. -/
theorem attempts_keep_first (attempted : List Rule) :
    (after attempted).KeepsFirst attempted ∧
    ∀ rule, ((∃ d, (after attempted).register rule = .error d) ↔ rule.id ∈ attempted.map Rule.id) ∧
      ∀ d, (after attempted).register rule = .error d →
        d.id = rule.id ∧ after (attempted ++ [rule]) = after attempted := by
  have hrules := rules_after attempted
  refine ⟨keepsFirst_of_rules hrules, fun rule => ?_⟩
  by_cases hrule : rule.id ∈ attempted.map Rule.id
  · have htaken := (mem_ids_iff hrules).mpr hrule
    rw [register_of_mem htaken, after_concat, attempt_of_mem htaken]
    refine ⟨iff_of_true ⟨_, rfl⟩ hrule, fun d hd => ?_⟩
    obtain rfl := Except.error.inj hd
    exact ⟨rfl, rfl⟩
  · obtain ⟨r', haccepted, -⟩ := register_of_notMem (mt (mem_ids_iff hrules).mp hrule)
    rw [haccepted]
    refine ⟨iff_of_false ?_ hrule, fun d hd => ?_⟩
    · rintro ⟨d, hd⟩
      cases hd
    · cases hd

/-- A rule that never reports anything. -/
def silent (id : String) (kind : Kind) : Rule where
  id := id
  kind := kind
  severity := .medium
  title := id
  check := fun _ _ => .ok []

def twoRules : List Rule :=
  [silent "A" .dockerfile, silent "B" .compose]

/-- The second rule with an id is refused, though it is of another kind, and the first one stays. -/
theorem attempts_keep_first_of_two :
    after (twoRules ++ [silent "A" .compose]) = after twoRules ∧
    (after twoRules).get? "A" = some (silent "A" .dockerfile) := by
  obtain ⟨hkeeps, hattempt⟩ := attempts_keep_first twoRules
  obtain ⟨hrefused, hunchanged⟩ := hattempt (silent "A" .compose)
  obtain ⟨d, hd⟩ := hrefused.mpr (by decide)
  exact ⟨(hunchanged d hd).2, hkeeps.get "A"⟩

end ContainerAudit.Registry
