import ContainerAudit.Rule.Catalogue
import ContainerAudit.Text.Column

/-!
# Registries of rules

An ordered collection of rules in which no two have the same id.
-/

namespace ContainerAudit

structure Registry where
  rules : List Rule
  /-- No two rules have the same id. -/
  nodup_ids : (rules.map Rule.id).Nodup

/-- A rule was registered under an id that is taken. -/
structure DuplicateRule where
  id : String
  deriving DecidableEq, Repr

def DuplicateRule.text (d : DuplicateRule) : String :=
  "Rule " ++ d.id ++ " is already registered"

namespace Registry

def empty : Registry := ⟨[], List.nodup_nil⟩

def get? (r : Registry) (id : String) : Option Rule :=
  r.rules.find? (·.id == id)

def contains (r : Registry) (id : String) : Bool :=
  r.rules.any (·.id == id)

def size (r : Registry) : Nat :=
  r.rules.length

/-- The rules for a kind of manifest, in order. -/
def ofKind (r : Registry) (kind : Kind) : List Rule :=
  r.rules.filter (·.kind == kind)

/-- A rule whose id is not taken keeps the ids apart. -/
theorem nodup_ids_concat (r : Registry) {rule : Rule} (h : ¬r.contains rule.id) :
    ((r.rules ++ [rule]).map Rule.id).Nodup := by
  have hfresh : ∀ other ∈ r.rules, other.id ≠ rule.id := by
    simpa [contains] using h
  rw [List.map_append, List.nodup_append]
  refine ⟨r.nodup_ids, by simp, ?_⟩
  intro id hid id' hid'
  obtain ⟨other, hother, rfl⟩ := List.mem_map.mp hid
  rw [List.mem_singleton.mp hid']
  exact hfresh other hother

/-- Add a rule at the end. -/
def register (r : Registry) (rule : Rule) : Except DuplicateRule Registry :=
  if h : r.contains rule.id then .error ⟨rule.id⟩
  else .ok ⟨r.rules ++ [rule], r.nodup_ids_concat h⟩

/-- The registry of all rules of the catalogue. -/
def standard : Registry := ⟨Rule.catalogue, by decide⟩

theorem standard_ofKind_dockerfile :
    standard.ofKind .dockerfile = Rule.imageSecurityRules ++ Rule.optimizationRules :=
  rfl

theorem standard_ofKind_compose : standard.ofKind .compose = Rule.serviceRules :=
  rfl

/-- One line on a rule. -/
def ruleLine (rule : Rule) : String :=
  Text.padEnd 16 rule.id ++ " " ++ Text.padEnd 9 rule.severity.name ++ " " ++
    Text.padEnd 8 (rule.cwe.getD "-") ++ " " ++ rule.title

def listing (r : Registry) : String :=
  "\n".intercalate (r.rules.map ruleLine)

end Registry

end ContainerAudit
