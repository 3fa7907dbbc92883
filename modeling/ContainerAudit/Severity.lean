/-!
# Severities

How grave a finding is.
-/

namespace ContainerAudit

inductive Severity where
  | critical
  | high
  | medium
  deriving DecidableEq, Repr

namespace Severity

/-- All severities, the gravest first. -/
def all : List Severity := [critical, high, medium]

/-- The rank of a severity; the graver one ranks higher. -/
def rank : Severity → Nat
  | critical => 3
  | high => 2
  | medium => 1

def name : Severity → String
  | critical => "CRITICAL"
  | high => "HIGH"
  | medium => "MEDIUM"

def label : Severity → String
  | critical => "Critical"
  | high => "High"
  | medium => "Medium"

def ofName? (name : String) : Option Severity :=
  all.find? (·.name == name)

end Severity

end ContainerAudit
