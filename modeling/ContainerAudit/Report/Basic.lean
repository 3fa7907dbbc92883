import ContainerAudit.Entries
import ContainerAudit.Report.Finding

/-!
# Reports

The findings of a run, each once and in order, with their numbers and the errors met on the way.
-/

namespace ContainerAudit

/-- The number of findings of each severity, and of checks that passed. -/
structure Summary where
  critical : Int := 0
  high : Int := 0
  medium : Int := 0
  passed : Int := 0
  deriving DecidableEq, Repr

def Summary.count (s : Summary) : Severity → Int
  | .critical => s.critical
  | .high => s.high
  | .medium => s.medium

def Summary.total (s : Summary) : Int :=
  s.critical + s.high + s.medium

/-- The severities with the numbers of their findings, the gravest first. -/
def Summary.rows (s : Summary) : List (String × Int) :=
  Severity.all.map fun severity => (severity.label, s.count severity)

structure Report where
  findings : List Finding := []
  summary : Summary := {}
  parseFailures : List ParseFailure := []
  ruleFailures : List RuleFailure := []
  deriving DecidableEq, Repr

namespace Finding

/-- Findings with the same rule, file and line count as one. -/
def key (f : Finding) : String × String × Int :=
  (f.rule, f.file, f.line)

/-- The order of findings in a report: the graver first, then by file, line and rule. -/
def order (a b : Finding) : Ordering :=
  (compare b.severity.rank a.severity.rank).then <|
    (compare a.file b.file).then <| (compare a.line b.line).then (compare a.rule b.rule)

end Finding

/-- The order of parse failures: by file and line; a missing line counts as zero. -/
def ParseFailure.order (a b : ParseFailure) : Ordering :=
  (compare a.path b.path).then (compare (a.line.getD 0) (b.line.getD 0))

/-- The order of rule failures: by file and rule. -/
def RuleFailure.order (a b : RuleFailure) : Ordering :=
  (compare a.file b.file).then (compare a.rule b.rule)

/-- Sort by an order; elements that it does not tell apart stay as they are. -/
def sortBy {α : Type} (order : α → α → Ordering) (as : List α) : List α :=
  as.mergeSort fun a b => (order a b).isLE

/-- The rules and files of the checks that passed, each once. -/
def passedChecks (checks : List CheckResult) : List (String × String) :=
  distinct ((checks.filter (·.passed)).map fun c => (c.rule, c.file))

namespace Report

def countOf (findings : List Finding) (severity : Severity) : Nat :=
  findings.countP (·.severity == severity)

/-- Bring the results of a run into a report. Of findings that count as one the first is kept. -/
def aggregate (findings : List Finding) (checks : List CheckResult := [])
    (parseFailures : List ParseFailure := []) (ruleFailures : List RuleFailure := []) : Report :=
  let findings := sortBy Finding.order (distinctBy Finding.key findings)
  { findings
    summary := ⟨countOf findings .critical, countOf findings .high, countOf findings .medium,
      (passedChecks checks).length⟩
    parseFailures := sortBy ParseFailure.order (distinct parseFailures)
    ruleFailures := sortBy RuleFailure.order (distinct ruleFailures) }

/-- Some finding is at least as grave as a threshold. -/
def failed (r : Report) (threshold : Severity) : Bool :=
  r.findings.any fun f => threshold.rank ≤ f.severity.rank

/-- The exit code of a run: one if it failed, and zero otherwise. -/
def exitCode (r : Report) (threshold : Severity) : Nat :=
  if r.failed threshold then 1 else 0

/-- Walk over findings and note the id of each rule, after those noted before. As soon as there are
as many as the limit says, the walk ends. -/
def noteRules (limit : Int) : List String → List Finding → List String
  | noted, [] => noted
  | noted, f :: rest =>
    let noted := if noted.contains f.rule then noted else noted ++ [f.rule]
    if limit ≤ noted.length then noted else noteRules limit noted rest

/-- The ids of the first rules with findings, in the order of the report. -/
def recommended (r : Report) (limit : Int) : List String :=
  noteRules limit [] r.findings

end Report

end ContainerAudit
