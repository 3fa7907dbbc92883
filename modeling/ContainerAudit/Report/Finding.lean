import ContainerAudit.Rule.Registry

/-!
# Findings

What comes of running rules on manifests: findings, checks, and rules that failed.
-/

namespace ContainerAudit

/-- A violation of a rule in a file. -/
structure Finding where
  rule : String
  severity : Severity
  file : String
  line : Int
  text : String
  message : String
  title : String := ""
  cwe : Option String := none
  fix : Option String := none
  deriving DecidableEq, Repr

/-- A rule was run on a file; it passed if it found nothing. -/
structure CheckResult where
  rule : String
  file : String
  passed : Bool
  deriving DecidableEq, Repr

/-- A rule failed on a file. -/
structure RuleFailure where
  rule : String
  file : String
  reason : String
  deriving DecidableEq, Repr

/-- What a run has produced, in the order of evaluation. -/
structure Evaluation where
  findings : List Finding := []
  checks : List CheckResult := []
  failures : List RuleFailure := []
  deriving DecidableEq, Repr

/-- One run after another. -/
def Evaluation.append (a b : Evaluation) : Evaluation :=
  ⟨a.findings ++ b.findings, a.checks ++ b.checks, a.failures ++ b.failures⟩

/-- The first text, unless it is missing or empty. -/
def orText (a : Option String) (b : Option String) : Option String :=
  match a with
  | some s => if s.isEmpty then b else some s
  | none => b

/-- A match with the particulars of its rule and file. The match's own message and fix come
first. -/
def Finding.ofMatch (rule : Rule) (file : String) (m : Match) : Finding :=
  { rule := rule.id, severity := rule.severity, file, line := m.line, text := m.text,
    message := (orText m.message (some rule.message)).getD "", title := rule.title,
    cwe := rule.cwe, fix := orText m.fix rule.fix }

/-- Run a rule on a manifest. -/
def Rule.evaluate (rule : Rule) (p : Patterns) (m : Manifest) : Evaluation :=
  match rule.check m p with
  | .ok found =>
    let findings := found.map (Finding.ofMatch rule m.path)
    { findings, checks := [⟨rule.id, m.path, findings.isEmpty⟩] }
  | .error reason => { failures := [⟨rule.id, m.path, reason⟩] }

/-- The rules of a registry that apply to a manifest and are not suppressed. -/
def Registry.applicable (r : Registry) (suppressed : List String) (m : Manifest) : List Rule :=
  (r.ofKind m.content.kind).filter fun rule => !suppressed.contains rule.id

/-- The pairs of a manifest and a rule that applies to it, manifest by manifest. -/
def Registry.tasks (r : Registry) (suppressed : List String) (ms : List Manifest) :
    List (Manifest × Rule) :=
  ms.flatMap fun m => (r.applicable suppressed m).map fun rule => (m, rule)

/-- Run the rules of a registry on manifests. -/
def Registry.run (r : Registry) (p : Patterns) (suppressed : List String) (ms : List Manifest) :
    Evaluation :=
  ((r.tasks suppressed ms).map fun (m, rule) => rule.evaluate p m).foldr Evaluation.append {}

end ContainerAudit
