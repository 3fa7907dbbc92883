import ContainerAudit.Json.Writer
import ContainerAudit.Report.Basic
import ContainerAudit.Text.Column

/-!
# Reports as text

The three forms of a report: a page in Markdown, a JSON document, and a short table.
-/

namespace ContainerAudit.Report

/-! ## JSON -/

/-- A finding as JSON. The members of all objects are in alphabetical order. -/
def findingJson (f : Finding) : Json :=
  .obj [("cwe", .ofText? f.cwe), ("file", .str f.file), ("line", .int f.line),
    ("matched_text", .str f.text), ("message", .str f.message), ("rule_id", .str f.rule),
    ("severity", .str f.severity.name), ("suggested_fix", .ofText? f.fix), ("title", .str f.title)]

def parseFailureJson (f : ParseFailure) : Json :=
  .obj [("file", .str f.path), ("line", match f.line with
      | some line => .int line
      | none => .null),
    ("reason", .str f.reason)]

def ruleFailureJson (f : RuleFailure) : Json :=
  .obj [("file", .str f.file), ("reason", .str f.reason), ("rule_id", .str f.rule)]

def summaryJson (s : Summary) : Json :=
  .obj [("critical", .int s.critical), ("high", .int s.high), ("medium", .int s.medium),
    ("passed", .int s.passed)]

def toJson (r : Report) : Json :=
  .obj [("findings", .arr (r.findings.map findingJson)),
    ("parse_errors", .arr (r.parseFailures.map parseFailureJson)),
    ("rule_errors", .arr (r.ruleFailures.map ruleFailureJson)),
    ("summary", summaryJson r.summary)]

/-! ## Markdown -/

/-- Text as code within a line: blanks are squeezed, and text with a backtick gets two of them
around it. -/
def inlineCode (text : String) : String :=
  let line := Text.mapChars Text.squeeze text
  if line.toList.contains '\x60' then "`` " ++ line ++ " ``" else "`" ++ line ++ "`"

/-- A line with a label, unless there is nothing to put on it. -/
def labelled (label : String) (text : Option String) : List String :=
  match text with
  | some s => if s.isEmpty then [] else [label ++ s]
  | none => []

def findingLines (f : Finding) : List String :=
  ["### [" ++ f.severity.name ++ "] " ++ f.title ++ " (" ++ f.rule ++ ")",
    "File: " ++ f.file ++ ":" ++ toString f.line] ++
    labelled "CWE: " f.cwe ++ ["Current: " ++ inlineCode f.text] ++ labelled "Fix: " f.fix

def parseFailureLine (f : ParseFailure) : String :=
  let place := match f.line with
    | some line => f.path ++ ":" ++ toString line
    | none => f.path
  "- " ++ place ++ ": " ++ f.reason

def ruleFailureLine (f : RuleFailure) : String :=
  "- " ++ f.file ++ ": " ++ f.rule ++ ": " ++ f.reason

/-- A number of occurrences in words. -/
def occurrences (n : Nat) : String :=
  if n = 1 then "1 occurrence" else toString n ++ " occurrences"

/-- The action that a rule recommends, with its first finding. -/
def recommendation (r : Report) (rule : String) : Option String :=
  (r.findings.find? (·.rule == rule)).map fun f =>
    let count := r.findings.countP (·.rule == rule)
    "[" ++ f.severity.name ++ "] " ++ f.title ++ " (" ++ rule ++ ", " ++ occurrences count ++
      "): " ++ (orText f.fix (some f.message)).getD ""

def recommendations (r : Report) (limit : Int) : List String :=
  (r.recommended limit).filterMap r.recommendation

/-- Lines with their numbers, counted from one. -/
def numbered (lines : List String) : List String :=
  lines.mapIdx fun i line => toString (i + 1) ++ ". " ++ line

/-- A section under a heading, unless it is empty. -/
def titled (heading : String) (lines : List String) : List String :=
  if lines.isEmpty then [] else ["", heading] ++ lines

def summaryLines (s : Summary) : List String :=
  ["# Docker Security & Optimization Audit", "", "## Summary"] ++
    s.rows.map (fun (label, count) => "- " ++ label ++ ": " ++ toString count) ++
    ["- Passed: " ++ toString s.passed]

def findingSection (findings : List Finding) : List String :=
  ["", "## Findings"] ++
    if findings.isEmpty then ["", "No findings."]
    else findings.flatMap fun f => "" :: findingLines f

def markdownLines (r : Report) (limit : Int) : List String :=
  summaryLines r.summary ++
    titled "## Parse Errors" (r.parseFailures.map parseFailureLine) ++
    titled "## Rule Errors" (r.ruleFailures.map ruleFailureLine) ++
    findingSection r.findings ++
    titled "## Recommended Actions (Priority Order)" (numbered (r.recommendations limit))

/-- The report in Markdown, with a limited number of recommended actions. -/
def markdown (r : Report) (limit : Int) : String :=
  "\n".intercalate (r.markdownLines limit) ++ "\n"

/-! ## Choice of form -/

/-- The forms of a full report. -/
inductive Format where
  | markdown
  | json
  deriving DecidableEq, Repr

def Format.name : Format → String
  | .markdown => "markdown"
  | .json => "json"

def Format.all : List Format := [.markdown, .json]

def Format.ofName? (name : String) : Option Format :=
  all.find? (·.name == name)

/-- The message for a name of no form. -/
def Format.unknownText (name : String) : String :=
  "Unknown report format " ++ Text.quoted name ++ " (expected one of: " ++
    ", ".intercalate (all.map Format.name) ++ ")"

def render (r : Report) (format : Format) (limit : Int) : String :=
  match format with
  | .markdown => r.markdown limit
  | .json => r.toJson.page

/-! ## Table -/

/-- The first elements of a list; a negative number leaves out as many at the end. -/
def takeSlice {α : Type} (n : Int) (as : List α) : List α :=
  if n < 0 then as.take (as.length - n.natAbs) else as.take n.toNat

/-- The lines on the gravest findings. -/
def topLines (findings : List Finding) : List String :=
  if findings.isEmpty then []
  else
    ["", "Top Findings", Text.rule 40 '-'] ++
      findings.flatMap fun f =>
        ["[" ++ f.severity.name ++ "] " ++ f.rule ++ " " ++ f.title,
          "  Location: " ++ f.file ++ ":" ++ toString f.line]

/-- The line on the number of errors, if there are any. -/
def errorLines (r : Report) : List String :=
  let errors := r.parseFailures.length + r.ruleFailures.length
  if errors = 0 then [] else ["Errors    : " ++ toString errors]

/-- A short table of the report with its first findings. -/
def table (r : Report) (limit : Int) : String :=
  "\n".intercalate
    (["Audit Summary", Text.rule 40 '=', "Severity   | Count", Text.rule 18 '-'] ++
      r.summary.rows.map (fun (label, count) =>
        Text.padEnd 10 label ++ " | " ++ Text.padStart 5 (toString count)) ++
      [Text.rule 18 '-', "Passed    : " ++ toString r.summary.passed,
        "Findings  : " ++ toString r.summary.total] ++
      r.errorLines ++ topLines (takeSlice limit r.findings))

end ContainerAudit.Report
