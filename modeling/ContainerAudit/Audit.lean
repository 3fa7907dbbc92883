import ContainerAudit.Config
import ContainerAudit.Report.Basic

/-!
# Audits

An audit reads manifests, runs the rules on them, and reports. A file that cannot be read is
reported and leaves the others alone.
-/

namespace ContainerAudit

/-- A text with the path of its file. -/
structure Source where
  path : String
  text : String
  deriving DecidableEq, Repr

namespace Audit

/-- Why there is no report. -/
inductive Error where
  /-- Rules are suppressed that the registry does not have. -/
  | unknownRules (ids : List String)
  /-- A YAML scalar does not fit its tag. -/
  | mismatch (kind : Yaml.Mismatch)
  deriving DecidableEq, Repr

/-- The message for an error. There is none for a scalar that does not fit its tag. -/
def Error.text? : Error → Option String
  | unknownRules ids => some ("Cannot suppress unknown rule(s): " ++ ", ".intercalate ids)
  | mismatch _ => none

/-- The sources read so far: manifests, and files that are none. -/
structure Reading where
  manifests : List Manifest := []
  failures : List ParseFailure := []

def read : List Source → Except Yaml.Mismatch Reading
  | [] => .ok {}
  | source :: rest =>
    match Manifest.parse source.path source.text with
    | .ok manifest =>
      (read rest).map fun r => { r with manifests := manifest :: r.manifests }
    | .error (.parse failure) =>
      (read rest).map fun r => { r with failures := failure :: r.failures }
    | .error (.mismatch kind) => .error kind

/-- The ids that a registry does not have. -/
def unknownRules (registry : Registry) (ids : List String) : List String :=
  ids.filter fun id => !registry.contains id

/-- An audit with what led to its report. -/
structure Run where
  reading : Reading
  evaluation : Evaluation

def Run.report (r : Run) : Report :=
  .aggregate r.evaluation.findings r.evaluation.checks r.reading.failures r.evaluation.failures

/-- Audit sources by the rules of a registry. -/
def run (registry : Registry) (config : Config) (sources : List Source) : Except Error Run :=
  let unknown := unknownRules registry config.suppressed
  if unknown.isEmpty then
    match read sources with
    | .ok reading =>
      .ok ⟨reading, registry.run config.patterns config.suppressed reading.manifests⟩
    | .error kind => .error (.mismatch kind)
  else .error (.unknownRules unknown)

/-- The report on sources by the rules of a registry. -/
def report (registry : Registry) (config : Config) (sources : List Source) :
    Except Error Report :=
  (run registry config sources).map Run.report

end Audit

end ContainerAudit
