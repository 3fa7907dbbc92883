import ContainerAudit.Audit
import ContainerAudit.CommandLine.Request
import ContainerAudit.Config.Load
import ContainerAudit.Discovery

/-!
# Runs

What a command line does to a workspace: what it prints, what it writes, and how it ends.
-/

namespace ContainerAudit.CommandLine

/-! ## Log lines -/

/-- How much a log line matters. -/
inductive Level where
  | debug
  | info
  | warning
  deriving DecidableEq, Repr

def Level.name : Level → String
  | debug => "DEBUG"
  | info => "INFO"
  | warning => "WARNING"

/-- The level is shown at a verbosity. -/
def Level.isShown (verbosity : Nat) : Level → Bool
  | debug => 2 ≤ verbosity
  | info => 1 ≤ verbosity
  | warning => true

/-- A line of the log: its level, where it comes from, and its text. -/
structure LogLine where
  level : Level
  source : String
  text : String
  deriving DecidableEq, Repr

def LogLine.shown (l : LogLine) : String :=
  l.level.name ++ " dockguard." ++ l.source ++ ": " ++ l.text ++ "\n"

/-- The lines that are shown at a verbosity. -/
def logText (verbosity : Nat) (log : List LogLine) : String :=
  String.join ((log.filter (·.level.isShown verbosity)).map LogLine.shown)

def missingLine (root : String) : LogLine :=
  ⟨.warning, "utils.discovery", Discovery.missingText root⟩

def configLines (w : Workspace) (path? : Option FilePath) : List LogLine :=
  (Config.loadedPath? w path?).toList.map fun path =>
    ⟨.info, "config", "Loaded configuration from " ++ path.text⟩

def foundLine (sources : List Source) : LogLine :=
  ⟨.info, "cli", "Discovered " ++ toString sources.length ++ " manifest(s)"⟩

def skippedLine (f : ParseFailure) : LogLine :=
  ⟨.warning, "audit", "Skipping " ++ f.path ++ ": " ++ f.reason⟩

def auditLines (config : Config) (run : Audit.Run) : List LogLine :=
  let manifests := run.reading.manifests
  let count := toString manifests.length
  let tasks := toString (Registry.standard.tasks config.suppressed manifests).length
  run.reading.failures.map skippedLine ++
    [⟨.debug, "engine",
        "Evaluating " ++ tasks ++ " rule/document pairs across " ++ count ++ " documents"⟩,
      ⟨.info, "audit",
        "Audited " ++ count ++ " document(s): " ++ toString run.evaluation.findings.length ++
          " finding(s), " ++ toString run.evaluation.failures.length ++ " rule error(s)"⟩]

/-! ## Outcomes -/

/-- What a run leaves behind when it comes to its end. -/
structure Finish where
  exitCode : Nat
  stdout : String
  stderr : String
  workspace : Workspace

/-- An error that breaks off a run. -/
inductive Break where
  | config (e : Config.LoadError)
  | audit (e : Audit.Error)
  | output (e : Workspace.WriteError)

inductive Outcome where
  | misuse (e : UsageError)
  | help
  | broken (cause : Break)
  | finished (f : Finish)

/-- The message on the last line for a command line that is wrong. -/
def misuseText (e : UsageError) : String :=
  "dockguard: error: " ++ e.text

def helpText : String :=
  "usage: dockguard [-h] [--config CONFIG] [--format FORMAT] [--out PATH] [--fail-on SEVERITY] " ++
    "[--suppress RULE_ID] [--list-rules] [-v] [paths ...]\n"

/-- A run that ends with a complaint: nothing is written, and the exit code is two. -/
def complain (w : Workspace) (log message : String) : Outcome :=
  .finished ⟨2, "", log ++ "dockguard: " ++ message ++ "\n", w⟩

/-- A run that ends with an error: with a complaint if there is a message for it. -/
def endWith (w : Workspace) (log : String) (message? : Option String) (cause : Break) : Outcome :=
  match message? with
  | some message => complain w log message
  | none => .broken cause

def utf8Bytes (s : String) : List Nat :=
  s.toUTF8.toList.map UInt8.toNat

def tableLimit : Int := 5

namespace Request

/-- The paths to audit; without any it is the directory of the run. -/
def roots (r : Request) : List String :=
  if r.paths.isEmpty then ["."] else r.paths

/-- The file of the configuration. -/
def configPath? (r : Request) : Option FilePath :=
  r.config.map FilePath.ofText

/-- The file for the report; an empty path is none. -/
def outPath? (r : Request) : Option String :=
  r.out.filter fun path => !path.isEmpty

/-- The manifests to audit with their texts. -/
def sources (r : Request) (w : Workspace) : List Source :=
  (Discovery.find w r.roots).map fun path => ⟨path.text, (w.text? path).getD ""⟩

/-- Deliver a report: the table goes to the error output, and the report to the file or to the
output. -/
def deliver (r : Request) (w : Workspace) (config : Config) (log : String) (report : Report) :
    Outcome :=
  let stderr := log ++ report.table tableLimit ++ "\n"
  let rendered := report.render r.format config.recommendations
  let exitCode := report.exitCode (r.failOn.getD config.failOn)
  match r.outPath? with
  | none => .finished ⟨exitCode, rendered, stderr, w⟩
  | some path =>
    match w.write (.ofText path) (utf8Bytes rendered) with
    | .ok written =>
      .finished ⟨exitCode, "", stderr ++ "\nReport written to " ++ path ++ "\n", written⟩
    | .error e => .broken (.output e)

/-- Audit a workspace by a configuration that has been loaded. -/
def audit (r : Request) (w : Workspace) (config : Config) : Outcome :=
  let sources := r.sources w
  let log := configLines w r.configPath? ++ [foundLine sources]
  match Audit.run .standard config sources with
  | .error e => endWith w (logText r.verbosity log) e.text? (.audit e)
  | .ok run =>
    r.deliver w config (logText r.verbosity (log ++ auditLines config run)) run.report

/-- Do what a request asks for. -/
def perform (r : Request) (w : Workspace) : Outcome :=
  let missing := Discovery.missing w r.roots
  if r.listRules then .finished ⟨0, Registry.standard.listing ++ "\n", "", w⟩
  else if !missing.isEmpty then
    complain w "" ("no such file or directory: " ++ ", ".intercalate missing)
  else
    match Config.load w r.configPath? with
    | .error e =>
      endWith w (logText r.verbosity (configLines w r.configPath?)) e.text? (.config e)
    | .ok config => r.audit w (config.suppress r.suppressedIds)

end Request

def run (w : Workspace) (line : List String) : Outcome :=
  match Request.parse line with
  | .ok request => request.perform w
  | .error .help => .help
  | .error (.misuse e) => .misuse e

end ContainerAudit.CommandLine
