import ContainerAudit.Config
import ContainerAudit.Workspace

/-!
# Configuration files

A configuration is loaded from a file that is named, or else from the standard one if it is there.
-/

namespace ContainerAudit.Config

def standardPath : FilePath := .ofText ".dockguard.yaml"

inductive LoadError where
  /-- The file that is named is not there. -/
  | absent (path : FilePath)
  | unreadable (path : FilePath) (e : Workspace.DataError)
  | invalid (path : FilePath) (e : Error)

/-- The text of a YAML error in a file. There is none for a scalar that does not fit its tag, and
for bytes that are no text. -/
def yamlText? (source : String) : Yaml.Error → Option String
  | .unacceptable c position => some (Yaml.unacceptableText source c position)
  | .faulty fault => some (fault.text source)
  | .mismatch _ => none

/-- The message for an error. There is none where the file cannot be read as text, or where its
data cannot be named. -/
def LoadError.text? : LoadError → Option String
  | absent path => some ("Config file not found: " ++ path.text)
  | unreadable path (.yaml e) =>
    (yamlText? path.text e).map fun text =>
      "Config file " ++ path.text ++ " is not valid YAML: " ++ text
  | unreadable _ .directory => none
  | invalid path e => e.text? path.text

/-- The configuration in a file that is there. Data that count as missing stand for an empty
map. -/
def loadFrom (w : Workspace) (path : FilePath) : Except LoadError Config := do
  let data ← (w.data path).mapError (.unreadable path)
  let data := if data.isMissing then .map [] else data
  (ofValue data).mapError (.invalid path)

/-- The configuration in the file at a path, or in the standard one. -/
def load (w : Workspace) : Option FilePath → Except LoadError Config
  | some path => if w.has path then loadFrom w path else .error (.absent path)
  | none => if w.has standardPath then loadFrom w standardPath else .ok {}

/-- A file is loaded and its text is right; it may still be invalid as a configuration. -/
def loadedPath? (w : Workspace) (path? : Option FilePath) : Option FilePath :=
  let path := path?.getD standardPath
  if w.has path && (w.data path).isOk then some path else none

end ContainerAudit.Config
