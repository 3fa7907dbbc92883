import ContainerAudit.FilePath
import ContainerAudit.Text.Glob
import ContainerAudit.Text.LetterCase

/-!
# Kinds of manifests

A manifest is a Dockerfile or a compose file; the name of a file tells which.
-/

namespace ContainerAudit

inductive Kind where
  | dockerfile
  | compose
  deriving DecidableEq, Repr

namespace Kind

def name : Kind → String
  | dockerfile => "dockerfile"
  | compose => "compose"

def ofName? (name : String) : Option Kind :=
  [dockerfile, compose].find? (·.name == name)

/-- The patterns of file names that a kind has. -/
def patterns : Kind → List String
  | dockerfile => ["dockerfile", "dockerfile.*", "*.dockerfile", "containerfile"]
  | compose => ["docker-compose*.yml", "docker-compose*.yaml", "compose*.yml", "compose*.yaml"]

/-- A name in small letters matches a pattern of the kind. -/
def hasName (kind : Kind) (name : List Char) : Bool :=
  kind.patterns.any fun pattern => Text.globMatches pattern.toList name

/-- The last part of a path, in small letters. -/
def fileName (path : FilePath) : List Char :=
  Text.lower path.name.toList

/-- The kind of the file at a path: a compose file by its name, and a Dockerfile otherwise. -/
def ofPath (path : FilePath) : Kind :=
  if compose.hasName (fileName path) then compose else dockerfile

/-- The file at a path is found when manifests are looked for. -/
def isManifest (path : FilePath) : Bool :=
  dockerfile.hasName (fileName path) || compose.hasName (fileName path)

end Kind

end ContainerAudit
