import ContainerAudit.FileTree
import ContainerAudit.Text.Utf8
import ContainerAudit.Yaml.Build

/-!
# Workspaces

A file tree as a run sees it, from the directory in which the run takes place. Paths that start
with a slash are looked up from the top.
-/

namespace ContainerAudit

/-- A file tree as seen from a directory in it. -/
structure Workspace where
  tree : FileTree
  here : List String := []

namespace Workspace

/-- The place from which a path starts. -/
def start (w : Workspace) (path : FilePath) : List String :=
  if path.root.isEmpty then w.here else []

/-- The place of a path, if something is there. -/
def locate (w : Workspace) (path : FilePath) : Option (List String) :=
  w.tree.follow (w.start path) path.parts

def find? (w : Workspace) (path : FilePath) : Option FileTree :=
  (w.locate path).bind w.tree.get?

def has (w : Workspace) (path : FilePath) : Bool :=
  (w.find? path).isSome

/-! ## Reading -/

/-- The text of bytes: what is not UTF-8 is replaced, and all ends of lines are alike. -/
def lossyText (bytes : List Nat) : List Char :=
  Text.unifyLineEnds (Text.decodeLossy bytes)

/-- The text of the file at a path. It is empty if nothing is there; a directory has none. -/
def text? (w : Workspace) (path : FilePath) : Option String :=
  match w.find? path with
  | some (.file bytes) => some (String.ofList (lossyText bytes))
  | some (.directory _) => none
  | none => some ""

/-- Why a file holds no data. -/
inductive DataError where
  | directory
  | yaml (e : Yaml.Error)
  deriving DecidableEq, Repr

/-- The data in the YAML file at a path; null if nothing is there. -/
def data (w : Workspace) (path : FilePath) : Except DataError Value :=
  match w.find? path with
  | some (.file bytes) => (Yaml.readValue (.ofBytes bytes)).mapError .yaml
  | some (.directory _) => .error .directory
  | none => .ok .null

/-! ## Writing -/

/-- Why a file cannot be written. -/
inductive WriteError where
  /-- A directory is where the file should be. -/
  | directoryThere
  | blocked (obstacle : FileTree.Obstacle)
  deriving DecidableEq, Repr

/-- Write a file, and make the directories on the way to it. A path whose last part is not a name
stands for a directory. -/
def write (w : Workspace) (path : FilePath) (bytes : List Nat) : Except WriteError Workspace :=
  match w.tree.makeDirectories (w.start path) path.parts.dropLast with
  | .error obstacle => .error (.blocked obstacle)
  | .ok (tree, place) =>
    match path.parts.getLast? with
    | none => .error .directoryThere
    | some name =>
      if name = ".." || ((tree.get? (place ++ [name])).any FileTree.isDirectory) then
        .error .directoryThere
      else .ok { w with tree := tree.insert (place ++ [name]) (.file bytes) }

end Workspace

end ContainerAudit
