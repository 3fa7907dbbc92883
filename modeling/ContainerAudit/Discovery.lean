import ContainerAudit.Manifest.Kind
import ContainerAudit.Workspace

/-!
# Discovery

How the manifests of a run are found. A path that names a file is taken as it is; below a directory
all files with the name of a manifest are found, in the order of their paths.
-/

namespace ContainerAudit.Discovery

/-- Directories that are not looked into. -/
def skippedDirectories : List String :=
  [".git", "node_modules", ".venv", "venv", "__pycache__"]

/-- A file below a directory, given by the names on the way to it, is found. -/
def isFound (path : List String) : Bool :=
  path.dropLast.all (fun name => !skippedDirectories.contains name) &&
    Kind.isManifest ⟨"", path⟩

/-- The order of paths: name by name. -/
def pathLE (a b : List String) : Bool :=
  (compare a b).isLE

/-- The manifests in a directory, by the names on the way to them. -/
def below (t : FileTree) : List (List String) :=
  ((t.files.map (·.1)).filter isFound).mergeSort pathLE

/-- The manifests at a root that is there: itself, if it is a file. -/
def manifestsAt (root : FilePath) : FileTree → List FilePath
  | .file _ => [root]
  | t => (below t).map root.append

def missingText (root : String) : String :=
  "Skipping " ++ root ++ ": no such file or directory"

/-- The manifests at a root; none if it is not there. -/
def manifests (w : Workspace) (root : String) : List FilePath :=
  match w.find? (.ofText root) with
  | some t => manifestsAt (.ofText root) t
  | none => []

/-- The manifests at roots, root by root. -/
def find (w : Workspace) (roots : List String) : List FilePath :=
  roots.flatMap (manifests w)

def missing (w : Workspace) (roots : List String) : List String :=
  roots.filter fun root => !w.has (.ofText root)

end ContainerAudit.Discovery
