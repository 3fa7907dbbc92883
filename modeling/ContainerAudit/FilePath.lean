import ContainerAudit.Text.Search

/-!
# File paths

A path as the list of its parts. Repeated slashes and parts of a single dot do not count; a part of
two dots is kept.
-/

namespace ContainerAudit

/-- A path: the slashes at its start, if it is absolute, and its parts. -/
structure FilePath where
  root : String
  parts : List String
  deriving DecidableEq, Repr

namespace FilePath

/-- The slashes that a path starts with: exactly two are kept, any other number counts as one. -/
def rootOf (s : List Char) : String :=
  match s with
  | '/' :: '/' :: '/' :: _ => "/"
  | '/' :: '/' :: _ => "//"
  | '/' :: _ => "/"
  | _ => ""

def ofText (text : String) : FilePath :=
  let parts := (Text.splitAt '/' text.toList).map String.ofList
  ⟨rootOf text.toList, parts.filter fun part => part ≠ "" && part ≠ "."⟩

def text (p : FilePath) : String :=
  if p.root.isEmpty && p.parts.isEmpty then "." else p.root ++ "/".intercalate p.parts

def name (p : FilePath) : String :=
  p.parts.getLastD ""

/-- A path inside another. -/
def append (p : FilePath) (parts : List String) : FilePath :=
  { p with parts := p.parts ++ parts }

end FilePath

end ContainerAudit
