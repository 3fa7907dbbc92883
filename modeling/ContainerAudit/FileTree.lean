import ContainerAudit.Entries
import ContainerAudit.FilePath

/-!
# File trees

The files and directories that a run can see. A file holds bytes; a directory lists what it holds,
in any order. A path is looked up part by part, and a part of two dots goes up by one directory.
-/

namespace ContainerAudit

/-- A file with its bytes, or a directory with its entries. -/
inductive FileTree where
  | file (bytes : List Nat)
  | directory (entries : List (String × FileTree))

namespace FileTree

def empty : FileTree := directory []

def isDirectory : FileTree → Bool
  | directory _ => true
  | file _ => false

/-- The entries of a directory; a file has none. -/
def entries : FileTree → List (String × FileTree)
  | directory entries => entries
  | file _ => []

/-- What is at a place, given by the names on the way to it. -/
def get? (t : FileTree) : List String → Option FileTree
  | [] => some t
  | name :: rest => (t.entries.find? (·.1 == name)).bind fun entry => entry.2.get? rest

/-- Put something at a place. Directories on the way are made where they are missing. -/
def insert (t : FileTree) (place : List String) (what : FileTree) : FileTree :=
  match place with
  | [] => what
  | name :: rest =>
    let inner := ((t.entries.find? (·.1 == name)).map (·.2)).getD empty
    directory (put name (inner.insert rest what) t.entries)

mutual

/-- All files in a tree with the names on the way to them. -/
def files : FileTree → List (List String × List Nat)
  | file bytes => [([], bytes)]
  | directory entries => entryFiles entries

/-- All files in the entries of a directory. -/
def entryFiles : List (String × FileTree) → List (List String × List Nat)
  | [] => []
  | (name, t) :: rest =>
    (files t).map (fun (path, bytes) => (name :: path, bytes)) ++ entryFiles rest

end

/-- The place that parts of a path lead to from another place. -/
def placeAfter (place parts : List String) : List String :=
  parts.foldl (fun place part => if part = ".." then place.dropLast else place ++ [part]) place

/-- Go on from a place along parts of a path. Every part but the last has to lead to a directory. -/
def follow (t : FileTree) (place : List String) : List String → Option (List String)
  | [] => some place
  | part :: rest =>
    if !((t.get? place).any isDirectory) then none
    else if part = ".." then t.follow place.dropLast rest
    else if ((t.get? (place ++ [part])).isSome) then t.follow (place ++ [part]) rest
    else none

/-- Why a directory cannot be made. -/
inductive Obstacle where
  /-- A file is where the directory should be. -/
  | fileThere
  /-- A file is on the way to it. -/
  | fileOnTheWay
  deriving DecidableEq, Repr

/-- Go on from a place along parts of a path, and make the directories that are missing. -/
def makeDirectories (t : FileTree) (place : List String) :
    List String → Except Obstacle (FileTree × List String)
  | [] => .ok (t, place)
  | part :: rest =>
    if part = ".." then t.makeDirectories place.dropLast rest
    else
      match t.get? (place ++ [part]) with
      | some (directory _) => t.makeDirectories (place ++ [part]) rest
      | some (file _) => .error (if rest.isEmpty then .fileThere else .fileOnTheWay)
      | none => (t.insert (place ++ [part]) empty).makeDirectories (place ++ [part]) rest

end FileTree

end ContainerAudit
