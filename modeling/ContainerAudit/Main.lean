import ContainerAudit.CommandLine.Run

/-!
# The program

Reads what a command line names from the file system into a workspace, runs the command line
there, and writes back what the run has changed.
-/

namespace ContainerAudit.Program

open CommandLine

def byteList (bytes : ByteArray) : List Nat :=
  bytes.toList.map UInt8.toNat

/-- A place as a path from the top. -/
def pathOf (place : List String) : String :=
  "/" ++ "/".intercalate place

/-- Read what is at an entry of a directory. Of the files below directories only manifests are
read, and directories that are never looked into are left empty. -/
partial def readEntry (entry : IO.FS.DirEntry) : IO FileTree := do
  if ← entry.path.isDir then
    if Discovery.skippedDirectories.contains entry.fileName then return .empty
    let entries ← entry.path.readDir
    return .directory (← entries.toList.mapM fun e => do return (e.fileName, ← readEntry e))
  else if Kind.isManifest ⟨"", [entry.fileName]⟩ then
    return .file (byteList (← IO.FS.readBinFile entry.path))
  else return .file []

/-- Read what is at a path, whatever its name is. -/
def readPath (path : String) : IO FileTree := do
  let top : IO.FS.DirEntry := ⟨path, ""⟩
  if ← top.root.isDir then
    let entries ← top.root.readDir
    return .directory (← entries.toList.mapM fun e => do return (e.fileName, ← readEntry e))
  else return .file (byteList (← IO.FS.readBinFile path))

/-- There is something at a path, and whether it is a directory. -/
def kindOf? (path : String) : IO (Option Bool) := do
  let top : IO.FS.DirEntry := ⟨path, ""⟩
  if ← top.root.pathExists then return some (← top.root.isDir) else return none

/-- Take note of the directories and files on the way along a path. -/
def noteWay (w : Workspace) (path : FilePath) : IO Workspace := do
  let mut tree := w.tree
  for i in List.range (path.parts.length + 1) do
    let place := FileTree.placeAfter (w.start path) (path.parts.take i)
    if (tree.get? place).isNone then
      match ← kindOf? (pathOf place) with
      | some true => tree := tree.insert place .empty
      | some false => tree := tree.insert place (.file [])
      | none => pure ()
  return { w with tree }

/-- Read what is at a path into a workspace. -/
def readInto (w : Workspace) (path : FilePath) : IO Workspace := do
  let w ← noteWay w path
  match w.locate path with
  | some place => return { w with tree := w.tree.insert place (← readPath (pathOf place)) }
  | none => return w

def workspaceFor (r : Request) : IO Workspace := do
  let here := (FilePath.ofText (← IO.currentDir).toString).parts
  let mut w : Workspace := ⟨FileTree.empty.insert here .empty, here⟩
  for root in r.roots do
    w ← readInto w (.ofText root)
  w ← readInto w (r.configPath?.getD Config.standardPath)
  match r.outPath? with
  | some path => noteWay w (.ofText path)
  | none => return w

/-- Write the files that differ from those before. -/
def writeBack (before after : Workspace) : IO Unit := do
  let old := before.tree.files
  for (place, bytes) in after.tree.files do
    if !old.contains (place, bytes) then
      IO.FS.createDirAll (pathOf place.dropLast)
      IO.FS.writeBinFile (pathOf place) (ByteArray.mk (bytes.map UInt8.ofNat).toArray)

/-- The message for an error that breaks off a run. -/
def breakText : Break → String
  | .config _ => "the configuration file cannot be read"
  | .audit _ => "a value in a compose file cannot be used"
  | .output _ => "the report cannot be written"

/-- Bring a run to its end: write what it has changed, print what it says, and give its exit
code. -/
def conclude (w : Workspace) : Outcome → IO UInt32
  | .finished f => do
    writeBack w f.workspace
    IO.eprint f.stderr
    IO.print f.stdout
    return f.exitCode.toUInt32
  | .broken cause => do
    IO.eprintln ("dockguard: " ++ breakText cause)
    return 1
  | .misuse e => do
    IO.eprint helpText
    IO.eprintln (misuseText e)
    return 2
  | .help => do
    IO.print helpText
    return 0

end ContainerAudit.Program

open ContainerAudit in
def main (line : List String) : IO UInt32 := do
  let w ← match CommandLine.Request.parse line with
    | .ok request => Program.workspaceFor request
    | .error _ => pure ⟨.empty, []⟩
  Program.conclude w (CommandLine.run w line)
