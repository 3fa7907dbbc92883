import ContainerAudit.Rule.Instruction

/-!
# Rules on packages

What the installation of packages leaves in an image.
-/

namespace ContainerAudit.Rule

open ContainerAudit.Text
open ContainerAudit.Dockerfile (Instruction)

/-- Blanks, and any number of options with blanks after them. -/
def options : Pattern :=
  .seq (.some .blank) (.many (.all [.lit ['-'], .some .nonBlank, .some .blank]))

def aptName : Pattern :=
  .seq (.lit "apt".toList) (.optional (.lit "-get".toList))

/-- A command of a tool, with options between the two. -/
def toolCommand (tool command : Pattern) : Pattern :=
  .all [tool, options, command]

/-- A pattern between word boundaries. -/
def asWord (p : Pattern) : Pattern :=
  .all [.boundary, p, .boundary]

def aptInstall : Pattern :=
  asWord (toolCommand aptName (.lit "install".toList))

def aptUpgrade : Pattern :=
  asWord (toolCommand aptName
    (.any (["upgrade", "dist-upgrade", "full-upgrade"].map fun s => .lit s.toList)))

/-- The removal of the Debian package lists. -/
def aptCleanup : Pattern :=
  .all [.lit "rm".toList, .some .blank, .lit ['-'],
    .any (["rf", "fr", "r"].map fun s => .lit s.toList), .some .blank,
    .lit "/var/lib/apt/lists".toList]

def pipInstall : Pattern :=
  asWord (.all [.lit "pip".toList, .optional (.lit ['3']), .some .blank, .lit "install".toList])

def apkAdd : Pattern :=
  asWord (toolCommand (.lit "apk".toList) (.lit "add".toList))

/-- An installation with a tool that takes the word for it right after its name. -/
def plainInstall (tool : String) : Pattern :=
  .all [.lit tool.toList, .some .blank, .lit "install".toList]

/-- An installation with any of the system's tools. -/
def packageInstall : Pattern :=
  asWord (.any [toolCommand aptName (.lit "install".toList),
    toolCommand (.lit "apk".toList) (.lit "add".toList), plainInstall "yum", plainInstall "dnf"])

/-- Keeps its cache outside the image. -/
def mountsCache (i : Instruction) : Bool :=
  mentions i "--mount=type=cache"

/-- The Debian package lists stay in the layer. -/
def aptListsLeft (d : Dockerfile.Document) (_ : Patterns) : List Match :=
  d |> eachRun fun i => finds aptInstall i && !finds aptCleanup i && !mountsCache i

/-- Recommended packages are installed too. -/
def aptRecommends (d : Dockerfile.Document) (_ : Patterns) : List Match :=
  d |> eachRun fun i => finds aptInstall i && !mentions i "--no-install-recommends"

/-- The cache of `pip` stays in the layer. -/
def pipCacheLeft (d : Dockerfile.Document) (_ : Patterns) : List Match :=
  d |> eachRun fun i => finds pipInstall i && !mentions i "--no-cache-dir" &&
    !mentions i "PIP_NO_CACHE_DIR" && !mountsCache i

/-- The cache of the Alpine tool stays in the layer. -/
def apkCacheLeft (d : Dockerfile.Document) (_ : Patterns) : List Match :=
  d |> eachRun fun i => finds apkAdd i && !mentions i "--no-cache"

/-- The packages of the distribution are upgraded. -/
def upgradeInImage (d : Dockerfile.Document) (_ : Patterns) : List Match :=
  d |> eachRun (finds aptUpgrade)

/-- The tools of a list that a command installs. -/
def toolsIn (tools : List String) (i : Instruction) : List String :=
  let ws := words i.arguments.toList
  tools.filter fun tool => ws.contains tool.toList

/-- Build tools are installed in the only stage. -/
def toolchainShipped (d : Dockerfile.Document) (p : Patterns) : List Match :=
  if d.stageCount ≠ 1 then []
  else
    d.instructions.filterMap fun i =>
      let found := toolsIn (p.entries .buildToolchainPackages) i
      if i.keyword == "RUN" && finds packageInstall i && !found.isEmpty then
        some (matchAt i (some ("Installs build tooling (" ++ ", ".intercalate found ++
          ") in a single-stage build.")))
      else none

end ContainerAudit.Rule
