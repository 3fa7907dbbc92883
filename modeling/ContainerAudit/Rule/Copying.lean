import ContainerAudit.Rule.Instruction

/-!
# Rules on copies

What is copied into an image, from where, and with which permissions.
-/

namespace ContainerAudit.Rule

open ContainerAudit.Text
open ContainerAudit.Dockerfile (Instruction copySources flagValue?)

/-- The source starts with one of the texts. -/
def startsWithAny (starts : List String) (source : List Char) : Bool :=
  starts.any fun start => start.toList.isPrefixOf source

/-- An `ADD` fetches a remote file without a checksum. -/
def remoteAdd (d : Dockerfile.Document) (_ : Patterns) : List Match :=
  d.instructions |> eachThat fun i =>
    i.keyword == "ADD" && ((flagValue? "checksum".toList i.arguments.toList).getD []).isEmpty &&
      (copySources i.arguments.toList).any (startsWithAny ["http://", "https://"])

/-! ## Permissions -/

/-- A digit of a permission. -/
def octal : Pattern :=
  .one fun c => '0' ≤ c && c ≤ '7'

/-- Three or four octal digits of which the last one lets everyone write. -/
def writableDigits : Pattern :=
  .all [.optional octal, octal, octal, .oneOf "2367"]

/-- A symbolic change of permissions that lets everyone write. -/
def writableSymbols : Pattern :=
  let who := Pattern.many (.oneOf "ugoa")
  .all [who, .oneOf "oa", who, .lit ['+'], .many (.oneOf "rwxXst"), .lit ['w']]

/-- A command that lets everyone write a file. -/
def writableChange : Pattern :=
  .all [.boundary, .lit "chmod".toList, .some .blank,
    .many (.all [.lit ['-'], .some .nonBlank, .some .blank]),
    .alt (.seq writableDigits .boundary) writableSymbols]

/-- A mode that lets everyone write a file. -/
def writableMode : Pattern :=
  .all [.textStart, writableDigits, .textEnd]

/-- The instruction makes files that everyone can write. -/
def makesWritable (i : Instruction) : Bool :=
  if i.keyword == "RUN" then finds writableChange i
  else isCopy i &&
    (flagValue? "chmod".toList i.arguments.toList).any fun mode =>
      !mode.isEmpty && writableMode.matchesStart mode

/-- Files are made writable for everyone. -/
def worldWritable (d : Dockerfile.Document) (_ : Patterns) : List Match :=
  d.instructions |> eachThat makesWritable

/-! ## Build context and local files -/

/-- The sources that take in the whole build context. -/
def broadSources : List (List Char) :=
  [".", "./", "*", "./*"].map String.toList

/-- The command installs dependencies. -/
def installsDependencies (commands : List String) (i : Instruction) : Bool :=
  i.keyword == "RUN" && commands.any (mentions i)

/-- A copy of the build context. -/
def copiesContext (i : Instruction) : Bool :=
  isCopy i && !mentions i "--from=" &&
    (copySources i.arguments.toList).any fun source => broadSources.contains source

/-- The message for a copy of the build context that comes before an installation of
dependencies. -/
def contextMessage? (commands : List String) (i : Instruction) (rest : List Instruction) :
    Option String :=
  if copiesContext i then
    (rest.find? (installsDependencies commands)).map fun j =>
      s!"Dependencies are installed on line {j.line}, after the full context copy."
  else none

/-- The build context is copied before dependencies are installed in the same stage. -/
def contextCopiedFirst (d : Dockerfile.Document) (p : Patterns) : List Match :=
  d.stages.flatMap (withMessage (contextMessage? (p.entries .dependencyInstallCommands)))

/-- The ending of an archive's name. -/
def archiveEnding : Pattern :=
  .all [.lit ['.'],
    .any (["tar", "tar.gz", "tgz", "tar.bz2", "tbz2", "tar.xz", "txz"].map fun s =>
      .anyCase s.toList),
    .textEnd]

/-- An `ADD` of local files that are no archives. -/
def addsLocalFiles (i : Instruction) : Bool :=
  let sources := copySources i.arguments.toList
  i.keyword == "ADD" && !sources.isEmpty &&
    !sources.any (startsWithAny ["http://", "https://", "git@"]) &&
    !sources.any archiveEnding.foundIn

/-- `ADD` is used where `COPY` would do. -/
def addForLocal (d : Dockerfile.Document) (_ : Patterns) : List Match :=
  (d.instructions.filter addsLocalFiles).map fun i =>
    matchAt i none (some ("Use COPY " ++ mapChars Dockerfile.firstLine i.arguments))

end ContainerAudit.Rule
