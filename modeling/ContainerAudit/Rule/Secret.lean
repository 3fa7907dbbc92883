import ContainerAudit.Rule.Command
import ContainerAudit.Text.Glob

/-!
# Rules on secrets

Secrets in variables, and secret files that are copied and removed again.
-/

namespace ContainerAudit.Rule

open ContainerAudit.Text
open ContainerAudit.Dockerfile (Instruction variableNames copyPaths baseName)

/-- A name holds one of the keywords, whatever their case. -/
def isSecretName (keywords : List String) (name : List Char) : Bool :=
  keywords.any fun keyword => hasPart (lower keyword.toList) (lower name)

/-- The first secret that an instruction declares. -/
def declaredSecret? (keywords : List String) (i : Instruction) : Option (List Char) :=
  if hasKeyword ["ENV", "ARG"] i then
    (variableNames i.keyword i.arguments.toList).find? (isSecretName keywords)
  else none

/-- A secret is set in a variable of the image. -/
def secretInVariable (d : Dockerfile.Document) (p : Patterns) : List Match :=
  d.instructions.filterMap fun i =>
    (declaredSecret? (p.entries .secretNameKeywords) i).map fun name =>
      matchAt i (some (i.keyword ++ " variable '" ++ String.ofList name ++
        "' looks like a secret."))

/-! ## Secret files -/

/-- The name of a secret file. -/
def isSecretFile (patterns : List String) (name : List Char) : Bool :=
  !name.isEmpty && patterns.any fun pattern => globMatches pattern.toList (lower name)

/-- The names under which the secret files of a copy are known afterwards: their own, and that of
the destination where a single file gets a new one. -/
def secretNames (patterns : List String) (arguments : List Char) : List (List Char) :=
  let paths := copyPaths arguments
  let sources := paths.dropLast.map baseName
  let destination := paths.getLastD []
  let secrets := sources.filter (isSecretFile patterns)
  if secrets.isEmpty then []
  else
    let target := baseName destination
    let renamed := sources.length = 1 && destination.getLast? ≠ some '/' &&
      !([[], ['.'], ['.', '.']].contains target)
    secrets ++ if renamed then [target] else []

/-- The word `rm` where a command starts. -/
def removeCommand : Pattern :=
  .all [commandStart, .lit "rm".toList, .blank]

/-- A file name as a word of its own, or at the end of a path. -/
def asFile (name : List Char) : Pattern :=
  .all [.alt .textStart (.one fun c => isBlank c || ['/', '\'', '"'].contains c), .lit name,
    .alt .textEnd (.one fun c => isBlank c || ['\'', '"', ';', '&', '|', ')'].contains c)]

/-- The command removes one of the files. -/
def removes (names : List (List Char)) (i : Instruction) : Bool :=
  i.keyword == "RUN" && finds removeCommand i && names.any fun name => finds (asFile name) i

/-- The message for a copy of a secret file that a later command removes. -/
def removalMessage? (patterns : List String) (i : Instruction) (rest : List Instruction) :
    Option String :=
  if isCopy i then
    (rest.find? (removes (secretNames patterns i.arguments.toList))).map fun j =>
      s!"Secret file copied here is removed on line {j.line}, but remains in the earlier layer."
  else none

/-- A secret file is copied, and removed later in the same stage. -/
def secretRemovedLater (d : Dockerfile.Document) (p : Patterns) : List Match :=
  d.stages.flatMap (withMessage (removalMessage? (p.entries .secretFilePatterns)))

end ContainerAudit.Rule
