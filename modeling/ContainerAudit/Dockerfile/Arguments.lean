import ContainerAudit.Dockerfile.Basic
import ContainerAudit.Dockerfile.Image
import ContainerAudit.Json.Reader
import ContainerAudit.Text.ShellWords

/-!
# Arguments of instructions

The forms in which instructions take their arguments: shell words, a JSON array, variables, flags,
and the paths of a copy.
-/

namespace ContainerAudit.Dockerfile

open ContainerAudit.Text (words shellWords? trim cutFirst)

/-- The shell words of a text; where its quotes are not complete, the words between blanks. -/
def splitWords (s : List Char) : List (List Char) :=
  (shellWords? s).getD (words s)

/-- The texts of an array that holds texts only. -/
def textItems? : Json → Option (List (List Char))
  | .arr items => items.mapM fun item => match item with
    | .str s => some s.toList
    | _ => none
  | _ => none

/-- The words of an instruction in exec form: a JSON array of texts. -/
def execForm? (s : List Char) : Option (List (List Char)) :=
  match trim s with
  | '[' :: rest => (Json.read? ('[' :: rest)).bind textItems?
  | _ => none

/-- The text before the first equals sign. -/
def beforeEquals (word : List Char) : List Char :=
  word.takeWhile (· != '=')

/-- The names that an `ENV` or `ARG` declares. An `ENV` without an equals sign in its first word
declares that word. -/
def variableNames (keyword : String) (arguments : List Char) : List (List Char) :=
  match splitWords arguments with
  | [] => []
  | first :: rest =>
    if keyword = "ENV" && !first.contains '=' then [first]
    else ((first :: rest).map beforeEquals).filter (!·.isEmpty)

def isFlag (word : List Char) : Bool :=
  ['-', '-'].isPrefixOf word

/-- The words that are no flags. -/
def stripFlags (ws : List (List Char)) : List (List Char) :=
  ws.filter (!isFlag ·)

/-- The value of the first flag with a name. -/
def flagValue? (flag : List Char) (arguments : List Char) : Option (List Char) :=
  let start := '-' :: '-' :: flag ++ ['=']
  ((splitWords arguments).find? (start.isPrefixOf ·)).map (·.drop start.length)

def firstLine (s : List Char) : List Char :=
  s.takeWhile (· != '\n')

/-- The sources and the destination of a copy, the destination last. -/
def copyPaths (arguments : List Char) : List (List Char) :=
  match execForm? arguments with
  | some paths => paths
  | none => stripFlags (splitWords (firstLine arguments))

def copySources (arguments : List Char) : List (List Char) :=
  (copyPaths arguments).dropLast

/-- The image of a `FROM`. -/
def imageRef? (arguments : List Char) : Option ImageRef :=
  (stripFlags (words arguments)).head?.map .ofText

/-- The last part of a path, whether it ends with slashes or not. -/
def baseName (path : List Char) : List Char :=
  Text.afterLastSlash (path.reverse.dropWhile (· == '/')).reverse

end ContainerAudit.Dockerfile
