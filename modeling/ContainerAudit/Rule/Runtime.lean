import ContainerAudit.Rule.Instruction

/-!
# Rules on the running container

What a container of the image can reach, as which user it runs, how its process is started, and
which ports it offers.
-/

namespace ContainerAudit.Rule

open ContainerAudit.Text
open ContainerAudit.Dockerfile (Instruction execForm? splitWords)

/-- The image refers to the Docker socket. -/
def socketExposed (d : Dockerfile.Document) (p : Patterns) : List Match :=
  d.instructions |> eachThat fun i => hasKeyword ["VOLUME", "RUN", "CMD", "ENTRYPOINT"] i &&
    (p.entries .dockerSocketPaths).any (mentions i)

/-- The name of the user that a `USER` sets. -/
def userName (arguments : String) : String :=
  mapChars (fun s => lower (trim (s.takeWhile (· != ':')))) arguments

/-- The last stage runs as root: it sets no user, or root as the last one. -/
def runsAsRoot (d : Dockerfile.Document) (_ : Patterns) : List Match :=
  let final := d.finalStage
  match (final.filter (·.keyword == "USER")).getLast? with
  | some last =>
    if ["root", "0"].contains (userName last.arguments) then
      [matchAt last (some "The final stage switches back to the root user.")]
    else []
  | none => (((d.stageFrom? d.finalIndex).or final.head?).map matchAt).toList

/-- The exec form of a command's words. -/
def execFormText (keyword : String) (ws : List (List Char)) : String :=
  "Use exec form: " ++ keyword ++ " [" ++
    ", ".intercalate (ws.map fun w => "\"" ++ String.ofList w ++ "\"") ++ "]"

/-- The process is started through a shell. -/
def shellForm (d : Dockerfile.Document) (_ : Patterns) : List Match :=
  (d.finalStage.filter fun i =>
    hasKeyword ["CMD", "ENTRYPOINT"] i && (execForm? i.arguments.toList).isNone).map fun i =>
      let ws := splitWords i.arguments.toList
      matchAt i none (if ws.isEmpty then none else some (execFormText i.keyword ws))

/-- The port of a word of an `EXPOSE`. -/
def portOf (word : List Char) : List Char :=
  word.takeWhile (· != '/')

/-- A port of administration or of a database is exposed. -/
def sensitivePort (d : Dockerfile.Document) (p : Patterns) : List Match :=
  d.instructions.filterMap fun i =>
    let ports := (words i.arguments.toList).map fun w => String.ofList (portOf w)
    let flagged := ports.filter (p.entries .sensitivePorts).contains
    if i.keyword == "EXPOSE" && !flagged.isEmpty then
      some (matchAt i (some ("Exposes sensitive port(s): " ++ ", ".intercalate flagged ++ ".")))
    else none

/-- A port is exposed without a health check. -/
def healthUnchecked (d : Dockerfile.Document) (_ : Patterns) : List Match :=
  let final := d.finalStage
  if final.any (·.keyword == "HEALTHCHECK") then []
  else ((final.find? (·.keyword == "EXPOSE")).map matchAt).toList

end ContainerAudit.Rule
