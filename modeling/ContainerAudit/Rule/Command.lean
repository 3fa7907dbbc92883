import ContainerAudit.Rule.Instruction

/-!
# Rules on commands

What the commands of a build do that they should not: run a script unseen, raise privileges, change
directories, or stand apart where they could be one layer.
-/

namespace ContainerAudit.Rule

open ContainerAudit.Text
open ContainerAudit.Dockerfile (Instruction)

/-- The start of the text, or a character that separates commands. -/
def commandStart : Pattern :=
  .alt .textStart (.one fun c => isBlank c || [';', '&', '|', '('].contains c)

/-- A download with its output sent to a shell. -/
def downloadIntoShell : Pattern :=
  .all [.boundary, .any [.anyCase "curl".toList, .anyCase "wget".toList], .boundary,
    .many (.one fun c => c ≠ '|' && c ≠ ';' && c ≠ '&'), .lit ['|'], .many .blank,
    .optional (.seq (.anyCase "sudo".toList) (.some .blank)),
    .any (["sh", "bash", "zsh", "dash", "ash", "/bin/sh", "/bin/bash"].map fun shell =>
      .anyCase shell.toList),
    .boundary]

/-- A command runs a downloaded script. -/
def scriptPiped (d : Dockerfile.Document) (_ : Patterns) : List Match :=
  d |> eachRun (finds downloadIntoShell)

/-- The word `sudo` where a command starts. -/
def sudoCommand : Pattern :=
  .all [commandStart, .lit "sudo".toList, .blank]

def sudoUsed (d : Dockerfile.Document) (_ : Patterns) : List Match :=
  d |> eachRun (finds sudoCommand)

/-- A change of directory at the start of the text with a command after it. -/
def leadingCd : Pattern :=
  .all [.textStart, .many .blank, .lit "cd".toList, .some .blank, .some .nonBlank, .many .blank,
    .any [.lit "&&".toList, .lit ";".toList]]

def cdUsed (d : Dockerfile.Document) (_ : Patterns) : List Match :=
  d |> eachRun (finds leadingCd)

/-- The matches for commands right after a command. -/
def adjacentRuns : List Instruction → List Match
  | i :: j :: rest =>
    let later := adjacentRuns (j :: rest)
    if i.keyword == "RUN" && j.keyword == "RUN" then
      matchAt j (some s!"RUN follows the RUN on line {i.line}.") :: later
    else later
  | _ => []

/-- A command follows a command in the same stage. -/
def consecutiveRuns (d : Dockerfile.Document) (_ : Patterns) : List Match :=
  d.stages.flatMap adjacentRuns

end ContainerAudit.Rule
