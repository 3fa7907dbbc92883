import ContainerAudit.Entries
import ContainerAudit.Text.Blank
import ContainerAudit.Text.LetterCase

/-!
# Dockerfiles

A Dockerfile is a list of instructions. A `FROM` starts a build stage; what comes before the first
one belongs to the first stage.
-/

namespace ContainerAudit.Dockerfile

/-- An instruction: its keyword in upper case, its arguments, the line on which it starts, and the
number of its stage. -/
structure Instruction where
  keyword : String
  arguments : String
  line : Nat
  stage : Nat
  deriving DecidableEq, Repr

def Instruction.text (i : Instruction) : String :=
  Text.mapChars Text.trim (i.keyword ++ " " ++ i.arguments)

def Instruction.isFrom (i : Instruction) : Bool :=
  i.keyword == "FROM"

/-- The alias that the arguments of a `FROM` give to its stage, in lower case: the last word, if
the one before it is `AS`. -/
def alias? (arguments : String) : Option String :=
  match (Text.words arguments.toList).reverse with
  | name :: [a, s] :: _ :: _ =>
    if Text.readsAs 'a' a && Text.readsAs 's' s then some (String.ofList (Text.lower name))
    else none
  | _ => none

/-- A Dockerfile: its instructions, and the number of stages that reading them has counted. -/
structure Document where
  instructions : List Instruction
  stageCount : Nat
  deriving DecidableEq, Repr

namespace Document

def finalIndex (d : Document) : Nat :=
  d.stageCount - 1

def stage (d : Document) (index : Nat) : List Instruction :=
  d.instructions.filter (·.stage == index)

def stages (d : Document) : List (List Instruction) :=
  (List.range d.stageCount).map d.stage

def finalStage (d : Document) : List Instruction :=
  d.stage d.finalIndex

def stageFrom? (d : Document) (index : Nat) : Option Instruction :=
  (d.stage index).find? (·.isFrom)

/-- The stages by their aliases; the last stage with an alias has it. -/
def stageNames (d : Document) : List (String × Nat) :=
  d.instructions.foldl (fun names i =>
    match if i.isFrom then alias? i.arguments else none with
    | some name => put name i.stage names
    | none => names) []

end Document

end ContainerAudit.Dockerfile
