import ContainerAudit.Dockerfile.Arguments
import ContainerAudit.Rule.Basic
import ContainerAudit.Text.Pattern

/-!
# Rules on single instructions

The common form of most Dockerfile rules: a test of each instruction on its own.
-/

namespace ContainerAudit.Rule

open ContainerAudit.Dockerfile (Instruction)

/-- The match for an instruction. -/
def matchAt (i : Instruction) (message fix : Option String := none) : Match :=
  ⟨i.line, i.text, message, fix⟩

def hasKeyword (keywords : List String) (i : Instruction) : Bool :=
  keywords.contains i.keyword

/-- A copy into the image. -/
def isCopy (i : Instruction) : Bool :=
  hasKeyword ["COPY", "ADD"] i

/-- The arguments of an instruction hold a text. -/
def mentions (i : Instruction) (part : String) : Bool :=
  Text.hasPart part.toList i.arguments.toList

/-- The instructions that satisfy a test, as matches. -/
def eachThat (test : Instruction → Bool) (is : List Instruction) : List Match :=
  (is.filter test).map matchAt

/-- The commands that satisfy a test, as matches. -/
def eachRun (test : Instruction → Bool) (d : Dockerfile.Document) : List Match :=
  eachThat (fun i => i.keyword == "RUN" && test i) d.instructions

/-- A pattern is found in the arguments of an instruction. -/
def finds (p : Text.Pattern) (i : Instruction) : Bool :=
  p.foundIn i.arguments.toList

/-- An instruction together with the instructions after it, for each instruction of a list. -/
def withRest : List Instruction → List (Instruction × List Instruction)
  | [] => []
  | i :: rest => (i, rest) :: withRest rest

/-- A match for each instruction of a list for which `f` finds a message, given the instructions
after it. -/
def withMessage (f : Instruction → List Instruction → Option String) (is : List Instruction) :
    List Match :=
  (withRest is).filterMap fun (i, rest) => (f i rest).map fun message => matchAt i (some message)

end ContainerAudit.Rule
