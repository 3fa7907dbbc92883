import ContainerAudit.Dockerfile.Basic
import ContainerAudit.Dockerfile.Line

/-!
# Reading Dockerfiles

A Dockerfile is read line by line. Between instructions blank lines and comments are skipped; an
instruction goes on while its lines end with the escape character, and then through the bodies of
the here-documents that it announces. Reading fails only where the file ends inside an instruction.
-/

namespace ContainerAudit.Dockerfile

open ContainerAudit.Text (trim trimEnd isBlank joinWith)

/-- Why a Dockerfile is refused, with the line on which the unfinished instruction starts. -/
inductive Error where
  | danglingContinuation (line : Nat)
  | unterminatedHeredoc (word : String) (line : Nat)
  deriving DecidableEq, Repr

def Error.reason : Error → String
  | .danglingContinuation _ => "line continuation at end of file"
  | .unterminatedHeredoc word _ => "unterminated heredoc <<" ++ word

def Error.line : Error → Nat
  | .danglingContinuation line => line
  | .unterminatedHeredoc _ line => line

/-- An instruction that has been read, before it is put into a stage. -/
structure Statement where
  keyword : List Char
  arguments : List Char
  line : Nat
  deriving DecidableEq, Repr

/-- Where reading stands between two lines. -/
inductive State where
  /-- Between instructions. -/
  | between
  /-- After a line that goes on, with the pieces read so far. -/
  | joining (start : Nat) (pieces : List (List Char))
  /-- Inside the body of a here-document: the instruction so far, the word that ends the body, the
  words of the bodies after it, and the lines of the body so far. -/
  | inBody (statement : Statement) (word : List Char) (words : List (List Char))
      (body : List Line)
  deriving DecidableEq, Repr

/-- The keyword and the arguments of a joined line. -/
def header (start : Nat) (logical : List Char) : Statement :=
  let keyword := logical.takeWhile (!isBlank ·)
  ⟨Text.upper keyword, trim (logical.drop keyword.length), start⟩

/-- The instruction with the body of a here-document behind its arguments, and the word that ends
the body. -/
def Statement.withBody (s : Statement) (body : List Line) (word : List Char) : Statement :=
  { s with arguments := joinWith ['\n'] (s.arguments :: body ++ [word]) }

/-- Go on to the next here-document, or finish the instruction. -/
def nextBody (statement : Statement) : List (List Char) → State × Option Statement
  | [] => (.between, some statement)
  | word :: words => (.inBody statement word words [], none)

/-- The pieces of an instruction as one line, without those that are empty. -/
def joinPieces (pieces : List (List Char)) : List Char :=
  joinWith [' '] (pieces.filter (!·.isEmpty))

/-- Finish the pieces of an instruction. -/
def finishPieces (start : Nat) (pieces : List (List Char)) : State × Option Statement :=
  let logical := joinPieces pieces
  if logical.isEmpty then (.between, none)
  else
    let statement := header start logical
    nextBody statement (heredocWords statement.arguments)

/-- Take a line into an instruction. -/
def takeLine (escape : Char) (start : Nat) (pieces : List (List Char)) (l : Line) :
    State × Option Statement :=
  let current := trimEnd l
  if current.getLast? = some escape then
    (.joining start (pieces ++ [stripComment current.dropLast]), none)
  else finishPieces start (pieces ++ [stripComment current])

/-- Read one line: the state after it, and the instruction that it completes. -/
def step (escape : Char) (state : State) (number : Nat) (l : Line) : State × Option Statement :=
  match state with
  | .between => if isSkipped l then (.between, none) else takeLine escape number [] l
  | .joining start pieces =>
    if isSkipped l then (.joining start pieces, none) else takeLine escape start pieces l
  | .inBody statement word words body =>
    if trim l = word then nextBody (statement.withBody body word) words
    else (.inBody statement word words (body ++ [l]), none)

/-- Read lines from a state on, the first of them with a number. -/
def statementsFrom (escape : Char) : State → Nat → List Line → Except Error (List Statement)
  | .between, _, [] => .ok []
  | .joining start _, _, [] => .error (.danglingContinuation start)
  | .inBody statement word _ _, _, [] =>
    .error (.unterminatedHeredoc (String.ofList word) statement.line)
  | state, number, l :: rest =>
    match step escape state number l with
    | (state, none) => statementsFrom escape state (number + 1) rest
    | (state, some statement) =>
      (statementsFrom escape state (number + 1) rest).map (statement :: ·)

def statements (lines : List Line) : Except Error (List Statement) :=
  statementsFrom (escapeChar lines) .between 1 lines

/-- The number of `FROM`s after an instruction, given that before it. -/
def Statement.countFrom (s : Statement) (froms : Nat) : Nat :=
  if s.keyword = "FROM".toList then froms + 1 else froms

/-- Put instructions into stages, after a number of `FROM`s. -/
def stageFrom : Nat → List Statement → List Instruction
  | _, [] => []
  | froms, s :: rest =>
    let froms := s.countFrom froms
    ⟨String.ofList s.keyword, String.ofList s.arguments, s.line, froms - 1⟩ :: stageFrom froms rest

/-- The Dockerfile with the given instructions. The count of `FROM`s at its end is the number of
stages, except that instructions without any are one stage. -/
def Document.ofStatements (ss : List Statement) : Document :=
  let froms := ss.foldl (fun froms s => s.countFrom froms) 0
  ⟨stageFrom 0 ss, if froms = 0 && !ss.isEmpty then 1 else froms⟩

def parse (text : String) : Except Error Document :=
  (statements (Text.lines text.toList)).map .ofStatements

end ContainerAudit.Dockerfile
