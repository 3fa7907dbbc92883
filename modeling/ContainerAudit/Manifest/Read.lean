import ContainerAudit.Compose.Read
import ContainerAudit.Dockerfile.Read
import ContainerAudit.Manifest.Kind

/-!
# Manifests

A manifest with its path, and the reason why a file is not one.
-/

namespace ContainerAudit

/-- What a manifest holds. -/
inductive Content where
  | dockerfile (d : Dockerfile.Document)
  | compose (d : Compose.Document)

def Content.kind : Content → Kind
  | .dockerfile _ => .dockerfile
  | .compose _ => .compose

structure Manifest where
  path : String
  content : Content

/-- A file that could not be read as a manifest. -/
structure ParseFailure where
  path : String
  line : Option Int
  reason : String
  deriving DecidableEq, Repr

/-- The failure with its place; a file without a path is the input. -/
def ParseFailure.text (f : ParseFailure) : String :=
  let place := if f.path.isEmpty then "<input>" else f.path
  match f.line with
  | some line => place ++ ":" ++ toString line ++ ": " ++ f.reason
  | none => place ++ ": " ++ f.reason

def ParseFailure.ofDockerfile (path : String) (e : Dockerfile.Error) : ParseFailure :=
  ⟨path, some e.line, e.reason⟩

def ParseFailure.ofCompose (path : String) (e : Compose.Error) : ParseFailure :=
  ⟨path, e.line?.map Int.ofNat, e.reason⟩

/-- How reading a manifest ends without one: with a failure of the file, or with a YAML scalar that
does not fit its tag, which is not the file's failure but stops the run. -/
inductive Manifest.Failure where
  | parse (failure : ParseFailure)
  | mismatch (kind : Yaml.Mismatch)
  deriving DecidableEq, Repr

def Manifest.parse (path text : String) : Except Manifest.Failure Manifest :=
  match Kind.ofPath (.ofText path) with
  | .dockerfile =>
    match Dockerfile.parse text with
    | .ok d => .ok ⟨path, .dockerfile d⟩
    | .error e => .error (.parse (.ofDockerfile path e))
  | .compose =>
    match Compose.parse text with
    | .ok d => .ok ⟨path, .compose d⟩
    | .error (.refused e) => .error (.parse (.ofCompose path e))
    | .error (.mismatch kind) => .error (.mismatch kind)

end ContainerAudit
