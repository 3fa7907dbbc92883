import ContainerAudit.Manifest.Read
import ContainerAudit.Rule.Patterns
import ContainerAudit.Severity

/-!
# Rules

A rule looks at one manifest and tells where it is violated.
-/

namespace ContainerAudit

/-- A violation of a rule before the rule's own particulars are added. -/
structure Match where
  line : Int
  text : String
  message : Option String := none
  fix : Option String := none
  deriving DecidableEq, Repr

/-- A check of a manifest. It can fail, with a reason, instead of giving matches. -/
abbrev Check := Manifest → Patterns → Except String (List Match)

structure Rule where
  id : String
  kind : Kind
  severity : Severity
  title : String
  check : Check
  cwe : Option String := none
  message : String := ""
  fix : Option String := none
  category : String := "security"

/-- A check of Dockerfiles, which gives nothing on anything else. -/
def Check.ofDockerfile (f : Dockerfile.Document → Patterns → List Match) : Check
  | ⟨_, .dockerfile d⟩, p => .ok (f d p)
  | ⟨_, .compose _⟩, _ => .ok []

/-- A check of compose files, which gives nothing on anything else. -/
def Check.ofCompose (f : Compose.Document → Patterns → List Match) : Check
  | ⟨_, .compose d⟩, p => .ok (f d p)
  | ⟨_, .dockerfile _⟩, _ => .ok []

end ContainerAudit
