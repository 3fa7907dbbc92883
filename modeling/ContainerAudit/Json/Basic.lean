/-!
# JSON values

Whole numbers and fractions are kept apart, and an object keeps its members in order.
-/

namespace ContainerAudit

inductive Json where
  | null
  | bool (b : Bool)
  | int (n : Int)
  | float (x : Float)
  | str (s : String)
  | arr (items : List Json)
  | obj (members : List (String × Json))
  deriving Inhabited

namespace Json

/-- A text, or null where there is none. -/
def ofText? : Option String → Json
  | some s => str s
  | none => null

def get? (name : String) : Json → Option Json
  | obj members => members.lookup name
  | _ => none

end Json

end ContainerAudit
