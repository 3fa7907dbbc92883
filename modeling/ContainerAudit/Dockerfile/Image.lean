import ContainerAudit.Text.LetterCase
import ContainerAudit.Text.Search

/-!
# Image references

`name`, `name:tag`, `name@digest` and `name:tag@digest`. The name may hold slashes, and a colon
before the last slash is part of it.
-/

namespace ContainerAudit.Dockerfile

structure ImageRef where
  name : List Char
  tag : Option (List Char)
  digest : Option (List Char)
  deriving DecidableEq, Repr

/-- Split a name from its tag: the text after the last colon, if no slash comes after it. -/
def splitTag (s : List Char) : List Char × Option (List Char) :=
  match Text.cutLast ':' s with
  | some (name, tag) => if tag.contains '/' then (s, none) else (name, some tag)
  | none => (s, none)

def ImageRef.ofText (s : List Char) : ImageRef :=
  let (reference, digest) := match Text.cutFirst '@' s with
    | some (reference, digest) => (reference, some digest)
    | none => (s, none)
  let (name, tag) := splitTag reference
  ⟨name, tag, digest⟩

def ImageRef.repository (r : ImageRef) : List Char :=
  Text.lower (Text.afterLastSlash r.name)

end ContainerAudit.Dockerfile
