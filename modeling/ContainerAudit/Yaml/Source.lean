import ContainerAudit.Text.Block
import ContainerAudit.Yaml.Error

/-!
# Sources of YAML

A text may hold characters that YAML does not accept, and a file may hold bytes that are no text.
Neither is noticed before it is read. A text that is given is checked as a whole; a file is read in
portions, and an error in the portions before comes first.
-/

namespace ContainerAudit.Yaml

/-- A character that a YAML text may hold. -/
def isAcceptable (c : Char) : Bool :=
  let n := c.toNat
  n = 0x09 || n = 0x0a || n = 0x0d || (0x20 ≤ n && n ≤ 0x7e) || n = 0x85 ||
    (0xa0 ≤ n && n ≤ 0xd7ff) || (0xe000 ≤ n && n ≤ 0xfffd) || 0x10000 ≤ n

/-- The first character that a YAML text may not hold, with its position. -/
def firstUnacceptable (position : Nat) : List Char → Option (Char × Nat)
  | [] => none
  | c :: rest =>
    if isAcceptable c then firstUnacceptable (position + 1) rest else some (c, position)

/-- A text as far as it can be read, and what keeps the rest from being read, if there is more. -/
structure Source where
  text : List Char
  obstacle : Option Error
  deriving DecidableEq, Repr

namespace Source

/-- The number of characters at hand, if there is an obstacle after them, and the obstacle. -/
def limit (s : Source) : Option (Nat × Error) :=
  s.obstacle.map fun e => (s.text.length, e)

def ofText (text : List Char) : Source :=
  match firstUnacceptable 0 text with
  | some (c, position) => ⟨[], some (.unacceptable c position)⟩
  | none => ⟨text, none⟩

/-- The number of characters in the portions before the one that holds a position. The first portion
is twice as long as the others. -/
def portionStart (position : Nat) : Nat :=
  if position < 2 * Text.portionSize then 0 else position / Text.portionSize * Text.portionSize

/-- The text of whole portions, with what comes after them. -/
def ofPortions (text : List Char) (obstacle : Option Error) : Source :=
  match firstUnacceptable 0 text with
  | some (c, position) => ⟨text.take (portionStart position), some (.unacceptable c position)⟩
  | none => ⟨text, obstacle⟩

/-- A file of bytes. All ends of lines in it are alike. -/
def ofBytes (bytes : List Nat) : Source :=
  match Text.decodeStrict bytes with
  | .ok text => ofPortions (Text.unifyLineEnds text) none
  | .error (position, flaw) =>
    let text := Text.textBefore bytes position flaw
    ofPortions (text.take (portionStart text.length)) (some (.mismatch .encoding))

end Source

end ContainerAudit.Yaml
