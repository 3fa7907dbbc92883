import ContainerAudit.Text.Blank
import ContainerAudit.Text.LetterCase
import ContainerAudit.Text.Word

/-!
# Text patterns

Regular expressions over characters, with word boundaries and the ends of the text. A pattern is
found in a text if it matches from some place on; all ways of matching are tried.
-/

namespace ContainerAudit.Text

inductive Pattern where
  | empty
  | one (accepts : Char → Bool)
  | seq (first second : Pattern)
  | alt (first second : Pattern)
  | many (p : Pattern)
  /-- Exactly one side is a word character. -/
  | boundary
  | textStart
  /-- The end of the text, or a line feed that ends it. -/
  | textEnd

/-- A place in a text: the character before it and the text after it. -/
structure Place where
  before : Option Char
  rest : List Char
  deriving DecidableEq, Repr

/-- The places from one on, up to the end of the text. -/
def placesFrom (before : Option Char) : List Char → List Place
  | [] => [⟨before, []⟩]
  | c :: rest => ⟨before, c :: rest⟩ :: placesFrom (some c) rest

/-- Steps one after another, up to a number of them, lead to a place where `next` holds. -/
def repeatedly (step : (Place → Bool) → Place → Bool) (next : Place → Bool) : Nat → Place → Bool
  | 0, p => next p
  | count + 1, p => next p || step (repeatedly step next count) p

namespace Pattern

/-- The pattern matches from a place up to one where `next` holds. Each round of a repetition that
matters passes a character, so there are never more rounds than characters. -/
def leads : Pattern → (Place → Bool) → Place → Bool
  | empty, next, p => next p
  | one accepts, next, p =>
    match p.rest with
    | [] => false
    | c :: rest => accepts c && next ⟨some c, rest⟩
  | seq a b, next, p => a.leads (b.leads next) p
  | alt a b, next, p => a.leads next p || b.leads next p
  | many a, next, p => repeatedly a.leads next p.rest.length p
  | boundary, next, p => isBoundary p.before p.rest && next p
  | textStart, next, p => p.before.isNone && next p
  | textEnd, next, p => (p.rest.isEmpty || p.rest = ['\n']) && next p

/-- The pattern matches from a place on. -/
def matchesAt (a : Pattern) (p : Place) : Bool :=
  a.leads (fun _ => true) p

def matchesStart (a : Pattern) (s : List Char) : Bool :=
  a.matchesAt ⟨none, s⟩

/-- The pattern matches somewhere in the text. -/
def foundIn (a : Pattern) (s : List Char) : Bool :=
  (placesFrom none s).any a.matchesAt

/-- Patterns one after the other. -/
def all (ps : List Pattern) : Pattern :=
  ps.foldr seq empty

/-- One of the patterns. -/
def any : List Pattern → Pattern
  | [] => one fun _ => false
  | [p] => p
  | p :: q :: rest => alt p (any (q :: rest))

/-- The very text. -/
def lit (s : List Char) : Pattern :=
  all (s.map fun c => one (· == c))

/-- The text in any case; it is given in small ASCII letters. -/
def anyCase (s : List Char) : Pattern :=
  all (s.map fun c => if c.isLower then one (readsAs c) else one (· == c))

def some (p : Pattern) : Pattern :=
  seq p (many p)

def optional (p : Pattern) : Pattern :=
  alt p empty

/-- One of the characters. -/
def oneOf (s : String) : Pattern :=
  one (s.toList.contains ·)

def blank : Pattern := one isBlank

def nonBlank : Pattern := one (!isBlank ·)

end Pattern

end ContainerAudit.Text
