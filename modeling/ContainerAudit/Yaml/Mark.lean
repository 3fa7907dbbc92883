/-!
# Places in a YAML text

A mark is a place in the text; a cursor is a mark with the text from there on, and with what has
been looked at further on. Lines end at a line feed, a carriage return, both together, U+0085,
U+2028 and U+2029.
-/

namespace ContainerAudit.Yaml

/-- A place: the number of characters, of lines, and of columns before it. -/
structure Mark where
  index : Nat
  line : Nat
  column : Nat
  deriving DecidableEq, Repr, Inhabited

def Mark.start : Mark := ⟨0, 0, 0⟩

/-- Stands for the end of the text, where no character is left. No YAML text holds it. -/
def endChar : Char := '\x00'

/-- A character that ends a line. -/
def isBreak (c : Char) : Bool :=
  c = '\n' || c = '\r' || c.toNat = 0x85 || c.toNat = 0x2028 || c.toNat = 0x2029

/-- The end of a line or of the text. -/
def endsLine (c : Char) : Bool :=
  c = endChar || isBreak c

/-- A space, or the end of a line or of the text. -/
def endsWord (c : Char) : Bool :=
  c = ' ' || endsLine c

/-- A space, a tab, or the end of a line or of the text. -/
def isGap (c : Char) : Bool :=
  c = '\t' || endsWord c

/-- The place after a character, where `next` is the character after it. A byte order mark takes
up no column. -/
def Mark.after (m : Mark) (c next : Char) : Mark :=
  if c = '\r' then
    if next = '\n' then ⟨m.index + 1, m.line, m.column + 1⟩ else ⟨m.index + 1, m.line + 1, 0⟩
  else if isBreak c then ⟨m.index + 1, m.line + 1, 0⟩
  else if c.toNat = 0xfeff then ⟨m.index + 1, m.line, m.column⟩
  else ⟨m.index + 1, m.line, m.column + 1⟩

/-- A place and the text from there on. -/
structure Cursor where
  rest : List Char
  mark : Mark
  /-- The number of characters up to the last one that was looked at before its turn. -/
  reach : Nat := 0
  deriving DecidableEq, Repr, Inhabited

namespace Cursor

def ofText (s : List Char) : Cursor := { rest := s, mark := .start }

/-- The number of characters of the text that must be at hand: what was looked at, and the next
character in any case. -/
def needed (k : Cursor) : Nat := max k.reach (k.mark.index + 1)

def peek (k : Cursor) : Char := k.rest.headD endChar

/-- Look at the next `n` characters. -/
def look (n : Nat) (k : Cursor) : Cursor :=
  { k with reach := max k.reach (k.mark.index + n) }

/-- The character `n` places further on. -/
def peekAt (k : Cursor) (n : Nat) : Char := (k.rest.drop n).headD endChar

def column (k : Cursor) : Nat := k.mark.column

def advance (k : Cursor) : Cursor :=
  match k.rest with
  | [] => k
  | c :: rest => { k with rest, mark := k.mark.after c (rest.headD endChar) }

def advanceBy : Nat → Cursor → Cursor
  | 0, k => k
  | n + 1, k => advanceBy n k.advance

/-- The characters from a place on that satisfy `p`, the text after them, and its place. -/
def spanFrom (p : Char → Bool) : List Char → Mark → List Char × List Char × Mark
  | [], m => ([], [], m)
  | c :: rest, m =>
    if p c then
      let (run, after) := spanFrom p rest (m.after c (rest.headD endChar))
      (c :: run, after)
    else ([], c :: rest, m)

/-- The next characters that satisfy `p`, and the cursor after them. -/
def span (p : Char → Bool) (k : Cursor) : List Char × Cursor :=
  let (run, rest, mark) := spanFrom p k.rest k.mark
  (run, { k with rest, mark })

/-- Pass the characters that satisfy `p`. -/
def skip (p : Char → Bool) (k : Cursor) : Cursor :=
  (k.span p).2

def skipSpaces (k : Cursor) : Cursor :=
  k.skip (· = ' ')

/-- Pass a comment, if one comes next, up to the end of its line. -/
def skipComment (k : Cursor) : Cursor :=
  if k.peek = '#' then k.skip (!endsLine ·) else k

/-- Pass a line end, if one comes next, and tell what a scalar keeps of it: a line feed, or the
character itself for U+2028 and U+2029. -/
def lineBreak (k : Cursor) : List Char × Cursor :=
  let c := k.peek
  if c = '\r' && k.peekAt 1 = '\n' then (['\n'], k.advanceBy 2)
  else if c = '\r' || c = '\n' || c.toNat = 0x85 then (['\n'], k.advance)
  else if isBreak c then ([c], k.advance)
  else ([], k)

def atDashes (k : Cursor) : Bool := ['-', '-', '-'].isPrefixOf k.rest

def atDots (k : Cursor) : Bool := ['.', '.', '.'].isPrefixOf k.rest

/-- A document marker comes next: three dashes or three dots, and then a gap. -/
def atMarker (dashes dots : Bool) (k : Cursor) : Bool :=
  ((dashes && k.atDashes) || (dots && k.atDots)) && isGap (k.peekAt 3)

/-- Look whether a document marker comes next: at three characters, and after three dashes or dots
at a fourth. -/
def lookForMarker (k : Cursor) : Cursor :=
  k.look (if k.atDashes || k.atDots then 4 else 3)

/-- A document marker of either kind comes next. -/
def atSeparator (k : Cursor) : Bool :=
  k.atMarker true true

end Cursor

end ContainerAudit.Yaml
