import ContainerAudit.Json.Reader
import ContainerAudit.Yaml.Error

/-!
# YAML scalars

Reading plain, quoted and block scalars from a cursor. The loops take fuel from the length of the
text ahead, of which each round passes at least one character.
-/

namespace ContainerAudit.Yaml

open ContainerAudit.Json (hexValue?)

/-- A scalar that has been read: the pieces of its text, the last one first, the place where it
ends, and the cursor after it. -/
structure ScalarRead where
  pieces : List (List Char)
  stop : Mark
  cursor : Cursor
  /-- A line ended after the scalar's last character. -/
  lineEnded : Bool := false

def ScalarRead.text (read : ScalarRead) : List Char :=
  read.pieces.reverse.flatten

/-! ## Plain scalars -/

/-- The characters that delimit flow collections. -/
def isFlowDelimiter (c : Char) : Bool :=
  c = ',' || c = '[' || c = ']' || c = '\x7b' || c = '\x7d'

/-- A plain scalar does not go on with `c` when `next` comes after it. -/
def endsPlain (flow : Bool) (c next : Char) : Bool :=
  isGap c || (c = ':' && (isGap next || (flow && isFlowDelimiter next))) ||
    (flow && (c = '?' || isFlowDelimiter c))

/-- The characters of a plain scalar up to a gap, the text after them, and its place. -/
def plainRunFrom (flow : Bool) : List Char → Mark → List Char × List Char × Mark
  | [], m => ([], [], m)
  | c :: rest, m =>
    let next := rest.headD endChar
    if endsPlain flow c next then ([], c :: rest, m)
    else
      let (run, after) := plainRunFrom flow rest (m.after c next)
      (c :: run, after)

/-- The next characters of a plain scalar up to a gap, and the cursor after them. A colon ends them
on account of the character after it. -/
def plainRun (flow : Bool) (k : Cursor) : List Char × Cursor :=
  let (run, rest, mark) := plainRunFrom flow k.rest k.mark
  let after := { k with rest, mark }
  (run, if after.peek = ':' then after.look 2 else after)

/-- What is left of line ends inside a scalar: the first one is folded into a space if it is a line
feed and the only one. -/
def foldBreaks (first others : List Char) : List Char :=
  (if first ≠ ['\n'] then first else if others.isEmpty then [' '] else []) ++ others

/-- The line ends and spaces at the start of lines inside a plain scalar; none where a document
marker comes next. -/
def plainBreaks : Nat → List Char → Cursor → Option (List Char) × Cursor
  | 0, breaks, k => (some breaks, k)
  | fuel + 1, breaks, k =>
    if k.peek = ' ' then plainBreaks fuel breaks k.advance
    else if isBreak k.peek then
      let (lineEnd, k) := k.lineBreak
      let k := k.lookForMarker
      if k.atSeparator then (none, k) else plainBreaks fuel (breaks ++ lineEnd) k
    else (some breaks, k)

/-- The gap after a run of a plain scalar, as it would stand in the text, and whether a line ended
in it. An empty gap ends the scalar. -/
def plainGap (k : Cursor) : List Char × Bool × Cursor :=
  let (spaces, k) := k.span (· = ' ')
  if isBreak k.peek then
    let (lineEnd, k) := k.lineBreak
    let k := k.lookForMarker
    if k.atSeparator then ([], true, k)
    else
      match plainBreaks k.rest.length [] k with
      | (some breaks, k) => (foldBreaks lineEnd breaks, true, k)
      | (none, k) => ([], true, k)
  else (spaces, false, k)

/-- The runs of a plain scalar, after the text read before and the gap after that. In a block the
scalar ends at a line that is indented less than it must be. -/
def plainFrom (flow : Bool) (indent : Nat) : Nat → ScalarRead → List Char → ScalarRead
  | 0, sofar, _ => sofar
  | fuel + 1, sofar, gap =>
    let k := sofar.cursor
    if k.peek = '#' then sofar
    else
      let (run, after) := plainRun flow k
      if run.isEmpty then { sofar with cursor := after }
      else
        let (nextGap, lineEnded, k) := plainGap after
        let sofar := ⟨run :: gap :: sofar.pieces, after.mark, k, lineEnded⟩
        if nextGap.isEmpty || k.peek = '#' || (!flow && k.column < indent) then sofar
        else plainFrom flow indent fuel sofar nextGap

def readPlain (flow : Bool) (indent : Nat) (k : Cursor) : ScalarRead :=
  plainFrom flow indent (k.rest.length + 1) ⟨[], k.mark, k, false⟩ []

/-! ## Quoted scalars -/

/-- The character that a letter after a backslash stands for. -/
def escapedChar? (c : Char) : Option Char :=
  match c with
  | '0' => some '\x00'
  | 'a' => some '\x07'
  | 'b' => some '\x08'
  | 't' | '\t' => some '\t'
  | 'n' => some '\n'
  | 'v' => some '\x0b'
  | 'f' => some '\x0c'
  | 'r' => some '\r'
  | 'e' => some '\x1b'
  | ' ' => some ' '
  | '"' => some '"'
  | '\\' => some '\\'
  | '/' => some '/'
  | 'N' => some (Char.ofNat 0x85)
  | '_' => some (Char.ofNat 0xa0)
  | 'L' => some (Char.ofNat 0x2028)
  | 'P' => some (Char.ofNat 0x2029)
  | _ => none

/-- The number of hexadecimal digits after a letter that announces them. -/
def hexWidth? (c : Char) : Option Nat :=
  match c with
  | 'x' => some 2
  | 'u' => some 4
  | 'U' => some 8
  | _ => none

/-- The number that `width` hexadecimal digits spell, or the cursor at the character that is not
one. -/
def hexNumber (value : Nat) : Nat → Cursor → Except Cursor Nat
  | 0, _ => .ok value
  | width + 1, k =>
    match hexValue? k.peek with
    | some d => hexNumber (value * 16 + d) width k.advance
    | none => .error k

/-- The character of a code point. Half of a surrogate pair is replaced. -/
def codePoint (n : Nat) : Except Error Char :=
  if 0x80000000 ≤ n then .error (.mismatch .hugeCodePoint)
  else if 0x10ffff < n then .error (.mismatch .codePoint)
  else .ok (Json.unitChar n)

/-- A numeric escape of a given width, after its letter. -/
def numericEscaped (start : Mark) (width : Nat) (k : Cursor) : Except Setback (Char × Cursor) :=
  match hexNumber 0 width k with
  | .error found =>
    found.stop (.within .doubleQuoted start (.noHexEscape width found.peek) k.mark)
  | .ok n =>
    match codePoint n with
    | .error e => (k.look width).stop e
    | .ok c => .ok (c, k.advanceBy width)

/-- The line ends and blanks at the start of lines inside a quoted scalar. -/
def quotedBreaks (start : Mark) : Nat → List Char → Cursor → Except Setback (List Char × Cursor)
  | 0, breaks, k => .ok (breaks, k)
  | fuel + 1, breaks, k =>
    let k := k.lookForMarker
    if k.atSeparator then k.stopWithin .quotedScalar start .unexpectedSeparator
    else
      let k := k.skip fun c => c = ' ' || c = '\t'
      if isBreak k.peek then
        let (lineEnd, k) := k.lineBreak
        quotedBreaks start fuel (breaks ++ lineEnd) k
      else .ok (breaks, k)

/-- The blanks and line ends at a gap of a quoted scalar, folded. -/
def quotedGap (start : Mark) (k : Cursor) : Except Setback (List Char × Cursor) :=
  let (blanks, k) := k.span fun c => c = ' ' || c = '\t'
  if k.peek = endChar then k.stopWithin .quotedScalar start .unexpectedEnd
  else if isBreak k.peek then
    let (lineEnd, k) := k.lineBreak
    (quotedBreaks start (k.rest.length + 1) [] k).map fun (breaks, k) =>
      (foldBreaks lineEnd breaks, k)
  else .ok (blanks, k)

/-- A backslash and what it stands for: a character, or a line end that is taken away. -/
def escapeSequence (start : Mark) (k : Cursor) : Except Setback (List Char × Cursor) :=
  let k := k.advance
  match escapedChar? k.peek, hexWidth? k.peek with
  | some c, _ => .ok ([c], k.advance)
  | none, some width => (numericEscaped start width k.advance).map fun (c, k) => ([c], k)
  | none, none =>
    if isBreak k.peek then
      let k := k.lineBreak.2
      quotedBreaks start (k.rest.length + 1) [] k
    else k.stopWithin .doubleQuoted start (.unknownEscape k.peek)

/-- The text of a quoted scalar up to its closing quote, after the pieces read before. -/
def quotedFrom (double : Bool) (start : Mark) :
    Nat → List (List Char) → Cursor → Except Setback ScalarRead
  | 0, pieces, k => .ok ⟨pieces, k.mark, k, false⟩
  | fuel + 1, pieces, k =>
    let c := k.peek
    if !double && c = '\'' && k.peekAt 1 = '\'' then
      quotedFrom double start fuel (['\''] :: pieces) (k.advanceBy 2)
    else if c = (if double then '"' else '\'') then
      let k := k.advance
      .ok ⟨pieces, k.mark, k, false⟩
    else if double && c = '\\' then
      match escapeSequence start k with
      | .error e => .error e
      | .ok (chars, k) => quotedFrom double start fuel (chars :: pieces) k
    else if isGap c then
      match quotedGap start k with
      | .error e => .error e
      | .ok (gap, k) => quotedFrom double start fuel (gap :: pieces) k
    else quotedFrom double start fuel ([c] :: pieces) k.advance

/-- A quoted scalar, from its opening quote on. -/
def readQuoted (double : Bool) (k : Cursor) : Except Setback ScalarRead :=
  quotedFrom double k.mark (k.rest.length + 1) [] k.advance

/-! ## Block scalars -/

/-- What becomes of the line ends at the end of a block scalar. -/
inductive Chomping where
  | strip
  | clip
  | keep
  deriving DecidableEq, Repr

/-- An indentation indicator, if one comes next. -/
def indentIndicator (start : Mark) (k : Cursor) : Except Setback (Option Nat × Cursor) :=
  if k.peek = '0' then k.stopWithin .blockScalar start .zeroIndentation
  else if k.peek.isDigit then .ok (some (k.peek.toNat - 48), k.advance)
  else .ok (none, k)

/-- A chomping indicator, if one comes next. -/
def chompingIndicator (k : Cursor) : Option Chomping × Cursor :=
  if k.peek = '+' then (some .keep, k.advance)
  else if k.peek = '-' then (some .strip, k.advance)
  else (none, k)

/-- The indicators after the mark of a block scalar, in either order. -/
def blockIndicators (start : Mark) (k : Cursor) :
    Except Setback (Chomping × Option Nat × Cursor) := do
  let (first, k) := chompingIndicator k
  let (indent, k) ← indentIndicator start k
  let (second, k) := if first.isNone && indent.isSome then chompingIndicator k else (none, k)
  if endsWord k.peek then
    return ((first.or second).getD .clip, indent, k)
  else k.stopWithin .blockScalar start (.noIndicator k.peek)

/-- The rest of a line on which only a comment may stand. -/
def ignoredLine (context : Context) (start : Mark) (k : Cursor) : Except Setback Cursor :=
  let k := k.skipSpaces.skipComment
  if endsLine k.peek then .ok k.lineBreak.2
  else k.stopWithin context start (.noCommentOrBreak k.peek)

/-- The leading empty lines of a block scalar whose indentation is to be found, with the greatest
column reached in them. -/
def blockIndentation : Nat → List Char → Nat → Mark → Cursor → List Char × Nat × Mark × Cursor
  | 0, breaks, column, stop, k => (breaks, column, stop, k)
  | fuel + 1, breaks, column, stop, k =>
    if k.peek = ' ' then
      let k := k.advance
      blockIndentation fuel breaks (max column k.column) stop k
    else if isBreak k.peek then
      let (lineEnd, k) := k.lineBreak
      blockIndentation fuel (breaks ++ lineEnd) column k.mark k
    else (breaks, column, stop, k)

/-- Pass spaces up to a column. -/
def skipIndent (indent : Nat) : Nat → Cursor → Cursor
  | 0, k => k
  | fuel + 1, k =>
    if k.column < indent && k.peek = ' ' then skipIndent indent fuel k.advance else k

/-- The empty lines between the lines of a block scalar, up to the indentation of the next. -/
def blockBreaks (indent : Nat) : Nat → List Char → Mark → Cursor → List Char × Mark × Cursor
  | 0, breaks, stop, k => (breaks, stop, k)
  | fuel + 1, breaks, stop, k =>
    let k := skipIndent indent indent k
    if isBreak k.peek then
      let (lineEnd, k) := k.lineBreak
      blockBreaks indent fuel (breaks ++ lineEnd) k.mark k
    else (breaks, stop, k)

/-- A block scalar while its lines are read. -/
structure BlockText where
  /-- The pieces of the text so far, the last one first. -/
  pieces : List (List Char)
  /-- The end of the last line. -/
  lineEnd : List Char
  /-- The empty lines after it. -/
  breaks : List Char
  stop : Mark
  cursor : Cursor

/-- The lines of a block scalar. In a folded one, a single line feed between two lines that start
with no blank becomes a space. -/
def blockLines (folded : Bool) (indent : Nat) : Nat → BlockText → BlockText
  | 0, b => b
  | fuel + 1, b =>
    let k := b.cursor
    if k.column = indent && k.peek ≠ endChar then
      let flush := k.peek ≠ ' ' && k.peek ≠ '\t'
      let (content, k) := k.span (!endsLine ·)
      let pieces := content :: b.breaks :: b.pieces
      let (lineEnd, k) := k.lineBreak
      let (breaks, stop, k) := blockBreaks indent (k.rest.length + 1) [] k.mark k
      if k.column = indent && k.peek ≠ endChar then
        let joint :=
          if folded && lineEnd = ['\n'] && flush && k.peek ≠ ' ' && k.peek ≠ '\t' then
            (if breaks.isEmpty then [' '] else [])
          else lineEnd
        blockLines folded indent fuel ⟨joint :: pieces, lineEnd, breaks, stop, k⟩
      else ⟨pieces, lineEnd, breaks, stop, k⟩
    else b

/-- A block scalar, from its mark on, inside a block whose entries must be indented by `least`. -/
def readBlock (folded : Bool) (least : Nat) (k : Cursor) : Except Setback ScalarRead := do
  let start := k.mark
  let (chomping, indicated, k) ← blockIndicators start k.advance
  let k ← ignoredLine .blockScalar start k
  let fuel := k.rest.length + 1
  let least := max least 1
  let (indent, breaks, stop, k) := match indicated with
    | none =>
      let (breaks, column, stop, k) := blockIndentation fuel [] 0 k.mark k
      (max least column, breaks, stop, k)
    | some n =>
      let indent := least + n - 1
      (indent, blockBreaks indent fuel [] k.mark k)
  let b := blockLines folded indent fuel ⟨[], [], breaks, stop, k⟩
  let ending := match chomping with
    | .strip => []
    | .clip => b.lineEnd
    | .keep => b.lineEnd ++ b.breaks
  return ⟨ending :: b.pieces, b.stop, b.cursor, true⟩

end ContainerAudit.Yaml
