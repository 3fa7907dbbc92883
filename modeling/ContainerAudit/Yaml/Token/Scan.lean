import ContainerAudit.Yaml.Source
import ContainerAudit.Yaml.Token.Property

/-!
# The tokens of a YAML text

A mapping key is written without a mark of its own, so a token that may turn out to be one is kept
pending until a colon comes or the line ends. The tokens before the first pending key are settled;
an error therefore comes after the settled tokens only, and readers see it exactly there. The same
holds where more characters are needed than a source has at hand.
-/

namespace ContainerAudit.Yaml

/-- A token that becomes a mapping key if a colon comes: its number, whether it can be nothing but
a key, and where it starts. -/
structure PendingKey where
  number : Nat
  required : Bool
  mark : Mark
  deriving DecidableEq, Repr

/-- The state of reading tokens. -/
structure Lexer where
  cursor : Cursor
  /-- The tokens so far, the newest first. -/
  tokens : List Token := []
  /-- The number of tokens so far. -/
  count : Nat := 0
  /-- The number of flow collections around the cursor. -/
  depth : Nat := 0
  /-- The columns of the block collections around the cursor, the innermost first. -/
  indents : List Nat := []
  /-- A mapping key without a mark may start at the cursor. -/
  keyAllowed : Bool := true
  /-- The pending key of each flow depth. -/
  pending : List (Nat × PendingKey) := []
  finished : Bool := false

namespace Lexer

def inFlow (s : Lexer) : Bool := 0 < s.depth

def peek (s : Lexer) : Char := s.cursor.peek

/-- The column that the entries of a new block collection must reach. -/
def leastIndent (s : Lexer) : Nat :=
  match s.indents with
  | [] => 0
  | indent :: _ => indent + 1

def emit (s : Lexer) (lexeme : Lexeme) (start stop : Mark) : Lexer :=
  { s with tokens := ⟨lexeme, start, stop⟩ :: s.tokens, count := s.count + 1 }

/-- A new token without characters. -/
def emitHere (s : Lexer) (lexeme : Lexeme) : Lexer :=
  s.emit lexeme s.cursor.mark s.cursor.mark

/-- A new token of a number of characters. -/
def emitChars (s : Lexer) (lexeme : Lexeme) (width : Nat) : Lexer :=
  let after := s.cursor.advanceBy width
  { s.emit lexeme s.cursor.mark after.mark with cursor := after }

/-- A new token in front of the token with a number. -/
def insert (s : Lexer) (number : Nat) (lexeme : Lexeme) (mark : Mark) : Lexer :=
  { s with
    tokens := s.tokens.insertIdx (s.count - number) ⟨lexeme, mark, mark⟩
    count := s.count + 1 }

/-! ## Pending keys -/

/-- The error of a key that no colon follows. -/
def keyError (s : Lexer) (key : PendingKey) : Error :=
  .within .simpleKey key.mark .keyWithoutValue s.cursor.mark

/-- A key lies on one line, within 1024 characters. -/
def isStale (s : Lexer) (key : PendingKey) : Bool :=
  key.mark.line ≠ s.cursor.mark.line || key.mark.index + 1024 < s.cursor.mark.index

/-- Give up the pending keys that the cursor has left behind. -/
def dropStale (s : Lexer) : Except Setback Lexer :=
  match s.pending.find? fun (_, key) => s.isStale key && key.required with
  | some (_, key) => s.cursor.stop (s.keyError key)
  | none => .ok { s with pending := s.pending.filter fun (_, key) => !s.isStale key }

/-- Give up the pending key of this depth. -/
def dropKey (s : Lexer) : Except Setback Lexer :=
  match s.pending.lookup s.depth with
  | some key =>
    if key.required then s.cursor.stop (s.keyError key)
    else .ok { s with pending := s.pending.filter (·.1 ≠ s.depth) }
  | none => .ok s

/-- The next token may be a key. At the column of the enclosing block it can be nothing else. -/
def savePending (s : Lexer) : Except Setback Lexer :=
  if s.keyAllowed then do
    let required := !s.inFlow && s.indents.head? = some s.cursor.column
    let s ← s.dropKey
    return { s with pending := (s.depth, ⟨s.count, required, s.cursor.mark⟩) :: s.pending }
  else .ok s

/-! ## Indentation -/

/-- Close the block collections whose column is `least` or more. -/
def unwind (least : Nat) (s : Lexer) : Lexer :=
  if s.inFlow then s
  else
    let closed := s.indents.takeWhile (least ≤ ·)
    let s := { s with indents := s.indents.drop closed.length }
    closed.foldl (fun s _ => s.emitHere .blockEnd) s

/-- The column opens a new block collection. -/
def opensBlock (s : Lexer) (column : Nat) : Bool :=
  s.leastIndent ≤ column

/-- Open a block collection at the cursor, unless its column has one. -/
def openBlock (s : Lexer) (lexeme : Lexeme) : Lexer :=
  if s.opensBlock s.cursor.column then
    { s.emitHere lexeme with indents := s.cursor.column :: s.indents }
  else s

/-! ## Tokens by kind -/

def scanEnd (s : Lexer) : Except Setback Lexer := do
  let s ← (s.unwind 0).dropKey
  return { s.emitHere .streamEnd with keyAllowed := false, pending := [], finished := true }

def scanDirective (s : Lexer) : Except Setback Lexer := do
  let s ← (s.unwind 0).dropKey
  let (directive, stop, cursor) ← readDirective s.cursor
  return { s.emit (.directive directive) s.cursor.mark stop with cursor, keyAllowed := false }

def scanMarker (lexeme : Lexeme) (s : Lexer) : Except Setback Lexer := do
  let s ← (s.unwind 0).dropKey
  return { s.emitChars lexeme 3 with keyAllowed := false }

def scanFlowStart (lexeme : Lexeme) (s : Lexer) : Except Setback Lexer := do
  let s ← s.savePending
  return { s.emitChars lexeme 1 with depth := s.depth + 1, keyAllowed := true }

def scanFlowEnd (lexeme : Lexeme) (s : Lexer) : Except Setback Lexer := do
  let s ← s.dropKey
  return { s.emitChars lexeme 1 with depth := s.depth - 1, keyAllowed := false }

def scanFlowEntry (s : Lexer) : Except Setback Lexer := do
  let s ← s.dropKey
  return { s.emitChars .flowEntry 1 with keyAllowed := true }

/-- A mark that opens a block collection where none is open at its column. -/
def scanOpening (opened : Lexeme) (problem : Problem) (s : Lexer) : Except Setback Lexer :=
  if s.inFlow then .ok s
  else if s.keyAllowed then .ok (s.openBlock opened)
  else s.cursor.stop (.at problem s.cursor.mark)

def scanBlockEntry (s : Lexer) : Except Setback Lexer := do
  let s ← s.scanOpening .blockSequenceStart .sequenceNotAllowed
  let s ← s.dropKey
  return { s.emitChars .blockEntry 1 with keyAllowed := true }

def scanKey (s : Lexer) : Except Setback Lexer := do
  let s ← s.scanOpening .blockMappingStart .keyNotAllowed
  let s ← s.dropKey
  return { s.emitChars .key 1 with keyAllowed := !s.inFlow }

/-- The pending key turns out to be one: its mark goes in front of it, and in front of that the
start of a block mapping if its column opens one. -/
def settleKey (s : Lexer) (key : PendingKey) : Lexer :=
  let s := { s with pending := s.pending.filter (·.1 ≠ s.depth), keyAllowed := false }
  let s := s.insert key.number .key key.mark
  if !s.inFlow && s.opensBlock key.mark.column then
    { s.insert key.number .blockMappingStart key.mark with
      indents := key.mark.column :: s.indents }
  else s

def scanValue (s : Lexer) : Except Setback Lexer := do
  let s ← match s.pending.lookup s.depth with
    | some key => pure (s.settleKey key)
    | none => do
      let s ← s.scanOpening .blockMappingStart .valueNotAllowed
      let s := { s with keyAllowed := !s.inFlow }
      s.dropKey
  return s.emitChars .value 1

def scanName (context : Context) (lexeme : String → Lexeme) (s : Lexer) : Except Setback Lexer := do
  let s ← s.savePending
  let (name, cursor) ← readName context s.cursor
  return { s.emit (lexeme name) s.cursor.mark cursor.mark with cursor, keyAllowed := false }

def scanTag (s : Lexer) : Except Setback Lexer := do
  let s ← s.savePending
  let (handle, suffix, cursor) ← readTag s.cursor
  return { s.emit (.tag handle suffix) s.cursor.mark cursor.mark with cursor, keyAllowed := false }

def emitScalar (s : Lexer) (plain : Bool) (read : ScalarRead) : Lexer :=
  { s.emit (.scalar (String.ofList read.text) plain) s.cursor.mark read.stop with
    cursor := read.cursor, keyAllowed := read.lineEnded }

def scanBlockScalar (folded : Bool) (s : Lexer) : Except Setback Lexer := do
  let s ← s.dropKey
  return s.emitScalar false (← readBlock folded s.leastIndent s.cursor)

def scanQuoted (double : Bool) (s : Lexer) : Except Setback Lexer := do
  let s ← s.savePending
  return s.emitScalar false (← readQuoted double s.cursor)

def scanPlain (s : Lexer) : Except Setback Lexer := do
  let s ← s.savePending
  return s.emitScalar true (readPlain s.inFlow s.leastIndent s.cursor)

/-! ## The next token -/

/-- A character that is a mark of its own at the start of a token. -/
def isIndicator (c : Char) : Bool :=
  "-?:,[]\x7b\x7d#&*!|>'\"%@\x60".toList.contains c

/-- A plain scalar starts at the cursor. -/
def atPlain (s : Lexer) : Bool :=
  let c := s.peek
  (!isGap c && !isIndicator c) ||
    (!isGap (s.cursor.peekAt 1) && (c = '-' || (!s.inFlow && (c = '?' || c = ':'))))

/-- A mark that counts in a block only before a gap. -/
def atMark (c : Char) (s : Lexer) : Bool :=
  s.peek = c && (s.inFlow || isGap (s.cursor.peekAt 1))

/-- The number of characters that tell which token comes next. A dash or a dot at the margin may
start a document marker; some marks count by the character after them. -/
def lookahead (s : Lexer) : Nat :=
  let c := s.peek
  let atMargin := s.cursor.column = 0
  if atMargin && (c = '-' || c = '.') then
    if s.cursor.atDashes || s.cursor.atDots then 4 else 3
  else if c = '-' || c = '\t' || c = '@' || c = '\x60' || (c = '%' && !atMargin) ||
      (if s.inFlow then c = '|' || c = '>' else c = '?' || c = ':') then 2
  else 1

def lookAhead (s : Lexer) : Lexer :=
  { s with cursor := s.cursor.look s.lookahead }

def scanToken (s : Lexer) : Except Setback Lexer :=
  let c := s.peek
  let atMargin := s.cursor.column = 0
  if c = endChar then s.scanEnd
  else if c = '%' && atMargin then s.scanDirective
  else if atMargin && s.cursor.atMarker true false then s.scanMarker .documentStart
  else if atMargin && s.cursor.atMarker false true then s.scanMarker .documentEnd
  else if c = '[' then s.scanFlowStart .flowSequenceStart
  else if c = '\x7b' then s.scanFlowStart .flowMappingStart
  else if c = ']' then s.scanFlowEnd .flowSequenceEnd
  else if c = '\x7d' then s.scanFlowEnd .flowMappingEnd
  else if c = ',' then s.scanFlowEntry
  else if c = '-' && isGap (s.cursor.peekAt 1) then s.scanBlockEntry
  else if s.atMark '?' then s.scanKey
  else if s.atMark ':' then s.scanValue
  else if c = '*' then s.scanName .alias .alias
  else if c = '&' then s.scanName .anchor .anchor
  else if c = '!' then s.scanTag
  else if c = '|' && !s.inFlow then s.scanBlockScalar false
  else if c = '>' && !s.inFlow then s.scanBlockScalar true
  else if c = '\'' then s.scanQuoted false
  else if c = '"' then s.scanQuoted true
  else if s.atPlain then s.scanPlain
  else s.cursor.stop (.faulty ⟨.badStart c, s.cursor.mark, some .nextToken, none⟩)

/-- Pass spaces, comments and line ends. After a line end in a block a key may start. -/
def skipToToken : Nat → Lexer → Lexer
  | 0, s => s
  | fuel + 1, s =>
    let cursor := s.cursor.skipSpaces.skipComment
    if isBreak cursor.peek then
      skipToToken fuel
        { s with cursor := cursor.lineBreak.2, keyAllowed := s.keyAllowed || !s.inFlow }
    else { s with cursor }

/-- Pass a byte order mark at the start of the text. -/
def skipByteOrderMark (s : Lexer) : Lexer :=
  if s.cursor.mark.index = 0 && s.peek.toNat = 0xfeff then { s with cursor := s.cursor.advance }
  else s

/-- Read on by one token, together with the ends of blocks before it. -/
def advance (s : Lexer) : Except Setback Lexer := do
  let s := s.skipByteOrderMark
  let s ← (s.skipToToken (s.cursor.rest.length + 1)).dropStale
  let s ← (s.unwind (s.cursor.column + 1)).lookAhead.scanToken
  if s.finished then return s else s.dropStale

/-- The tokens that no pending key can change any more. -/
def settled (s : Lexer) : List Token :=
  s.tokens.reverse.take (s.pending.foldl (fun n (_, key) => min n key.number) s.count)

end Lexer

/-- The tokens of a source, and the error after the last of them if its text does not end there. -/
structure TokenStream where
  tokens : List Token
  error : Option Error
  deriving DecidableEq, Repr

/-- The error of needing more characters than are at hand: `limit` is their number, if there is a
limit, and what lies beyond. -/
def beyond (limit : Option (Nat × Error)) (needed : Nat) : Option Error :=
  limit.bind fun (size, obstacle) => if size < needed then some obstacle else none

/-- Read tokens to the end or to the limit; each round passes at least one character. -/
def scanFrom (limit : Option (Nat × Error)) : Nat → Lexer → TokenStream
  | 0, s => ⟨s.settled, none⟩
  | fuel + 1, s =>
    match s.advance with
    | .error setback => ⟨s.settled, (beyond limit setback.needed).or setback.error⟩
    | .ok next =>
      match beyond limit next.cursor.needed with
      | some obstacle => ⟨s.settled, obstacle⟩
      | none => if next.finished then ⟨next.tokens.reverse, none⟩ else scanFrom limit fuel next

def TokenStream.scan (source : Source) : TokenStream :=
  scanFrom source.limit (source.text.length + 1) { cursor := .ofText source.text }

end ContainerAudit.Yaml
