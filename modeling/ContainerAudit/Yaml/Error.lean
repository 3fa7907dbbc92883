import ContainerAudit.Text.Quoted
import ContainerAudit.Text.Utf8
import ContainerAudit.Yaml.Mark

/-!
# YAML errors

What can be wrong with a YAML text, where, and while doing what; and the wording of all of it.
-/

namespace ContainerAudit.Yaml

open ContainerAudit.Text (quoted)

/-- The layer of YAML that an error belongs to. -/
inductive Layer where
  | token
  | nesting
  | graph
  | value
  deriving DecidableEq, Repr

inductive Shape where
  | scalar
  | sequence
  | mapping
  deriving DecidableEq, Repr

def Shape.name : Shape → String
  | .scalar => "scalar"
  | .sequence => "sequence"
  | .mapping => "mapping"

/-- What was being done when an error was met. -/
inductive Context where
  | nextToken
  | simpleKey
  | directive
  | directiveUri
  | anchor
  | alias
  | tagUri
  | tag
  | blockScalar
  | doubleQuoted
  | quotedScalar
  | node
  | blockNode
  | flowNode
  | blockCollection
  | blockMapping
  | flowSequence
  | flowMapping
  | singleDocument
  | firstAnchor (name : String)
  | buildingMapping
  | buildingOrderedMap
  | buildingPairs
  deriving DecidableEq, Repr

def Context.text : Context → String
  | .nextToken => "while scanning for the next token"
  | .simpleKey => "while scanning a simple key"
  | .directive => "while scanning a directive"
  | .directiveUri => "while parsing a directive"
  | .anchor => "while scanning an anchor"
  | .alias => "while scanning an alias"
  | .tagUri => "while parsing a tag"
  | .tag => "while scanning a tag"
  | .blockScalar => "while scanning a block scalar"
  | .doubleQuoted => "while scanning a double-quoted scalar"
  | .quotedScalar => "while scanning a quoted scalar"
  | .node => "while parsing a node"
  | .blockNode => "while parsing a block node"
  | .flowNode => "while parsing a flow node"
  | .blockCollection => "while parsing a block collection"
  | .blockMapping => "while parsing a block mapping"
  | .flowSequence => "while parsing a flow sequence"
  | .flowMapping => "while parsing a flow mapping"
  | .singleDocument => "expected a single document in the stream"
  | .firstAnchor name => "found duplicate anchor " ++ quoted name ++ "; first occurrence"
  | .buildingMapping => "while constructing a mapping"
  | .buildingOrderedMap => "while constructing an ordered map"
  | .buildingPairs => "while constructing pairs"

/-- What is wrong. A character is the one found in the place of another; `id` names a token. -/
inductive Problem where
  | badStart (c : Char)
  | keyWithoutValue
  | sequenceNotAllowed
  | keyNotAllowed
  | valueNotAllowed
  | noAlphanumeric (c : Char)
  | noDigit (c : Char)
  | noDigitOrPoint (c : Char)
  | noDigitOrSpace (c : Char)
  | noSpace (c : Char)
  | noCommentOrBreak (c : Char)
  | noExclamation (c : Char)
  | noClosingAngle (c : Char)
  | noUri (c : Char)
  | noUriEscape (c : Char)
  | uriNotUtf8 (bytes : List Nat) (position : Nat) (flaw : Text.Utf8Flaw)
  | zeroIndentation
  | noIndicator (c : Char)
  | noHexEscape (width : Nat) (c : Char)
  | unknownEscape (c : Char)
  | unexpectedEnd
  | unexpectedSeparator
  | noDocumentStart (id : String)
  | duplicateVersion
  | badVersion
  | duplicateHandle (handle : String)
  | undefinedHandle (handle : String)
  | noContent (id : String)
  | noBlockEnd (id : String)
  | noSequenceEnd (id : String)
  | noMappingEnd (id : String)
  | anotherDocument
  | undefinedAlias (name : String)
  | secondAnchor
  | unknownTag (tag : String)
  | recursive
  | wrongShape (expected found : Shape)
  | notAKey
  | notMergeable (found : Shape)
  | notMergeableList (found : Shape)
  | noSequence (found : Shape)
  | noSingleMapping (found : Shape)
  | notSingle (count : Nat)
  | notAscii (s : List Char)
  | base64Padding
  | base64Length (count : Nat)
  deriving DecidableEq, Repr

def quotedFound (c : Char) : String :=
  quoted (String.ofList [c])

/-- The wording of a flaw in UTF-8 data at a position. -/
def utf8FlawText (bytes : List Nat) (position : Nat) (flaw : Text.Utf8Flaw) : String :=
  let reason := match flaw.reason with
    | .badStart => "invalid start byte"
    | .badContinuation => "invalid continuation byte"
    | .endOfData => "unexpected end of data"
  if flaw.extra = 0 then
    let byte := String.ofList (Text.hexDigits 2 (bytes.getD position 0))
    "'utf-8' codec can't decode byte 0x" ++ byte ++ s!" in position {position}: " ++ reason
  else
    let last := position + flaw.extra
    s!"'utf-8' codec can't decode bytes in position {position}-{last}: " ++ reason

/-- The wording for the first run of characters beyond ASCII. -/
def notAsciiText (s : List Char) : String :=
  let first := (s.takeWhile (·.toNat < 128)).length
  let run := (s.drop first).takeWhile (128 ≤ ·.toNat)
  let problem := match run with
    | [c] => "character '" ++ String.ofList (Text.numericEscape c) ++ s!"' in position {first}"
    | _ =>
      let last := first + run.length - 1
      s!"characters in position {first}-{last}"
  "failed to convert base64 data into ascii: 'ascii' codec can't encode " ++ problem ++
    ": ordinal not in range(128)"

def Problem.text : Problem → String
  | .badStart c => "found character " ++ quotedFound c ++ " that cannot start any token"
  | .keyWithoutValue => "could not find expected ':'"
  | .sequenceNotAllowed => "sequence entries are not allowed here"
  | .keyNotAllowed => "mapping keys are not allowed here"
  | .valueNotAllowed => "mapping values are not allowed here"
  | .noAlphanumeric c => "expected alphabetic or numeric character, but found " ++ quotedFound c
  | .noDigit c => "expected a digit, but found " ++ quotedFound c
  | .noDigitOrPoint c => "expected a digit or '.', but found " ++ quotedFound c
  | .noDigitOrSpace c => "expected a digit or ' ', but found " ++ quotedFound c
  | .noSpace c => "expected ' ', but found " ++ quotedFound c
  | .noCommentOrBreak c => "expected a comment or a line break, but found " ++ quotedFound c
  | .noExclamation c => "expected '!', but found " ++ quotedFound c
  | .noClosingAngle c => "expected '>', but found " ++ quotedFound c
  | .noUri c => "expected URI, but found " ++ quotedFound c
  | .noUriEscape c =>
    "expected URI escape sequence of 2 hexadecimal numbers, but found " ++ quotedFound c
  | .uriNotUtf8 bytes position flaw => utf8FlawText bytes position flaw
  | .zeroIndentation => "expected indentation indicator in the range 1-9, but found 0"
  | .noIndicator c => "expected chomping or indentation indicators, but found " ++ quotedFound c
  | .noHexEscape width c =>
    s!"expected escape sequence of {width} hexadecimal numbers, but found " ++ quotedFound c
  | .unknownEscape c => "found unknown escape character " ++ quotedFound c
  | .unexpectedEnd => "found unexpected end of stream"
  | .unexpectedSeparator => "found unexpected document separator"
  | .noDocumentStart id => "expected '<document start>', but found " ++ quoted id
  | .duplicateVersion => "found duplicate YAML directive"
  | .badVersion => "found incompatible YAML document (version 1.* is required)"
  | .duplicateHandle handle => "duplicate tag handle " ++ quoted handle
  | .undefinedHandle handle => "found undefined tag handle " ++ quoted handle
  | .noContent id => "expected the node content, but found " ++ quoted id
  | .noBlockEnd id => "expected <block end>, but found " ++ quoted id
  | .noSequenceEnd id => "expected ',' or ']', but got " ++ quoted id
  | .noMappingEnd id => "expected ',' or '\x7d', but got " ++ quoted id
  | .anotherDocument => "but found another document"
  | .undefinedAlias name => "found undefined alias " ++ quoted name
  | .secondAnchor => "second occurrence"
  | .unknownTag tag => "could not determine a constructor for the tag " ++ quoted tag
  | .recursive => "found unconstructable recursive node"
  | .wrongShape expected found =>
    "expected a " ++ expected.name ++ " node, but found " ++ found.name
  | .notAKey => "found unhashable key"
  | .notMergeable found => "expected a mapping for merging, but found " ++ found.name
  | .notMergeableList found =>
    "expected a mapping or list of mappings for merging, but found " ++ found.name
  | .noSequence found => "expected a sequence, but found " ++ found.name
  | .noSingleMapping found => "expected a mapping of length 1, but found " ++ found.name
  | .notSingle count => s!"expected a single mapping item, but found {count} items"
  | .notAscii s => notAsciiText s
  | .base64Padding => "failed to decode base64 data: Incorrect padding"
  | .base64Length count =>
    "failed to decode base64 data: Invalid base64-encoded string: number of data characters " ++
      s!"({count}) cannot be 1 more than a multiple of 4"

def Problem.layer : Problem → Layer
  | .noDocumentStart _ | .duplicateVersion | .badVersion | .duplicateHandle _
  | .undefinedHandle _ | .noContent _ | .noBlockEnd _ | .noSequenceEnd _ | .noMappingEnd _ =>
    .nesting
  | .anotherDocument | .undefinedAlias _ | .secondAnchor => .graph
  | .unknownTag _ | .recursive | .wrongShape _ _ | .notAKey | .notMergeable _
  | .notMergeableList _ | .noSequence _ | .noSingleMapping _ | .notSingle _ | .notAscii _
  | .base64Padding | .base64Length _ => .value
  | _ => .token

/-- A problem with its place, and the context with the place where that began. -/
structure Fault where
  problem : Problem
  mark : Mark
  context : Option Context := none
  contextMark : Option Mark := none
  deriving DecidableEq, Repr

/-- Scalars that are not what their tag says, numeric escapes of no character, bytes of no text, and
values of no text. -/
inductive Mismatch where
  | number
  | emptyNumber
  /-- A fraction in base sixty has so many digits that a power of sixty is out of range. -/
  | hugePower
  | truthValue
  | timestamp
  | timestampOfMapping
  | date
  | codePoint
  | hugeCodePoint
  /-- Bytes that are not UTF-8. -/
  | encoding
  /-- A text is wanted of a value with a whole number that has too many digits. -/
  | longNumber
  deriving DecidableEq, Repr

/-- Why a YAML text has no value. -/
inductive Error where
  /-- A character that no YAML text may hold, with its position. -/
  | unacceptable (c : Char) (position : Nat)
  /-- A fault of the text's structure. -/
  | faulty (fault : Fault)
  /-- A scalar that does not fit its tag, bytes that are no text, or a value that has none. -/
  | mismatch (kind : Mismatch)
  deriving DecidableEq, Repr

/-- A fault without a context. -/
def Error.at (problem : Problem) (mark : Mark) : Error :=
  .faulty { problem, mark }

/-- A fault met in a context that began at a place. -/
def Error.within (context : Context) (start : Mark) (problem : Problem) (mark : Mark) : Error :=
  .faulty ⟨problem, mark, some context, some start⟩

/-- An error on the way through a text, with the number of characters that were needed to meet
it. -/
structure Setback where
  error : Error
  needed : Nat
  deriving DecidableEq, Repr

/-- Stop at the cursor with an error. -/
def Cursor.stop {α : Type} (k : Cursor) (error : Error) : Except Setback α :=
  .error ⟨error, k.needed⟩

/-- Stop at the cursor with a fault that lies there, in a context that began at a place. -/
def Cursor.stopWithin {α : Type} (k : Cursor) (context : Context) (start : Mark)
    (problem : Problem) : Except Setback α :=
  k.stop (.within context start problem k.mark)

/-- A place in a named source, counted from one. -/
def Mark.text (source : String) (m : Mark) : String :=
  s!"  in \"{source}\", line {m.line + 1}, column {m.column + 1}"

/-- The full text of a fault: context, its place unless it is that of the problem, the problem and
its place. -/
def Fault.text (source : String) (f : Fault) : String :=
  let context := f.context.toList.map Context.text
  let contextPlace := (f.contextMark.toList.filter fun m =>
    m.line != f.mark.line || m.column != f.mark.column).map (Mark.text source)
  "\n".intercalate (context ++ contextPlace ++ [f.problem.text, f.mark.text source])

/-- The full text of an unacceptable character. -/
def unacceptableText (source : String) (c : Char) (position : Nat) : String :=
  let width := max 4 (Nat.toDigits 16 c.toNat).length
  let code := String.ofList (Text.hexDigits width c.toNat)
  "unacceptable character #x" ++ code ++ ": special characters are not allowed\n" ++
    s!"  in \"{source}\", position {position}"

end ContainerAudit.Yaml
