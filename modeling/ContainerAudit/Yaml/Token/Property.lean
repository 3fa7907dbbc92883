import ContainerAudit.Yaml.Token
import ContainerAudit.Yaml.Token.Scalar

/-!
# Anchors, tags and directives

Reading the properties of nodes and the instructions at the head of a document.
-/

namespace ContainerAudit.Yaml

open ContainerAudit.Json (hexValue?)

/-- A character of a name: an ASCII letter or digit, a hyphen or a low line. -/
def isNameChar (c : Char) : Bool :=
  c.isAlphanum || c = '-' || c = '_'

def isUriChar (c : Char) : Bool :=
  c.isAlphanum || "-;/?:@&=+$,_.!~*'()[]%".toList.contains c

/-! ## Anchors and aliases -/

/-- A character that may come after the name of an anchor or alias. -/
def endsAnchor (c : Char) : Bool :=
  isGap c || "?:,]\x7d%@\x60".toList.contains c

/-- The name of an anchor or alias, from its mark on. -/
def readName (context : Context) (k : Cursor) : Except Setback (String × Cursor) :=
  let start := k.mark
  let (name, after) := k.advance.span isNameChar
  if name.isEmpty || !endsAnchor after.peek then
    after.stopWithin context start (.noAlphanumeric after.peek)
  else .ok (String.ofList name, after)

/-! ## Tags -/

/-- Bytes written as a percent sign and two hexadecimal digits each. -/
def uriBytes (context : Context) (start : Mark) :
    Nat → Cursor → Except Setback (List Nat × Cursor)
  | 0, k => .ok ([], k)
  | fuel + 1, k =>
    if k.peek = '%' then
      let digits := k.advance
      match hexNumber 0 2 digits with
      | .error found =>
        found.stop (.within context start (.noUriEscape found.peek) digits.mark)
      | .ok byte =>
        (uriBytes context start fuel (digits.advanceBy 2)).map fun (bytes, k) => (byte :: bytes, k)
    else .ok ([], k)

/-- A run of escaped bytes, which must be UTF-8. -/
def uriEscapes (context : Context) (start : Mark) (k : Cursor) :
    Except Setback (List Char × Cursor) :=
  match uriBytes context start (k.rest.length + 1) k with
  | .error e => .error e
  | .ok (bytes, after) =>
    match Text.decodeStrict bytes with
    | .ok chars => .ok (chars, after)
    | .error (position, flaw) =>
      after.stop (.within context start (.uriNotUtf8 bytes position flaw) k.mark)

/-- The characters and escapes of a URI. -/
def uriFrom (context : Context) (start : Mark) :
    Nat → List Char → Cursor → Except Setback (List Char × Cursor)
  | 0, uri, k => .ok (uri, k)
  | fuel + 1, uri, k =>
    if k.peek = '%' then
      match uriEscapes context start k with
      | .error e => .error e
      | .ok (chars, k) => uriFrom context start fuel (uri ++ chars) k
    else if isUriChar k.peek then uriFrom context start fuel (uri ++ [k.peek]) k.advance
    else .ok (uri, k)

/-- A URI with at least one character or escape. `reading` is the context of an escape, `missing`
that of an empty URI. -/
def readUri (reading missing : Context) (start : Mark) (k : Cursor) :
    Except Setback (String × Cursor) :=
  if isUriChar k.peek then
    (uriFrom reading start (k.rest.length + 1) [] k).map fun (uri, k) => (String.ofList uri, k)
  else k.stopWithin missing start (.noUri k.peek)

/-- A handle: an exclamation mark, or a name between two of them. -/
def readHandle (context : Context) (start : Mark) (k : Cursor) :
    Except Setback (String × Cursor) :=
  if k.peek ≠ '!' then k.stopWithin context start (.noExclamation k.peek)
  else if k.peekAt 1 = ' ' then .ok ("!", k.advance)
  else
    let (name, after) := k.advance.span isNameChar
    if after.peek = '!' then .ok (String.ofList ('!' :: name ++ ['!']), after.advance)
    else after.stopWithin context start (.noExclamation after.peek)

/-- Whether a second exclamation mark comes before the word ends, and the cursor after looking for
it. -/
def hasHandle (k : Cursor) : Bool × Cursor :=
  let between := k.advance.rest.takeWhile fun c => !endsWord c && c ≠ '!'
  let width := between.length + 1
  (k.peekAt width = '!', k.look (width + 1))

/-- A tag, from its exclamation mark on: its handle, if any, and its suffix. -/
def readTag (k : Cursor) : Except Setback (Option String × String × Cursor) := do
  let start := k.mark
  let (handle, suffix, k) ←
    if k.peekAt 1 = '<' then do
      let (uri, k) ← readUri .tag .tagUri start (k.advanceBy 2)
      if k.peek ≠ '>' then k.stopWithin .tagUri start (.noClosingAngle k.peek)
      pure (none, uri, k.advance)
    else if isGap (k.peekAt 1) then pure (none, "!", k.advance)
    else do
      let (handled, k) := hasHandle k
      let (handle, k) ←
        if handled then readHandle .tag start k else pure ("!", k.advance)
      let (uri, k) ← readUri .tag .tagUri start k
      pure (some handle, uri, k)
  if endsWord k.peek then return (handle, suffix, k)
  else k.stopWithin .tag start (.noSpace k.peek)

/-! ## Directives -/

/-- A decimal number of a version. -/
def readVersionNumber (start : Mark) (k : Cursor) : Except Setback (Nat × Cursor) :=
  let (digits, after) := k.span Char.isDigit
  if digits.isEmpty then k.stopWithin .directive start (.noDigit k.peek)
  else
    match Decimal.nat? 10 digits with
    | some n => .ok (n, after)
    | none => after.stop (.mismatch .number)

/-- The version that a text declares: two numbers with a point between them. -/
def readVersion (start : Mark) (k : Cursor) : Except Setback (Directive × Cursor) := do
  let (major, k) ← readVersionNumber start k.skipSpaces
  if k.peek ≠ '.' then k.stopWithin .directive start (.noDigitOrPoint k.peek)
  let (_, k) ← readVersionNumber start k.advance
  if endsWord k.peek then return (.version major, k)
  else k.stopWithin .directive start (.noDigitOrSpace k.peek)

/-- A handle and what it is short for. -/
def readTagHandle (start : Mark) (k : Cursor) : Except Setback (Directive × Cursor) := do
  let (handle, k) ← readHandle .directive start k.skipSpaces
  if k.peek ≠ ' ' then k.stopWithin .directive start (.noSpace k.peek)
  let (uri, k) ← readUri .directive .directiveUri start k.skipSpaces
  if endsWord k.peek then return (.tagHandle handle uri, k)
  else k.stopWithin .directive start (.noSpace k.peek)

/-- A directive, from its percent sign to the start of the next line, and the place where it
ends. -/
def readDirective (k : Cursor) : Except Setback (Directive × Mark × Cursor) := do
  let start := k.mark
  let (name, k) := k.advance.span isNameChar
  if name.isEmpty || !endsWord k.peek then
    k.stopWithin .directive start (.noAlphanumeric k.peek)
  let (directive, stop, k) ←
    match String.ofList name with
    | "YAML" => (readVersion start k).map fun (d, k) => (d, k.mark, k)
    | "TAG" => (readTagHandle start k).map fun (d, k) => (d, k.mark, k)
    | _ => pure (.other, k.mark, k.skip (!endsLine ·))
  let k ← ignoredLine .directive start k
  return (directive, stop, k)

end ContainerAudit.Yaml
