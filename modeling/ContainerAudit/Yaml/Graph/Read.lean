import ContainerAudit.Yaml.Graph
import ContainerAudit.Yaml.Token.Scan

/-!
# Reading a document

From the tokens of a text to the graph of its one document. Each reader looks at one token ahead;
an error of the token stream is met when the tokens before it are used up.
-/

namespace ContainerAudit.Yaml

/-- The state of reading a document. -/
structure Reading where
  tokens : List Token
  error : Option Error
  graph : Graph := .empty
  /-- The nodes with an anchor. -/
  anchors : List (String × Nat) := []
  /-- What the tag handles are short for. -/
  handles : List (String × String) := []

abbrev Read := StateT Reading (Except Error)

namespace Read

/-- The handles that need no directive. -/
def standardHandles : List (String × String) :=
  [("!", "!"), ("!!", Tag.family)]

def peek : Read Token := do
  let s ← get
  match s.tokens, s.error with
  | token :: _, _ => return token
  | [], some e => throw e
  | [], none => return ⟨.streamEnd, .start, .start⟩

def next : Read Token := do
  let token ← peek
  modify fun s => { s with tokens := s.tokens.drop 1 }
  return token

def addNode (node : Node) : Read Nat := do
  let s ← get
  set { s with graph := s.graph.push node }
  return s.graph.size

/-- A node for a place where none is written. -/
def emptyNode (mark : Mark) : Read Nat :=
  addNode ⟨.null, mark, .scalar ""⟩

/-- Fix the content of a collection once its parts are read. -/
def finish (id : Nat) (content : Content) : Read Nat := do
  modify fun s => { s with graph := s.graph.setContent id content }
  return id

/-- Let an anchor stand for a node. -/
def setAnchor (anchor : Option String) (id : Nat) : Read Unit :=
  match anchor with
  | some name => modify fun s => { s with anchors := (name, id) :: s.anchors }
  | none => pure ()

/-! ## Properties -/

/-- What is written in front of a node's content. -/
structure Properties where
  anchor : Option String := none
  tag : Option (Option String × String) := none
  start : Option Mark := none
  tagStart : Mark := .start

/-- The anchor and the tag of a node, in either order. -/
def properties : Read Properties := do
  let first ← peek
  match first.lexeme with
  | .anchor name =>
    let _ ← next
    let second ← peek
    match second.lexeme with
    | .tag handle suffix =>
      let _ ← next
      return ⟨some name, some (handle, suffix), some first.start, second.start⟩
    | _ => return { anchor := some name, start := some first.start }
  | .tag handle suffix =>
    let _ ← next
    let second ← peek
    match second.lexeme with
    | .anchor name =>
      let _ ← next
      return ⟨some name, some (handle, suffix), some first.start, first.start⟩
    | _ => return ⟨none, some (handle, suffix), some first.start, first.start⟩
  | _ => return {}

/-- The full name of a tag as written. -/
def tagName (p : Properties) : Read (Option String) := do
  match p.tag with
  | none => return none
  | some (none, suffix) => return some suffix
  | some (some handle, suffix) =>
    match (← get).handles.lookup handle with
    | some expansion => return some (expansion ++ suffix)
    | none =>
      throw (.within .node (p.start.getD .start) (.undefinedHandle handle) p.tagStart)

/-- The tag of a collection; an exclamation mark alone leaves it open. -/
def collectionTag (name : Option String) (ordinary : Tag) : Tag :=
  match name with
  | none | some "!" => ordinary
  | some name => Tag.ofName name

/-- The tag of a scalar. Without a tag, or with an exclamation mark alone in front of it, a plain
scalar has the kind of its form. -/
def scalarTag (name : Option String) (text : String) (plain : Bool) : Tag :=
  match name with
  | none => if plain then plainTag text.toList else .str
  | some "!" => plainTag text.toList
  | some name => Tag.ofName name

/-- An anchor may be set only once. -/
def checkAnchor (anchor : Option String) (start : Mark) : Read Unit := do
  match anchor with
  | none => return
  | some name =>
    let s ← get
    match s.anchors.lookup name with
    | some first =>
      throw (.within (.firstAnchor name) (s.graph.node first).start .secondAnchor start)
    | none => return

/-- A new node with its anchor, whose parts are yet to be read. -/
def openNode (anchor : Option String) (node : Node) : Read Nat := do
  checkAnchor anchor node.start
  let id ← addNode node
  setAnchor anchor id
  return id

/-! ## Nodes -/

/-- Which contents a place allows: any of a block, or also a sequence whose dashes are not
indented, or flow contents only. -/
inductive Place where
  | block
  | blockValue
  | flow
  deriving DecidableEq, Repr

/-- The next token is one of those that leave a place empty. -/
def isVacant (empties : List Lexeme) : Read Bool := do
  return empties.contains (← peek).lexeme

mutual

/-- A node. Every call but the first of a loop takes a token, so that a small multiple of the
number of tokens is fuel enough for all readers here. -/
def node : Nat → Place → Read Nat
  | 0, _ => emptyNode .start
  | fuel + 1, place => do
    let token ← peek
    match token.lexeme with
    | .alias name =>
      let _ ← next
      match (← get).anchors.lookup name with
      | some id => return id
      | none => throw (.at (.undefinedAlias name) token.start)
    | _ =>
      let p ← properties
      let name ← tagName p
      let token ← peek
      let start := p.start.getD token.start
      let open' := fun tag content => openNode p.anchor ⟨tag, start, content⟩
      match token.lexeme, place with
      | .blockEntry, .blockValue =>
        let id ← open' (collectionTag name .seq) (.sequence [])
        finish id (.sequence (← plainEntries fuel))
      | .scalar text plain, _ =>
        let _ ← next
        open' (scalarTag name text plain) (.scalar text)
      | .flowSequenceStart, _ =>
        let id ← open' (collectionTag name .seq) (.sequence [])
        let _ ← next
        finish id (.sequence (← flowItems fuel true token.start))
      | .flowMappingStart, _ =>
        let id ← open' (collectionTag name .map) (.mapping [])
        let _ ← next
        finish id (.mapping (← flowEntries fuel true token.start))
      | lexeme, place =>
        if lexeme = .blockSequenceStart && place ≠ .flow then do
          let id ← open' (collectionTag name .seq) (.sequence [])
          let _ ← next
          finish id (.sequence (← blockItems fuel token.start))
        else if lexeme = .blockMappingStart && place ≠ .flow then do
          let id ← open' (collectionTag name .map) (.mapping [])
          let _ ← next
          finish id (.mapping (← blockEntries fuel token.start))
        else if p.anchor.isSome || p.tag.isSome then
          open' (scalarTag name "" true) (.scalar "")
        else
          let context := if place = .flow then Context.flowNode else .blockNode
          throw (.within context start (.noContent lexeme.id) token.start)

/-- A node, or an empty one at `mark` where the next token shows that none is written. -/
def nodeUnless : Nat → List Lexeme → Mark → Place → Read Nat
  | 0, _, mark, _ => emptyNode mark
  | fuel + 1, empties, mark, place => do
    if ← isVacant empties then emptyNode mark else node fuel place

def blockItems : Nat → Mark → Read (List Nat)
  | 0, _ => pure []
  | fuel + 1, start => do
    let token ← next
    match token.lexeme with
    | .blockEntry =>
      let item ← nodeUnless fuel [.blockEntry, .blockEnd] token.stop .block
      return item :: (← blockItems fuel start)
    | .blockEnd => return []
    | lexeme => throw (.within .blockCollection start (.noBlockEnd lexeme.id) token.start)

/-- The items of a block sequence at the column of its mapping. -/
def plainEntries : Nat → Read (List Nat)
  | 0 => pure []
  | fuel + 1 => do
    let token ← peek
    match token.lexeme with
    | .blockEntry =>
      let _ ← next
      let item ← nodeUnless fuel [.blockEntry, .key, .value, .blockEnd] token.stop .block
      return item :: (← plainEntries fuel)
    | _ => return []

def blockEntries : Nat → Mark → Read (List (Nat × Nat))
  | 0, _ => pure []
  | fuel + 1, start => do
    let token ← peek
    match token.lexeme with
    | .key =>
      let _ ← next
      let key ← nodeUnless fuel [.key, .value, .blockEnd] token.stop .blockValue
      let value ← valueAfter fuel [.key, .value, .blockEnd] .blockValue
      return (key, value) :: (← blockEntries fuel start)
    | .blockEnd =>
      let _ ← next
      return []
    | lexeme => throw (.within .blockMapping start (.noBlockEnd lexeme.id) token.start)

/-- The value after a colon, or an empty one where no colon comes. -/
def valueAfter : Nat → List Lexeme → Place → Read Nat
  | 0, _, _ => emptyNode .start
  | fuel + 1, empties, place => do
    let token ← peek
    match token.lexeme with
    | .value =>
      let _ ← next
      nodeUnless fuel empties token.stop place
    | _ => emptyNode token.start

/-- The items of a flow sequence. An entry with a key is a mapping of its own. -/
def flowItems : Nat → Bool → Mark → Read (List Nat)
  | 0, _, _ => pure []
  | fuel + 1, first, start => do
    let token ← peek
    if token.lexeme = .flowSequenceEnd then do
      let _ ← next
      return []
    else do
      unless first do
        if token.lexeme = .flowEntry then
          let _ ← next
        else throw (.within .flowSequence start (.noSequenceEnd token.lexeme.id) token.start)
      let token ← peek
      match token.lexeme with
      | .key =>
        let id ← addNode ⟨.map, token.start, .mapping []⟩
        let _ ← next
        let key ← nodeUnless fuel [.value, .flowEntry, .flowSequenceEnd] token.stop .flow
        let value ← valueAfter fuel [.flowEntry, .flowSequenceEnd] .flow
        let item ← finish id (.mapping [(key, value)])
        return item :: (← flowItems fuel false start)
      | .flowSequenceEnd =>
        let _ ← next
        return []
      | _ =>
        let item ← node fuel .flow
        return item :: (← flowItems fuel false start)

def flowEntries : Nat → Bool → Mark → Read (List (Nat × Nat))
  | 0, _, _ => pure []
  | fuel + 1, first, start => do
    let token ← peek
    if token.lexeme = .flowMappingEnd then do
      let _ ← next
      return []
    else do
      unless first do
        if token.lexeme = .flowEntry then
          let _ ← next
        else throw (.within .flowMapping start (.noMappingEnd token.lexeme.id) token.start)
      let token ← peek
      match token.lexeme with
      | .key =>
        let _ ← next
        let key ← nodeUnless fuel [.value, .flowEntry, .flowMappingEnd] token.stop .flow
        let value ← valueAfter fuel [.flowEntry, .flowMappingEnd] .flow
        return (key, value) :: (← flowEntries fuel false start)
      | .flowMappingEnd =>
        let _ ← next
        return []
      | _ =>
        let key ← node fuel .flow
        let value ← emptyNode (← peek).start
        return (key, value) :: (← flowEntries fuel false start)

end

/-! ## Documents -/

/-- Apply the directives of a document; `hasVersion` tells whether a version came before. -/
def directives : Nat → Bool → Read Unit
  | 0, _ => pure ()
  | fuel + 1, hasVersion => do
    let token ← peek
    match token.lexeme with
    | .directive d =>
      let _ ← next
      match d with
      | .version major =>
        if hasVersion then throw (.at .duplicateVersion token.start)
        if major ≠ 1 then throw (.at .badVersion token.start)
        directives fuel true
      | .tagHandle handle expansion =>
        if ((← get).handles.lookup handle).isSome then
          throw (.at (.duplicateHandle handle) token.start)
        modify fun s => { s with handles := s.handles ++ [(handle, expansion)] }
        directives fuel hasVersion
      | .other => directives fuel hasVersion
    | _ => return

/-- Pass the markers of document ends. -/
def skipDocumentEnds : Nat → Read Unit
  | 0 => pure ()
  | fuel + 1 => do
    if (← peek).lexeme = .documentEnd then
      let _ ← next
      skipDocumentEnds fuel

/-- The head of a document that starts with a marker: the place where the head starts, or none at
the end of the text. -/
def explicitStart (fuel : Nat) : Read (Option Mark) := do
  skipDocumentEnds fuel
  let token ← peek
  if token.lexeme = .streamEnd then return none
  modify fun s => { s with handles := [] }
  directives fuel false
  let marker ← peek
  if marker.lexeme ≠ .documentStart then
    throw (.at (.noDocumentStart marker.lexeme.id) marker.start)
  let _ ← next
  modify fun s => { s with handles := s.handles ++ standardHandles.filter fun (handle, _) =>
    (s.handles.lookup handle).isNone }
  return some token.start

/-- The lexeme belongs between documents. -/
def isDocumentBoundary : Lexeme → Bool
  | .directive _ | .documentStart | .documentEnd | .streamEnd => true
  | _ => false

/-- The content of a document after its marker. -/
def documentContent (fuel : Nat) : Read Nat := do
  let token ← peek
  if isDocumentBoundary token.lexeme then emptyNode token.start else node fuel .block

/-- The one document of a text, if there is any. -/
def document (fuel : Nat) : Read (Option Nat) := do
  let token ← peek
  let root ←
    match token.lexeme with
    | .directive _ | .documentStart | .streamEnd =>
      match ← explicitStart fuel with
      | none => pure none
      | some _ => some <$> documentContent fuel
    | _ => do
      modify fun s => { s with handles := standardHandles }
      some <$> node fuel .block
  match root with
  | none => return none
  | some id =>
    let token ← peek
    if token.lexeme = .documentEnd then
      let _ ← next
    match ← explicitStart fuel with
    | none => return some id
    | some second =>
      let first := ((← get).graph.node id).start
      throw (.within .singleDocument first .anotherDocument second)

end Read

def Document.read (source : Source) : Except Error (Option Document) :=
  let stream := TokenStream.scan source
  let fuel := 4 * stream.tokens.length + 8
  match (Read.document fuel).run { tokens := stream.tokens, error := stream.error } with
  | .error e => .error e
  | .ok (some root, s) => .ok (some ⟨s.graph.nodes, root⟩)
  | .ok (none, _) => .ok none

end ContainerAudit.Yaml
