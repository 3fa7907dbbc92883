import ContainerAudit.Yaml.Graph.Read
import ContainerAudit.Yaml.Merge
import ContainerAudit.Yaml.Scalar

/-!
# From nodes to values

Two ways of building the value of a node. Building in depth finishes each part before the next one
and refuses a node that contains itself. Building in breadth, which reads whole files, looks at the
parts of all collections of one level before it enters any of them, so it meets errors level by
level.
-/

namespace ContainerAudit.Yaml

namespace Graph

/-- The text of a node that must be a scalar. A mapping with a plain value stands for that. -/
def requireText : Nat → Graph → Nat → Except Error String
  | 0, _, _ => .ok ""
  | fuel + 1, g, id =>
    let node := g.node id
    let wrong := Error.at (.wrongShape .scalar node.content.shape) node.start
    match node.content with
    | .scalar text => .ok text
    | .sequence _ => .error wrong
    | .mapping entries =>
      match entries.find? fun (key, _) => (g.node key).tag == .value with
      | some (_, value) => requireText fuel g value
      | none => .error wrong

/-- The text of a node whose kind has no parts. -/
def leafText (g : Graph) (id : Nat) : Except Error String :=
  match (g.node id).content, g.texts.lookup id with
  | .mapping _, some text => .ok text
  | _, _ => g.requireText (g.size + 1) id

/-- Keep the text of a mapping that has been read. -/
def keepText (g : Graph) (id : Nat) : Graph :=
  match (g.node id).content, g.leafText id with
  | .mapping _, .ok text => { g with texts := (id, text) :: g.texts }
  | _, _ => g

/-- The kinds whose values have parts. -/
def hasParts : Tag → Bool
  | .seq | .map | .set | .orderedMap | .pairs => true
  | _ => false

/-- The value of a node whose kind has no parts. -/
def leafValue (g : Graph) (id : Nat) : Except Error Value := do
  let node := g.node id
  match node.tag with
  | .merge | .value | .other _ => throw (.at (.unknownTag node.tag.name) node.start)
  | tag =>
    let text ← g.leafText id
    match tag with
    | .bool => return .bool (← boolOf text.toList)
    | .int => return .int (← intOf text.toList)
    | .float => return .float (← floatOf text.toList)
    | .binary => return .bytes (← binaryOf node.start text.toList)
    | .timestamp =>
      if node.content.shape = .scalar then timestampOf text.toList
      else mismatch .timestampOfMapping
    | .str => return .text text
    | _ => return .null

def requireItems (g : Graph) (id : Nat) : Except Error (List Nat) :=
  let node := g.node id
  match node.content with
  | .sequence items => .ok items
  | content => .error (.at (.wrongShape .sequence content.shape) node.start)

/-- The flattened entries of a mapping. -/
def requireEntries (g : Graph) (id : Nat) : Except Error (List (Nat × Nat) × Graph) :=
  let node := g.node id
  match node.content with
  | .mapping _ => (g.flatten id).map fun g => (g.entries id, g)
  | content => .error (.at (.wrongShape .mapping content.shape) node.start)

/-- The one entry of a mapping inside an ordered map or a list of pairs. -/
def requirePair (g : Graph) (context : Context) (id part : Nat) : Except Error (Nat × Nat) :=
  let start := (g.node id).start
  let node := g.node part
  match node.content with
  | .mapping [entry] => .ok entry
  | .mapping entries => .error (.within context start (.notSingle entries.length) node.start)
  | content => .error (.within context start (.noSingleMapping content.shape) node.start)

/-- The parts of an ordered map or a list of pairs. -/
def requireParts (g : Graph) (context : Context) (id : Nat) : Except Error (List Nat) :=
  let node := g.node id
  match node.content with
  | .sequence parts => .ok parts
  | content => .error (.within context node.start (.noSequence content.shape) node.start)

/-- The context of an ordered map or a list of pairs. -/
def pairContext (tag : Tag) : Context :=
  if tag = .orderedMap then .buildingOrderedMap else .buildingPairs

/-- A key that cannot be one. -/
def keyError (g : Graph) (id key : Nat) : Error :=
  .within .buildingMapping (g.node id).start .notAKey (g.node key).start

/-- Whether a node that contains itself is refused, or cut off where it comes again. -/
inductive Cycles where
  | refused
  | cut
  deriving DecidableEq, Repr

/-- The value that stands where a node comes again inside itself. -/
def cutValue : Tag → Value
  | .map => .map []
  | .set => .set []
  | _ => .list []

section Parts

-- how to build a part
variable (part : Nat → Graph → Except Error (Value × Graph))

def buildItems : List Nat → Graph → Except Error (List Value × Graph)
  | [], g => .ok ([], g)
  | item :: rest, g => do
    let (v, g) ← part item g
    let (vs, g) ← buildItems rest g
    return (v :: vs, g)

/-- Build the entries of a mapping, after those built before. -/
def buildEntries (id : Nat) : List (Value × Value) → List (Nat × Nat) → Graph →
    Except Error (List (Value × Value) × Graph)
  | sofar, [], g => .ok (sofar, g)
  | sofar, (key, value) :: rest, g => do
    let (k, g) ← part key g
    if k.isKey then
      let (v, g) ← part value g
      buildEntries id (Value.putEntry k v sofar) rest g
    else throw (g.keyError id key)

def buildPairs (context : Context) (id : Nat) : List Nat → Graph →
    Except Error (List Value × Graph)
  | [], g => .ok ([], g)
  | pair :: rest, g => do
    let (key, value) ← g.requirePair context id pair
    let (k, g) ← part key g
    let (v, g) ← part value g
    let (vs, g) ← buildPairs context id rest g
    return (.tuple [k, v] :: vs, g)

end Parts

/-- Build the value of a node inside the nodes `around` it, down to some depth. No node is entered
inside itself. -/
def build (cycles : Cycles) : Nat → List Nat → Nat → Graph → Except Error (Value × Graph)
  | 0, _, _, g => .ok (.null, g)
  | depth + 1, around, id, g =>
    let node := g.node id
    if around.contains id then
      match cycles with
      | .refused => .error (.at .recursive node.start)
      | .cut => .ok (cutValue node.tag, g)
    else
      let part := build cycles depth (id :: around)
      match node.tag with
      | .seq => do
        let (values, g) ← buildItems part (← g.requireItems id) g
        return (.list values, g)
      | .map => do
        let (entries, g) ← g.requireEntries id
        let (entries, g) ← buildEntries part id [] entries g
        return (.map entries, g)
      | .set => do
        let (entries, g) ← g.requireEntries id
        let (entries, g) ← buildEntries part id [] entries g
        return (.set (entries.map (·.1)), g)
      | .orderedMap => do
        let parts ← g.requireParts .buildingOrderedMap id
        let (values, g) ← buildPairs part .buildingOrderedMap id parts g
        return (.list values, g)
      | .pairs => do
        let parts ← g.requireParts .buildingPairs id
        let (values, g) ← buildPairs part .buildingPairs id parts g
        return (.list values, g)
      | _ => (g.leafValue id).map fun v => (v, g.keepText id)

/-- The value of a node, built in depth. The nodes around a node differ, so their number bounds the
depth. -/
def value (id : Nat) (g : Graph) : Except Error (Value × Graph) :=
  build .refused (g.size + 1) [] id g

/-! ## In breadth -/

/-- Look at a node: build it if it has no parts, and put it off otherwise. -/
def glance : List Nat × Graph → Nat → Except Error (List Nat × Graph)
  | (later, g), id =>
    if hasParts (g.node id).tag then .ok (later ++ [id], g)
    else (g.leafValue id).map fun _ => (later, g.keepText id)

/-- Look at an entry of a mapping. A key that has parts cannot be one. -/
def glanceEntry (id : Nat) (sofar : List Nat × Graph) (entry : Nat × Nat) :
    Except Error (List Nat × Graph) := do
  if hasParts (sofar.2.node entry.1).tag then throw (sofar.2.keyError id entry.1)
  glance (← glance sofar entry.1) entry.2

/-- Look at the parts of a node. -/
def openUp (g : Graph) (id : Nat) : Except Error (List Nat × Graph) := do
  match (g.node id).tag with
  | .seq => (← g.requireItems id).foldlM glance ([], g)
  | .map | .set =>
    let (entries, g) ← g.requireEntries id
    entries.foldlM (glanceEntry id) ([], g)
  | tag =>
    let context := pairContext tag
    let parts ← g.requireParts context id
    parts.foldlM (fun sofar part => do
      let (key, value) ← sofar.2.requirePair context id part
      glance (← glance sofar key) value) ([], g)

/-- Fuel for opening up all nodes: each one puts off no more nodes than there are references. -/
def openFuel (g : Graph) : Nat :=
  (g.extent + 2) * (g.extent + 2)

/-- Open up the nodes put off, in order, each once. -/
def openAll : Nat → List Nat → List Nat → Graph → Except Error Graph
  | 0, _, _, g => .ok g
  | _ + 1, _, [], g => .ok g
  | fuel + 1, seen, id :: rest, g =>
    if seen.contains id then openAll fuel seen rest g
    else do
      let (later, g) ← g.openUp id
      openAll fuel (id :: seen) (rest ++ later) g

end Graph

/-- The value of a document, built in breadth. -/
def Document.value (d : Document) : Except Error Value := do
  let (later, g) ← Graph.glance ([], d.graph) d.root
  let g ← Graph.openAll g.openFuel [] later g
  let (v, _) ← Graph.build .cut (g.size + 1) [] d.root g
  return v

/-- The value of a source; a text without a document has none. -/
def readValue (source : Source) : Except Error Value := do
  match ← Document.read source with
  | some d => d.value
  | none => return .null

end ContainerAudit.Yaml
