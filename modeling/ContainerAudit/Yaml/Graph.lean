import ContainerAudit.Yaml.Error
import ContainerAudit.Yaml.Tag

/-!
# YAML graphs

The nodes of a document. An alias is a further reference to the node with its anchor, so nodes form
a graph, which may have cycles; a node is named by its number.
-/

namespace ContainerAudit.Yaml

/-- What a node holds: a text, or references to other nodes. -/
inductive Content where
  | scalar (text : String)
  | sequence (items : List Nat)
  | mapping (entries : List (Nat × Nat))
  deriving DecidableEq, Repr

def Content.shape : Content → Shape
  | .scalar _ => .scalar
  | .sequence _ => .sequence
  | .mapping _ => .mapping

/-- A node: its kind, the place where it starts, and what it holds. -/
structure Node where
  tag : Tag
  start : Mark
  content : Content
  deriving DecidableEq, Repr

instance : Inhabited Node := ⟨⟨.null, .start, .scalar ""⟩⟩

/-- The nodes of a document. A mapping that stands for its plain value keeps the text that it was
first read as, whatever becomes of it later. -/
structure Graph where
  nodes : Array Node
  texts : List (Nat × String)
  deriving DecidableEq, Repr

namespace Graph

def empty : Graph := ⟨#[], []⟩

/-- The node with a number; beyond the last node there are only empty ones. -/
def node (g : Graph) (id : Nat) : Node := g.nodes.getD id default

/-- A further node, under the next number. -/
def push (g : Graph) (n : Node) : Graph := { g with nodes := g.nodes.push n }

/-- The number of the next node. -/
def size (g : Graph) : Nat := g.nodes.size

def modify (g : Graph) (id : Nat) (f : Node → Node) : Graph :=
  { g with nodes := g.nodes.modify id f }

/-- The entries of a mapping; no other node has any. -/
def entries (g : Graph) (id : Nat) : List (Nat × Nat) :=
  match (g.node id).content with
  | .mapping entries => entries
  | _ => []

def setContent (g : Graph) (id : Nat) (content : Content) : Graph :=
  g.modify id fun n => { n with content }

/-- The first line of a node, counted from one. -/
def lineOf (g : Graph) (id : Nat) : Nat :=
  (g.node id).start.line + 1

/-- The node is a scalar for no value. -/
def isNull (g : Graph) (id : Nat) : Bool :=
  (g.node id).tag == .null && (g.node id).content.shape == .scalar

def scalarText? (g : Graph) (id : Nat) : Option String :=
  match (g.node id).content with
  | .scalar text => some text
  | _ => none

end Graph

/-- The nodes of a document, and which of them is at its root. -/
structure Document where
  nodes : Array Node
  root : Nat
  deriving DecidableEq, Repr

/-- The graph of a document of which nothing has been read yet. -/
def Document.graph (d : Document) : Graph := ⟨d.nodes, []⟩

end ContainerAudit.Yaml
