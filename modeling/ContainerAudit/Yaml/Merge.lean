import ContainerAudit.Yaml.Graph

/-!
# Merge keys

A mapping entry with the key `<<` stands for the entries of another mapping, or of several.
Flattening puts those in front of the mapping's own entries, so that its own count when entries are
read in order; of several merged mappings the earlier ones come later, and so count more.
-/

namespace ContainerAudit.Yaml

namespace Graph

def mergeError (g : Graph) (id : Nat) (problem : Shape → Problem) (found : Nat) : Error :=
  let node := g.node found
  .within .buildingMapping (g.node id).start (problem node.content.shape) node.start

def isMerge (g : Graph) (entry : Nat × Nat) : Bool :=
  (g.node entry.1).tag == .merge

/-- A key that stands for the plain value of its mapping becomes a text. -/
def settleKey (g : Graph) (entry : Nat × Nat) : Graph :=
  if (g.node entry.1).tag == .value then g.modify entry.1 ({ · with tag := .str }) else g

/-- Put the merged entries in front of those that a mapping has left. -/
def finishMerge (g : Graph) (id : Nat) (merged : List (Nat × Nat)) : Graph :=
  let g := (g.entries id).foldl settleKey g
  if merged.isEmpty then g else g.setContent id (.mapping (merged ++ g.entries id))

section Merge

-- how to flatten a mapping that is merged into another one
variable (flattened : Nat → Graph → Except Error Graph)

/-- The entries of the mappings that are merged into another one, those of the first one last. -/
def mergeParts (id : Nat) : List Nat → Graph → Except Error (List (Nat × Nat) × Graph)
  | [], g => .ok ([], g)
  | part :: rest, g =>
    match (g.node part).content with
    | .mapping _ => do
      let g ← flattened part g
      let (later, g') ← mergeParts id rest g
      return (later ++ g.entries part, g')
    | _ => .error (g.mergeError id .notMergeable part)

/-- The entries that a merge brings in: those of a mapping, or of all mappings of a list. -/
def mergeValue (id value : Nat) (g : Graph) : Except Error (List (Nat × Nat) × Graph) :=
  match (g.node value).content with
  | .mapping _ => mergeParts flattened id [value] g
  | .sequence parts => mergeParts flattened id parts g
  | .scalar _ => .error (g.mergeError id .notMergeableList value)

/-- Take the merges of a mapping away one after another, after the merged entries found before. -/
def mergeAll (id : Nat) : Nat → List (Nat × Nat) → Graph → Except Error Graph
  | 0, merged, g => .ok (g.finishMerge id merged)
  | count + 1, merged, g =>
    match (g.entries id).find? g.isMerge with
    | none => .ok (g.finishMerge id merged)
    | some (_, value) => do
      let g := g.setContent id (.mapping ((g.entries id).eraseP g.isMerge))
      let (more, g) ← mergeValue flattened id value g
      mergeAll id count (merged ++ more) g

end Merge

/-- Flatten a mapping, and the mappings merged into it, down to some depth. -/
def flattenWithin : Nat → Nat → Graph → Except Error Graph
  | 0, _, g => .ok g
  | depth + 1, id, g => mergeAll (flattenWithin depth) id (g.entries id).length [] g

/-- The number of nodes and entries. -/
def extent (g : Graph) : Nat :=
  g.nodes.foldl (fun n node => n + 1 + match node.content with
    | .mapping entries => entries.length
    | .sequence items => items.length
    | .scalar _ => 0) 0

/-- Flatten a mapping. A merge is taken away before what it merges is flattened, so the number of
entries bounds the depth. -/
def flatten (id : Nat) (g : Graph) : Except Error Graph :=
  flattenWithin (g.extent + 1) id g

end Graph

end ContainerAudit.Yaml
