import ContainerAudit.Compose.Service
import ContainerAudit.Yaml.Build

/-!
# Reading compose files

From the YAML graph of a compose file to its services. Only service names and the fields of
services are built into values, so nothing else in the file can fail once its structure is sound.
-/

namespace ContainerAudit.Compose

open ContainerAudit.Yaml (Graph Content)

/-- Why a compose file is refused. -/
inductive Error where
  | unacceptable (c : Char) (position : Nat)
  | faulty (fault : Yaml.Fault)
  | rootNotMapping (line : Nat)
  | servicesNotMapping (line : Nat)
  | serviceNotMapping (name : String) (line : Nat)
  deriving DecidableEq, Repr

def Error.reason : Error → String
  | .unacceptable c position =>
    "invalid YAML: " ++ Yaml.unacceptableText "<unicode string>" c position
  | .faulty fault => "invalid YAML: " ++ fault.problem.text
  | .rootNotMapping _ => "top-level document is not a mapping"
  | .servicesNotMapping _ => "'services' must be a mapping"
  | .serviceNotMapping name _ => "service '" ++ name ++ "' must be a mapping"

def Error.line? : Error → Option Nat
  | .unacceptable _ _ => none
  | .faulty fault => some (fault.mark.line + 1)
  | .rootNotMapping line => some line
  | .servicesNotMapping line => some line
  | .serviceNotMapping _ line => some line

/-- How reading fails: the file is refused, or a scalar does not fit its tag, or a value that must
be written has no text. -/
inductive Failure where
  | refused (error : Error)
  | mismatch (kind : Yaml.Mismatch)
  deriving DecidableEq, Repr

def Failure.ofYaml : Yaml.Error → Failure
  | .unacceptable c position => .refused (.unacceptable c position)
  | .faulty fault => .refused (.faulty fault)
  | .mismatch kind => .mismatch kind

/-- A step on a graph, with its YAML errors as failures of the file. -/
def lift {α : Type} (r : Except Yaml.Error α) : Except Failure α :=
  r.mapError .ofYaml

/-- A step that needs the text of a value. -/
def liftText {α : Type} (r : Except Value.TextError α) : Except Yaml.Error α :=
  r.mapError fun
    | .longNumber => .mismatch .longNumber

/-- The value under a text key at the top of a mapping. -/
def lookupNode (g : Graph) (id : Nat) (key : String) : Option Nat :=
  ((g.entries id).find? fun (k, _) => g.scalarText? k == some key).map (·.2)

/-- A node as the item of a set field: a scalar that is not null, with its line. -/
def readItem (g : Graph) (id : Nat) : Except Yaml.Error (Option (String × Nat)) := do
  if (g.scalarText? id).isNone || g.isNull id then return none
  let (v, _) ← g.value id
  return some (← liftText v.plain, g.lineOf id)

/-- The items of a set field: those of a list, or a single one. -/
def readItems (g : Graph) (node : Nat) : Except Yaml.Error (List (String × Nat)) :=
  match (g.node node).content with
  | .sequence items => (items.mapM (readItem g)).map (·.filterMap id)
  | .scalar _ => (readItem g node).map Option.toList
  | .mapping _ => .ok []

/-- The volumes of a service, in order; only a list has any. -/
def readMounts : List Nat → Graph → Except Yaml.Error (List Mount × Graph)
  | [], g => .ok ([], g)
  | item :: rest, g => do
    let (v, g) ← g.value item
    let mount ← liftText (Mount.ofValue v (g.lineOf item))
    let (mounts, g) ← readMounts rest g
    return (mount.toList ++ mounts, g)

/-- What the value of a field sets. -/
def readSetting (field : Field) (id : Nat) (g : Graph) : Except Yaml.Error (Setting × Graph) := do
  match field with
  | .switch f =>
    let (v, g) ← g.value id
    return (.switch f (← liftText (switchOf v)), g)
  | .word f =>
    let (v, g) ← g.value id
    return (.word f (← liftText (wordOf v)), g)
  | .set f => return (.set f (← readItems g id), g)
  | .volumes =>
    match (g.node id).content with
    | .sequence items =>
      let (mounts, g) ← readMounts items g
      return (.volumes mounts, g)
    | _ => return (.volumes [], g)
  | .other =>
    let (v, g) ← g.value id
    return (.other v, g)

def readEntries : List (Nat × Nat) → Graph → Except Yaml.Error (List Entry × Graph)
  | [], g => .ok ([], g)
  | (key, value) :: rest, g => do
    let (k, g) ← g.value key
    let name ← liftText k.plain
    let line := g.lineOf key
    let (setting, g) ← readSetting (Field.ofKey name) value g
    let (entries, g) ← readEntries rest g
    return (⟨name, line, setting⟩ :: entries, g)

/-- A service from the nodes of its name and its definition. -/
def readService (name : String) (key value : Nat) (g : Graph) : Except Failure (Service × Graph) :=
  if g.isNull value then .ok ({ name, line := g.lineOf key }, g)
  else
    match (g.node value).content with
    | .mapping _ => lift do
      let g ← g.flatten value
      let (entries, g) ← readEntries (g.entries value) g
      return (.ofEntries name (g.lineOf key) entries, g)
    | _ => .error (.refused (.serviceNotMapping name (g.lineOf value)))

/-- A merge among the services that is there no longer: a service that merges the services
themselves has had them flattened, in the midst of going through them. -/
def isTaken (g : Graph) (services : Nat) (entry : Nat × Nat) : Bool :=
  g.isMerge entry && !(g.entries services).contains entry

/-- The services of a mapping, after those found before. -/
def readServices (services : Nat) : List (Nat × Nat) → List Service → Graph →
    Except Failure (List Service)
  | [], found, _ => .ok found
  | (key, value) :: rest, found, g =>
    if isTaken g services (key, value) then readServices services rest found g
    else do
      let (k, g) ← lift (g.value key)
      let name ← lift (liftText k.plain)
      let (service, g) ← readService name key value g
      readServices services rest (putService service found) g

/-- The compose file that a YAML document describes. -/
def ofYaml (d : Yaml.Document) : Except Failure Document :=
  let g := d.graph
  match (g.node d.root).content with
  | .mapping _ =>
    match lookupNode g d.root "services" with
    | none => .ok ⟨[]⟩
    | some services =>
      if g.isNull services then .ok ⟨[]⟩
      else
        match (g.node services).content with
        | .mapping entries => (readServices services entries [] g).map Document.mk
        | _ => .error (.refused (.servicesNotMapping (g.lineOf services)))
  | _ => .error (.refused (.rootNotMapping (g.lineOf d.root)))

def parse (text : String) : Except Failure Document := do
  match ← lift (Yaml.Document.read (.ofText text.toList)) with
  | some d => ofYaml d
  | none => return ⟨[]⟩

end ContainerAudit.Compose
