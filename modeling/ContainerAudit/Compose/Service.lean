import ContainerAudit.Text.Blank
import ContainerAudit.Text.LetterCase
import ContainerAudit.Text.Search
import ContainerAudit.Value

/-!
# Compose services

A service as the audit sees it: the fields it interprets, where each is set, and the rest of the
definition. A service is put together from its entries in order; of entries with one key the last
one counts.
-/

namespace ContainerAudit.Compose

structure Mount where
  source : String
  target : String
  readOnly : Bool
  line : Nat
  raw : String
  deriving DecidableEq, Repr

/-- The fields that are switched on or off. -/
inductive SwitchField where
  | privileged
  | readOnly
  deriving DecidableEq, Repr

/-- The fields that hold one word. -/
inductive WordField where
  | networkMode
  | pid
  | ipc
  deriving DecidableEq, Repr

/-- The fields that hold a set of words. -/
inductive SetField where
  | capAdd
  | capDrop
  | securityOpt
  deriving DecidableEq, Repr

def SwitchField.key : SwitchField → String
  | .privileged => "privileged"
  | .readOnly => "read_only"

def WordField.key : WordField → String
  | .networkMode => "network_mode"
  | .pid => "pid"
  | .ipc => "ipc"

def SetField.key : SetField → String
  | .capAdd => "cap_add"
  | .capDrop => "cap_drop"
  | .securityOpt => "security_opt"

/-- What a key of a service means to the audit. -/
inductive Field where
  | switch (field : SwitchField)
  | word (field : WordField)
  | set (field : SetField)
  | volumes
  | other
  deriving DecidableEq, Repr

def Field.ofKey (key : String) : Field :=
  match key with
  | "privileged" => .switch .privileged
  | "read_only" => .switch .readOnly
  | "network_mode" => .word .networkMode
  | "pid" => .word .pid
  | "ipc" => .word .ipc
  | "cap_add" => .set .capAdd
  | "cap_drop" => .set .capDrop
  | "security_opt" => .set .securityOpt
  | "volumes" => .volumes
  | _ => .other

/-- What an entry of a service sets. An item of a set comes with its line. -/
inductive Setting where
  | switch (field : SwitchField) (value : Option Bool)
  | word (field : WordField) (value : Option String)
  | set (field : SetField) (items : List (String × Nat))
  | volumes (mounts : List Mount)
  | other (value : Value)

/-- An entry of a service: its key, the line of the key, and what it sets. -/
structure Entry where
  key : String
  line : Nat
  setting : Setting

/-- A service. Sets are kept in order and without repetition. -/
structure Service where
  name : String
  line : Nat
  privileged : Option Bool := none
  readOnly : Option Bool := none
  networkMode : Option String := none
  pid : Option String := none
  ipc : Option String := none
  capAdd : List String := []
  capDrop : List String := []
  securityOpt : List String := []
  volumes : List Mount := []
  /-- The lines of the keys, and of the items of set fields under `key:item`. -/
  lines : List (String × Nat) := []
  /-- The values of the keys that the audit does not interpret. -/
  extras : List (String × Value) := []

namespace Service

/-- The name under which the line of an item of a set field is kept. -/
def itemKey (key item : String) : String :=
  key ++ ":" ++ item

/-- Note the line of a name. -/
def setLine (s : Service) (name : String) (line : Nat) : Service :=
  { s with lines := put name line s.lines }

def setItems (s : Service) (field : SetField) (items : List String) : Service :=
  match field with
  | .capAdd => { s with capAdd := sortedSet items }
  | .capDrop => { s with capDrop := sortedSet items }
  | .securityOpt => { s with securityOpt := sortedSet items }

def apply (s : Service) (e : Entry) : Service :=
  let s := s.setLine e.key e.line
  match e.setting with
  | .switch .privileged value => { s with privileged := value }
  | .switch .readOnly value => { s with readOnly := value }
  | .word .networkMode value => { s with networkMode := value }
  | .word .pid value => { s with pid := value }
  | .word .ipc value => { s with ipc := value }
  | .set field items =>
    let s := items.foldl (fun s (item, line) => s.setLine (itemKey e.key item) line) s
    s.setItems field (items.map (·.1))
  | .volumes mounts => { s with volumes := mounts }
  | .other value => { s with extras := put e.key value s.extras }

def ofEntries (name : String) (line : Nat) (entries : List Entry) : Service :=
  entries.foldl apply { name, line }

/-- The line of a key, or of the service if the key is not there. -/
def lineOf (s : Service) (key : String) : Nat :=
  (s.lines.lookup key).getD s.line

/-- The line of an item of a set field, or of the field if the item is not there. -/
def lineOfItem (s : Service) (key item : String) : Nat :=
  (s.lines.lookup (itemKey key item)).getD (s.lineOf key)

end Service

/-! ## Values of fields -/

/-- The state of a switch. Words for on and off count whatever their case; anything else leaves the
switch open. -/
def switchOf : Value → Except Value.TextError (Option Bool)
  | .null => .ok none
  | .bool b => .ok (some b)
  | v => do
    match Text.mapChars (fun s => Text.lower (Text.trim s)) (← v.plain) with
    | "true" | "yes" | "on" | "1" => return some true
    | "false" | "no" | "off" | "0" => return some false
    | _ => return none

def wordOf : Value → Except Value.TextError (Option String)
  | .null => .ok none
  | v => v.plain.map some

/-- A volume in short form: `target`, `source:target`, or `source:target:options` and anything
after that. -/
def Mount.ofShort (text : String) (line : Nat) : Mount :=
  match Text.splitAt ':' text.toList with
  | source :: target :: mode :: _ =>
    let readOnly := (Text.splitAt ',' mode).contains ['r', 'o']
    ⟨String.ofList source, String.ofList target, readOnly, line, text⟩
  | [source, target] => ⟨String.ofList source, String.ofList target, false, line, text⟩
  | parts => ⟨"", String.ofList (parts.headD []), false, line, text⟩

/-- The text of a value, empty if it counts as missing. -/
def presentText : Option Value → Except Value.TextError String
  | some v => if v.isMissing then .ok "" else v.plain
  | none => .ok ""

/-- A volume in long form, with a key for each of its parts. -/
def Mount.ofLong (v : Value) (line : Nat) : Except Value.TextError Mount := do
  let source ← presentText (v.getText? "source")
  let target ← presentText (v.getText? "target")
  let readOnly ← switchOf ((v.getText? "read_only").getD .null)
  let raw := if source.isEmpty then target else source ++ ":" ++ target
  return ⟨source, target, readOnly == some true, line, raw⟩

/-- A volume, if the value is one. -/
def Mount.ofValue (v : Value) (line : Nat) : Except Value.TextError (Option Mount) :=
  match v with
  | .text s => .ok (some (ofShort s line))
  | .severity s => .ok (some (ofShort s.name line))
  | .map _ => (ofLong v line).map some
  | _ => .ok none

/-- A compose file: its services in the order of their first mention. -/
structure Document where
  services : List Service

/-- Put a service into a list: a name that is there keeps its place. -/
def putService (s : Service) : List Service → List Service
  | [] => [s]
  | t :: rest => if t.name = s.name then s :: rest else t :: putService s rest

def Document.sorted (d : Document) : List Service :=
  d.services.mergeSort fun s t => decide (s.name ≤ t.name)

end ContainerAudit.Compose
