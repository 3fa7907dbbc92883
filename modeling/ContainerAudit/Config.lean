import ContainerAudit.Entries
import ContainerAudit.Rule.Patterns

/-!
# Configurations

What can be set for a run: rules that are not run, the severity that makes a run fail, the number
of recommended actions, and the pattern tables. A configuration is read from a map; anything in it
that is not understood is an error.
-/

namespace ContainerAudit

structure Config where
  /-- The ids of the rules that are not run, in order and each once. -/
  suppressed : List String := []
  /-- The least severity that makes a run fail. -/
  failOn : Severity := .high
  /-- The greatest number of recommended actions. -/
  recommendations : Int := 5
  /-- The number of workers. It changes nothing in a report. -/
  workers : Int := 4
  patterns : Patterns := .standard

namespace Config

inductive Key where
  | suppressed
  | failOn
  | recommendations
  | workers
  | patterns
  deriving DecidableEq, Repr

def Key.name : Key → String
  | suppressed => "suppress_rules"
  | failOn => "fail_on_severity"
  | recommendations => "max_recommendations"
  | workers => "workers"
  | patterns => "patterns"

def Key.all : List Key := [suppressed, failOn, recommendations, workers, patterns]

def Key.ofName? (name : String) : Option Key :=
  all.find? (·.name == name)

/-- Why a value is not a configuration. -/
inductive Error where
  | notAMap
  | unknownKeys (names : List String)
  /-- There are unknown keys, and not all of them are texts. -/
  | unnamedKey
  | suppressedNotAList
  /-- An id to suppress has no text. -/
  | unwrittenId (e : Value.TextError)
  | unknownSeverity (v : Value)
  | notPositive (key : Key)
  | patternsNotAMap
  | badPatterns (e : Patterns.Error)

/-- The message for an error in a source. There is none for unknown keys that are not texts, and
where a value has no text that the configuration or the message needs. -/
def Error.text? (source : String) : Error → Option String
  | notAMap => some ("Config file must contain a mapping: " ++ source)
  | unknownKeys names =>
    some (source ++ ": unknown config key(s): " ++ ", ".intercalate names)
  | unnamedKey => none
  | suppressedNotAList => some (source ++ ": suppress_rules must be a list of rule ids")
  | unwrittenId _ => none
  | unknownSeverity v => some (source ++ ": " ++ Severity.unknownText v)
  | notPositive key => some (source ++ ": " ++ key.name ++ " must be a positive integer")
  | patternsNotAMap => some (source ++ ": patterns must be a mapping")
  | badPatterns (.unknownTable name) =>
    name.shown.toOption.map fun text => source ++ ": unknown pattern table " ++ text
  | badPatterns (.notAList table) => some (source ++ ": " ++ Patterns.notAListText table)
  | badPatterns (.unwritten _) => none

/-- A key of a map is the name of a setting. -/
def isKnown (key : Value) : Bool :=
  (key.asText?.bind Key.ofName?).isSome

def checkKeys (entries : List (Value × Value)) : Except Error Unit :=
  let unknown := (entries.map (·.1)).filter fun key => !isKnown key
  if unknown.isEmpty then .ok ()
  else if unknown.all fun key => key.asText?.isSome then
    .error (.unknownKeys (sortedSet (unknown.filterMap Value.asText?)))
  else .error .unnamedKey

/-- The id of a rule as it is compared: without blanks around it, in capitals. -/
def ruleId (id : String) : String :=
  Text.mapChars (fun s => Text.upper (Text.trim s)) id

/-- The ids to suppress; a missing value stands for none. -/
def readSuppressed (v : Value) : Except Error (List String) :=
  if v.isMissing then .ok []
  else
    match v with
    | .list items =>
      match items.mapM Value.plain with
      | .ok ids => .ok (sortedSet (ids.map ruleId))
      | .error e => .error (.unwrittenId e)
    | _ => .error .suppressedNotAList

def readSeverity (v : Value) : Except Error Severity :=
  match Severity.ofValue? v with
  | some severity => .ok severity
  | none => .error (.unknownSeverity v)

def readPositive (key : Key) : Value → Except Error Int
  | .int n => if 1 ≤ n then .ok n else .error (.notPositive key)
  | _ => .error (.notPositive key)

/-- The pattern tables; a missing value replaces none. -/
def readPatterns (v : Value) : Except Error Patterns :=
  if v.isMissing then .ok .standard
  else
    match v with
    | .map entries => (Patterns.standard.merge entries).mapError .badPatterns
    | _ => .error .patternsNotAMap

/-- A setting read from the entry under its key, or left as it is where there is none. -/
def setting {α : Type} (v : Value) (key : Key) (standard : α) (read : Value → Except Error α) :
    Except Error α :=
  match v.getText? key.name with
  | some entry => read entry
  | none => .ok standard

def ofValue (v : Value) : Except Error Config :=
  match v with
  | .map entries => do
    checkKeys entries
    let suppressed ← setting v .suppressed [] readSuppressed
    let failOn ← setting v .failOn .high readSeverity
    let recommendations ← setting v .recommendations 5 (readPositive .recommendations)
    let workers ← setting v .workers 4 (readPositive .workers)
    let patterns ← setting v .patterns .standard readPatterns
    return { suppressed, failOn, recommendations, workers, patterns }
  | _ => .error .notAMap

def suppress (c : Config) (ids : List String) : Config :=
  { c with suppressed := sortedSet (c.suppressed ++ ids.map ruleId) }

end Config

end ContainerAudit
