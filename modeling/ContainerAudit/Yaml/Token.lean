import ContainerAudit.Yaml.Mark

/-!
# YAML tokens

The smallest units of a YAML text. Block collections are delimited by tokens too, which stand for
changes of indentation.
-/

namespace ContainerAudit.Yaml

/-- An instruction at the head of a document. -/
inductive Directive where
  | version (major : Nat)
  | tagHandle (handle handlePrefix : String)
  | other
  deriving DecidableEq, Repr

/-- What a token is. -/
inductive Lexeme where
  | streamEnd
  | directive (d : Directive)
  | documentStart
  | documentEnd
  | blockSequenceStart
  | blockMappingStart
  | blockEnd
  | flowSequenceStart
  | flowSequenceEnd
  | flowMappingStart
  | flowMappingEnd
  | key
  | value
  | blockEntry
  | flowEntry
  | alias (name : String)
  | anchor (name : String)
  /-- A tag without a handle is complete as it is. -/
  | tag (handle : Option String) (suffix : String)
  /-- Only a plain scalar can be anything but text. -/
  | scalar (text : String) (plain : Bool)
  deriving DecidableEq, Repr

def Lexeme.id : Lexeme → String
  | .streamEnd => "<stream end>"
  | .directive _ => "<directive>"
  | .documentStart => "<document start>"
  | .documentEnd => "<document end>"
  | .blockSequenceStart => "<block sequence start>"
  | .blockMappingStart => "<block mapping start>"
  | .blockEnd => "<block end>"
  | .flowSequenceStart => "["
  | .flowSequenceEnd => "]"
  | .flowMappingStart => "\x7b"
  | .flowMappingEnd => "\x7d"
  | .key => "?"
  | .value => ":"
  | .blockEntry => "-"
  | .flowEntry => ","
  | .alias _ => "<alias>"
  | .anchor _ => "<anchor>"
  | .tag _ _ => "<tag>"
  | .scalar _ _ => "<scalar>"

/-- A token and the places where it starts and ends. -/
structure Token where
  lexeme : Lexeme
  start : Mark
  stop : Mark
  deriving DecidableEq, Repr

end ContainerAudit.Yaml
