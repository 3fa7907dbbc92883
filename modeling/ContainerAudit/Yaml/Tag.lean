import ContainerAudit.Text.Search

/-!
# YAML tags

The kinds of nodes, and the kind that the text of a plain scalar gives it.
-/

namespace ContainerAudit.Yaml

open ContainerAudit.Text (cutFirst splitAt)

/-- The kind of a node. -/
inductive Tag where
  | null
  | bool
  | int
  | float
  | str
  | binary
  | timestamp
  | seq
  | map
  | set
  | orderedMap
  | pairs
  | merge
  | value
  | other (name : String)
  deriving DecidableEq, Repr

/-- What the names of YAML's own tags start with. -/
def Tag.family : String := "tag:yaml.org,2002:"

def Tag.name : Tag → String
  | .null => family ++ "null"
  | .bool => family ++ "bool"
  | .int => family ++ "int"
  | .float => family ++ "float"
  | .str => family ++ "str"
  | .binary => family ++ "binary"
  | .timestamp => family ++ "timestamp"
  | .seq => family ++ "seq"
  | .map => family ++ "map"
  | .set => family ++ "set"
  | .orderedMap => family ++ "omap"
  | .pairs => family ++ "pairs"
  | .merge => family ++ "merge"
  | .value => family ++ "value"
  | .other name => name

/-- The tags with a name of their own. -/
def Tag.named : List Tag :=
  [.null, .bool, .int, .float, .str, .binary, .timestamp, .seq, .map, .set, .orderedMap, .pairs,
    .merge, .value]

def Tag.ofName (name : String) : Tag :=
  (Tag.named.find? (·.name == name)).getD (.other name)

/-! ## The forms of plain scalars -/

/-- A sign in front is allowed. -/
def dropSign : List Char → List Char
  | '-' :: rest => rest
  | '+' :: rest => rest
  | s => s

/-- A digit or a low line. -/
def isSpacedDigit (c : Char) : Bool :=
  c.isDigit || c = '_'

/-- One or more characters that satisfy `p`. -/
def someAll (p : Char → Bool) (s : List Char) : Bool :=
  !s.isEmpty && s.all p

/-- A digit, then digits and low lines. -/
def isSpacedNumber : List Char → Bool
  | c :: rest => c.isDigit && rest.all isSpacedDigit
  | [] => false

/-- A digit that is not zero, then digits and low lines. -/
def isPositiveNumber : List Char → Bool
  | c :: rest => c.isDigit && c ≠ '0' && rest.all isSpacedDigit
  | [] => false

/-- A number below sixty in at most two digits. -/
def isSixtieth : List Char → Bool
  | [c] => c.isDigit
  | [t, c] => '0' ≤ t && t ≤ '5' && c.isDigit
  | _ => false

/-- Parts between colons: a first that satisfies `p`, and at least one below sixty. -/
def isBaseSixty (p : List Char → Bool) (s : List Char) : Bool :=
  match splitAt ':' s with
  | first :: next :: rest => p first && (next :: rest).all isSixtieth
  | _ => false

/-- Nothing, or an exponent with its sign. -/
def isExponent : List Char → Bool
  | [] => true
  | e :: sign :: digits => (e = 'e' || e = 'E') && (sign = '-' || sign = '+') &&
      someAll Char.isDigit digits
  | _ => false

/-- Digits and low lines, then an exponent. -/
def isFraction (s : List Char) : Bool :=
  isExponent (s.dropWhile isSpacedDigit)

def boolWords : List String :=
  ["yes", "Yes", "YES", "no", "No", "NO", "true", "True", "TRUE", "false", "False", "FALSE",
    "on", "On", "ON", "off", "Off", "OFF"]

def isFloat (s : List Char) : Bool :=
  let unsigned := dropSign s
  let pointed := match cutFirst '.' unsigned with
    | some (whole, fraction) =>
      (isSpacedNumber whole && isFraction fraction) ||
        (isBaseSixty isSpacedNumber whole && fraction.all isSpacedDigit)
    | none => false
  let pure := match s with
    | '.' :: c :: rest => c.isDigit && isFraction rest
    | _ => false
  pointed || pure || [".inf", ".Inf", ".INF"].contains (String.ofList unsigned) ||
    [".nan", ".NaN", ".NAN"].contains (String.ofList s)

def isInt (s : List Char) : Bool :=
  let s := dropSign s
  (match s with
    | '0' :: 'b' :: rest => someAll (fun c => c = '0' || c = '1' || c = '_') rest
    | '0' :: 'x' :: rest => someAll (fun c => c.isDigit || ('a' ≤ c && c ≤ 'f') ||
        ('A' ≤ c && c ≤ 'F') || c = '_') rest
    | '0' :: rest => rest.all fun c => ('0' ≤ c && c ≤ '7') || c = '_'
    | _ => false) ||
    isPositiveNumber s || isBaseSixty isPositiveNumber s

/-- The number of digits at the front, counted up to `most`, and the text after those. -/
def digitsUpTo : Nat → List Char → Nat × List Char
  | most + 1, c :: rest =>
    if c.isDigit then
      let (n, after) := digitsUpTo most rest
      (n + 1, after)
    else (0, c :: rest)
  | _, s => (0, s)

/-- From `least` to `most` digits, then `rest`. -/
def thenDigits (least most : Nat) (rest : List Char → Bool) (s : List Char) : Bool :=
  let (n, after) := digitsUpTo most s
  least ≤ n && rest after

/-- The character, then `rest`. -/
def thenChar (c : Char) (rest : List Char → Bool) : List Char → Bool
  | d :: s => c = d && rest s
  | [] => false

/-- An offset from universal time, or nothing. -/
def isOffset (s : List Char) : Bool :=
  match s.dropWhile fun c => c = ' ' || c = '\t' with
  | [] => s.isEmpty
  | ['Z'] => true
  | c :: rest => (c = '-' || c = '+') &&
      thenDigits 1 2 (fun s => s.isEmpty || thenChar ':' (thenDigits 2 2 List.isEmpty) s) rest

/-- A time of day with an optional fraction and offset. -/
def isClock (s : List Char) : Bool :=
  thenDigits 1 2 (thenChar ':' (thenDigits 2 2 (thenChar ':' (thenDigits 2 2 fun s =>
    match s with
    | '.' :: rest => isOffset (rest.dropWhile Char.isDigit)
    | _ => isOffset s)))) s

/-- The letter or the blanks between day and time, then a time of day. -/
def isDayTime : List Char → Bool
  | c :: rest =>
    if c = 'T' || c = 't' then isClock rest
    else (c = ' ' || c = '\t') && isClock (rest.dropWhile fun c => c = ' ' || c = '\t')
  | [] => false

def isTimestamp (s : List Char) : Bool :=
  thenDigits 4 4 (thenChar '-' (thenDigits 2 2 (thenChar '-' (thenDigits 2 2 List.isEmpty)))) s ||
    thenDigits 4 4 (thenChar '-' (thenDigits 1 2 (thenChar '-' (thenDigits 1 2 isDayTime)))) s

def nullWords : List String :=
  ["~", "null", "Null", "NULL", ""]

/-- The kind of a text, if its form is that of a kind. -/
def form? (s : List Char) : Option Tag :=
  let word := String.ofList s
  if boolWords.contains word then some .bool
  else if isFloat s then some .float
  else if isInt s then some .int
  else if word = "<<" then some .merge
  else if nullWords.contains word then some .null
  else if isTimestamp s then some .timestamp
  else if word = "=" then some .value
  else if ["!", "&", "*"].contains word then some (.other (Tag.family ++ "yaml"))
  else none

/-- The text without one line feed at its end. -/
def dropLineFeed (s : List Char) : List Char :=
  if s.getLast? = some '\n' then s.dropLast else s

/-- The kind of a plain scalar. A line feed at the end of the text does not count, except for a text
of nothing else. -/
def plainTag (s : List Char) : Tag :=
  if s = ['\n'] then .str else (form? (dropLineFeed s)).getD .str

end ContainerAudit.Yaml
