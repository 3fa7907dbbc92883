import ContainerAudit.Calendar
import ContainerAudit.Decimal.Numeral
import ContainerAudit.Decimal.Shortest
import ContainerAudit.Entries
import ContainerAudit.Json.Basic
import ContainerAudit.Severity
import ContainerAudit.Text.LetterCase
import ContainerAudit.Text.Quoted

/-!
# Data values

The values that configuration and compose files hold, and their two texts: the plain one, which a
message or a setting uses, and the shown one, in which parts are quoted. A value has no text if a
whole number in it has more digits than a numeral may have.
-/

namespace ContainerAudit

/-- A data value. A map keeps the order in which its keys came first. No file holds a severity, but
a program can set one. -/
inductive Value where
  | null
  | bool (b : Bool)
  | int (n : Int)
  | float (x : Float)
  | text (s : String)
  | bytes (bs : List Nat)
  | date (d : Date)
  | moment (m : Moment)
  | severity (s : Severity)
  | list (items : List Value)
  | tuple (items : List Value)
  | set (items : List Value)
  | map (entries : List (Value × Value))
  deriving Inhabited

namespace Value

/-! ## Texts -/

/-- Why a value has no text. -/
inductive TextError where
  | longNumber
  deriving DecidableEq, Repr

def TextError.text : TextError → String
  | longNumber =>
    s!"Exceeds the limit ({Decimal.digitLimit} digits) for integer string conversion; " ++
      "use sys.set_int_max_str_digits() to increase the limit"

/-- A whole number in decimal, if a numeral may have that many digits. -/
def wholeText (n : Int) : Except TextError String :=
  if n.natAbs < Decimal.tooLong then .ok (toString n) else .error .longNumber

def byteChars (quote : Char) (b : Nat) : List Char :=
  let c := Char.ofNat b
  if c = quote ∨ c = '\\' then ['\\', c]
  else if c = '\n' then ['\\', 'n']
  else if c = '\r' then ['\\', 'r']
  else if c = '\t' then ['\\', 't']
  else if 0x20 ≤ b ∧ b < 0x7f then [c]
  else '\\' :: 'x' :: Text.hexDigits 2 b

def bytesText (bs : List Nat) : String :=
  let quote := Text.quoteFor (bs.map Char.ofNat)
  String.ofList ('b' :: quote :: bs.flatMap (byteChars quote) ++ [quote])

def dateShown (d : Date) : String :=
  s!"datetime.date({d.year}, {d.month}, {d.day})"

def offsetShown (o : Int) : String :=
  if o = 0 then "datetime.timezone.utc"
  else if o < 0 then
    let seconds := (1440 + o) * 60
    s!"datetime.timezone(datetime.timedelta(days=-1, seconds={seconds}))"
  else
    let seconds := o * 60
    s!"datetime.timezone(datetime.timedelta(seconds={seconds}))"

/-- A moment, shown: seconds and microseconds are left out from the end while they are zero. -/
def momentShown (m : Moment) : String :=
  let fine := if m.microsecond ≠ 0 then [m.second, m.microsecond]
    else if m.second ≠ 0 then [m.second] else []
  let fields := [m.date.year, m.date.month, m.date.day, m.hour, m.minute] ++ fine
  let clock := match m.offset with
    | some o => ", tzinfo=" ++ offsetShown o
    | none => ""
  "datetime.datetime(" ++ ", ".intercalate (fields.map toString) ++ clock ++ ")"

def severityShown (s : Severity) : String :=
  "<Severity." ++ s.name ++ ": '" ++ s.name ++ "'>"

mutual

/-- The value with its texts quoted. -/
def shown : Value → Except TextError String
  | null => .ok "None"
  | bool true => .ok "True"
  | bool false => .ok "False"
  | int n => wholeText n
  | float x => .ok (Decimal.text x)
  | text s => .ok (Text.quoted s)
  | bytes bs => .ok (bytesText bs)
  | date d => .ok (dateShown d)
  | moment m => .ok (momentShown m)
  | severity s => .ok (severityShown s)
  | list items => do return "[" ++ (← shownItems items) ++ "]"
  | tuple [item] => do return "(" ++ (← shown item) ++ ",)"
  | tuple items => do return "(" ++ (← shownItems items) ++ ")"
  | set [] => .ok "set()"
  | set (item :: rest) => do return "\x7b" ++ (← shownItems (item :: rest)) ++ "\x7d"
  | map entries => do return "\x7b" ++ (← shownEntries entries) ++ "\x7d"

def shownItems : List Value → Except TextError String
  | [] => .ok ""
  | [item] => shown item
  | item :: next :: rest => do
    return (← shown item) ++ ", " ++ (← shownItems (next :: rest))

def shownEntries : List (Value × Value) → Except TextError String
  | [] => .ok ""
  | [(key, value)] => do return (← shown key) ++ ": " ++ (← shown value)
  | (key, value) :: next :: rest => do
    return (← shown key) ++ ": " ++ (← shown value) ++ ", " ++ (← shownEntries (next :: rest))

end

/-- The value as plain text: texts, days, moments and severities stand unquoted. -/
def plain : Value → Except TextError String
  | text s => .ok s
  | date d => .ok d.text
  | moment m => .ok (m.text " ")
  | severity s => .ok ("Severity." ++ s.name)
  | v => shown v

/-- The characters of a value that is a text. A severity is one: its name. -/
def asText? : Value → Option String
  | text s => some s
  | severity s => some s.name
  | _ => none

/-! ## Keys -/

/-- The value counts as missing: null, false, zero, or without content. -/
def isMissing : Value → Bool
  | null => true
  | bool b => !b
  | int n => n == 0
  | float x => x == 0.0
  | text s => s.isEmpty
  | bytes bs => bs.isEmpty
  | list items => items.isEmpty
  | tuple items => items.isEmpty
  | set items => items.isEmpty
  | map entries => entries.isEmpty
  | _ => false

mutual

/-- The value can be the key of a map. -/
def isKey : Value → Bool
  | list _ => false
  | set _ => false
  | map _ => false
  | tuple items => areKeys items
  | _ => true

def areKeys : List Value → Bool
  | [] => true
  | item :: rest => isKey item && areKeys rest

end

/-- A value as an exact whole number, if it is one: truth values count as one and zero. -/
def wholeNumber? : Value → Option Int
  | bool b => some (if b then 1 else 0)
  | int n => some n
  | float x =>
    if x.isNaN || x.isInf then none
    else
      let bits := x.toBits.toNat
      let b := Decimal.Binary.ofBits (bits % Decimal.twoTo 63)
      let sign : Int := if Decimal.twoTo 63 ≤ bits then -1 else 1
      if 0 ≤ b.exponent then some (sign * Int.ofNat (b.mantissa * Decimal.twoTo b.exponent.toNat))
      else
        let unit := Decimal.twoTo b.exponent.natAbs
        if b.mantissa % unit = 0 then some (sign * Int.ofNat (b.mantissa / unit)) else none
  | _ => none

/-- Two values without parts are the same key. Numbers are compared by their value, so `1`, `1.0`
and true are one key. -/
def sameLeaf (a b : Value) : Bool :=
  match a.wholeNumber?, b.wholeNumber? with
  | some m, some n => m == n
  | none, none =>
    match a, b with
    | null, null => true
    | float x, float y => x == y || (x.isNaN && y.isNaN)
    | bytes s, bytes t => s == t
    | date d, date e => d == e
    | moment m, moment n => m.same n
    | a, b => a.asText?.isSome && a.asText? == b.asText?
  | _, _ => false

mutual

/-- Two keys are the same key. -/
def sameKey : Value → Value → Bool
  | tuple items, tuple others => sameKeys items others
  | a, b => sameLeaf a b

def sameKeys : List Value → List Value → Bool
  | [], [] => true
  | a :: as, b :: bs => sameKey a b && sameKeys as bs
  | _, _ => false

end

def putEntry (key value : Value) : List (Value × Value) → List (Value × Value) :=
  putBy sameKey key value

def getText? (name : String) : Value → Option Value
  | map entries => (entries.find? fun (k, _) => k.asText? == some name).map (·.2)
  | _ => none

/-! ## JSON -/

mutual

def ofJson : Json → Value
  | .null => null
  | .bool b => bool b
  | .int n => int n
  | .float x => float x
  | .str s => text s
  | .arr items => list (ofJsonItems items)
  | .obj members => map (ofJsonMembers members)

def ofJsonItems : List Json → List Value
  | [] => []
  | item :: rest => ofJson item :: ofJsonItems rest

def ofJsonMembers : List (String × Json) → List (Value × Value)
  | [] => []
  | (name, value) :: rest => (text name, ofJson value) :: ofJsonMembers rest

end

end Value

namespace Severity

/-- The severity that a value is or names, whatever its case and the blanks around it. -/
def ofValue? : Value → Option Severity
  | .severity s => some s
  | v =>
    match v.plain with
    | .ok text => ofName? (Text.mapChars (fun s => Text.upper (Text.trim s)) text)
    | .error _ => none

/-- The message for a value that names no severity. -/
def unknownText (v : Value) : String :=
  match v.shown with
  | .ok text =>
    "Unknown severity " ++ text ++ " (expected one of: " ++ ", ".intercalate (all.map name) ++ ")"
  | .error e => e.text

end Severity

end ContainerAudit
