import ContainerAudit.Decimal.Shortest
import ContainerAudit.Json.Basic
import ContainerAudit.Text.Quoted

/-!
# Writing JSON

Two layouts: on one line, and over several lines with two more spaces of indentation at each level.
Both are pure ASCII: any other character is written as one or two `\u` escapes.
-/

namespace ContainerAudit.Json

open ContainerAudit.Text (hexDigits)

/-- A `\u` escape of one UTF-16 unit. -/
def unitEscape (n : Nat) : List Char :=
  '\\' :: 'u' :: hexDigits 4 n

/-- One character inside a JSON string. -/
def escapeChar (c : Char) : List Char :=
  if c = '"' ∨ c = '\\' then ['\\', c]
  else if c = '\n' then ['\\', 'n']
  else if c = '\r' then ['\\', 'r']
  else if c = '\t' then ['\\', 't']
  else if c = '\x08' then ['\\', 'b']
  else if c = '\x0c' then ['\\', 'f']
  else if 0x20 ≤ c.toNat ∧ c.toNat < 0x7f then [c]
  else if c.toNat < 0x10000 then unitEscape c.toNat
  else
    let n := c.toNat - 0x10000
    unitEscape (0xd800 + n / 0x400) ++ unitEscape (0xdc00 + n % 0x400)

def stringChars (s : String) : List Char :=
  '"' :: s.toList.flatMap escapeChar ++ ['"']

def floatText (x : Float) : String :=
  if x.isNaN then "NaN"
  else if x.isInf then (if x < 0.0 then "-Infinity" else "Infinity")
  else Decimal.text x

/-- The text of a value without parts. -/
def leafChars : Json → List Char
  | bool true => "true".toList
  | bool false => "false".toList
  | int n => (toString n).toList
  | float x => (floatText x).toList
  | str s => stringChars s
  | _ => "null".toList

mutual

/-- A value on one line. -/
def lineChars : Json → List Char
  | arr items => '[' :: lineItems items ++ [']']
  | obj members => '\x7b' :: lineMembers members ++ ['\x7d']
  | leaf => leafChars leaf

/-- Items on one line, with a comma and a space between neighbours. -/
def lineItems : List Json → List Char
  | [] => []
  | [item] => lineChars item
  | item :: next :: rest => lineChars item ++ ',' :: ' ' :: lineItems (next :: rest)

/-- Members on one line, with a comma and a space between neighbours. -/
def lineMembers : List (String × Json) → List Char
  | [] => []
  | [(name, value)] => stringChars name ++ ':' :: ' ' :: lineChars value
  | (name, value) :: next :: rest =>
    stringChars name ++ ':' :: ' ' :: lineChars value ++ ',' :: ' ' :: lineMembers (next :: rest)

end

/-- A line end and the indentation of a level. -/
def freshLine (level : Nat) : List Char :=
  '\n' :: List.replicate (2 * level) ' '

mutual

/-- A value over several lines, inside a level of indentation. -/
def pageChars (level : Nat) : Json → List Char
  | arr [] => ['[', ']']
  | arr (item :: rest) =>
    '[' :: freshLine (level + 1) ++ pageItems (level + 1) (item :: rest) ++ freshLine level ++ [']']
  | obj [] => ['\x7b', '\x7d']
  | obj (member :: rest) =>
    '\x7b' :: freshLine (level + 1) ++ pageMembers (level + 1) (member :: rest) ++
      freshLine level ++ ['\x7d']
  | leaf => leafChars leaf

def pageItems (level : Nat) : List Json → List Char
  | [] => []
  | [item] => pageChars level item
  | item :: next :: rest =>
    pageChars level item ++ ',' :: freshLine level ++ pageItems level (next :: rest)

def pageMembers (level : Nat) : List (String × Json) → List Char
  | [] => []
  | [(name, value)] => stringChars name ++ ':' :: ' ' :: pageChars level value
  | (name, value) :: next :: rest =>
    stringChars name ++ ':' :: ' ' :: pageChars level value ++ ',' :: freshLine level ++
      pageMembers level (next :: rest)

end

def line (j : Json) : String :=
  String.ofList (lineChars j)

def page (j : Json) : String :=
  String.ofList (pageChars 0 j)

end ContainerAudit.Json
