import ContainerAudit.Decimal.Numeral
import ContainerAudit.Entries
import ContainerAudit.Json.Basic

/-!
# Reading JSON

The grammar of JSON with three more numbers, `NaN`, `Infinity` and `-Infinity`. Of members with one
name the last value counts, in the place of the first.
-/

namespace ContainerAudit.Json

open ContainerAudit.Decimal

/-- JSON's own blanks. -/
def isJsonBlank (c : Char) : Bool :=
  c = ' ' || c = '\t' || c = '\n' || c = '\r'

def skipBlanks (s : List Char) : List Char :=
  s.dropWhile isJsonBlank

/-- The value of an ASCII hexadecimal digit. -/
def hexValue? (c : Char) : Option Nat :=
  if c.isDigit then some (c.toNat - 48)
  else if 'a' ≤ c && c ≤ 'f' then some (c.toNat - 87)
  else if 'A' ≤ c && c ≤ 'F' then some (c.toNat - 55)
  else none

/-- The number that four hexadecimal digits spell. -/
def unit? (a b c d : Char) : Option Nat := do
  let w ← hexValue? a
  let x ← hexValue? b
  let y ← hexValue? c
  let z ← hexValue? d
  return ((w * 16 + x) * 16 + y) * 16 + z

/-- The first of the two UTF-16 units of a character. -/
def isHighUnit (n : Nat) : Bool :=
  0xd800 ≤ n && n ≤ 0xdbff

/-- The second of the two UTF-16 units of a character. -/
def isLowUnit (n : Nat) : Bool :=
  0xdc00 ≤ n && n ≤ 0xdfff

/-- The character of a UTF-16 unit that stands alone; half a character is replaced. -/
def unitChar (n : Nat) : Char :=
  if isHighUnit n || isLowUnit n then Char.ofNat 0xfffd else Char.ofNat n

/-- The character that a letter after a backslash stands for. -/
def shortEscape? (c : Char) : Option Char :=
  match c with
  | '"' => some '"'
  | '\\' => some '\\'
  | '/' => some '/'
  | 'b' => some '\x08'
  | 'f' => some '\x0c'
  | 'n' => some '\n'
  | 'r' => some '\r'
  | 't' => some '\t'
  | _ => none

/-- Put a character in front of what is read after it. -/
def prepend (c : Char) : Option (List Char × List Char) → Option (List Char × List Char)
  | some (s, rest) => some (c :: s, rest)
  | none => none

/-- The rest of a string after its opening quote, and the text after its closing one. -/
def stringRest : List Char → Option (List Char × List Char)
  | '"' :: rest => some ([], rest)
  | '\\' :: 'u' :: a :: b :: c :: d :: '\\' :: 'u' :: e :: f :: g :: h :: rest =>
    match unit? a b c d, unit? e f g h with
    | some n, some m =>
      if isHighUnit n && isLowUnit m then
        prepend (Char.ofNat (0x10000 + (n - 0xd800) * 0x400 + (m - 0xdc00))) (stringRest rest)
      else prepend (unitChar n) (stringRest ('\\' :: 'u' :: e :: f :: g :: h :: rest))
    | _, _ => none
  | '\\' :: 'u' :: a :: b :: c :: d :: rest =>
    match unit? a b c d with
    | some n => prepend (unitChar n) (stringRest rest)
    | none => none
  | '\\' :: c :: rest =>
    match shortEscape? c with
    | some e => prepend e (stringRest rest)
    | none => none
  | c :: rest => if c = '\\' ∨ c.toNat < 0x20 then none else prepend c (stringRest rest)
  | [] => none

/-- The ASCII digits at the front and the text after them. -/
def digitsRest (s : List Char) : List Char × List Char :=
  (s.takeWhile Char.isDigit, s.dropWhile Char.isDigit)

/-- The digits of a whole part: a zero alone, or digits that do not start with zero. -/
def wholePart : List Char → Option (List Char × List Char)
  | '0' :: rest => some (['0'], rest)
  | s => let (digits, rest) := digitsRest s
    if digits.isEmpty then none else some (digits, rest)

/-- The digits after a point, if a point with digits after it comes next. -/
def fractionPart : List Char → List Char × List Char
  | '.' :: rest =>
    let (digits, after) := digitsRest rest
    if digits.isEmpty then ([], '.' :: rest) else (digits, after)
  | s => ([], s)

def exponentPart (s : List Char) : Option Int × List Char :=
  match s with
  | [] => (none, s)
  | c :: rest =>
    if c = 'e' ∨ c = 'E' then
      let (negative, unsigned) := takeSign rest
      let (digits, after) := digitsRest unsigned
      match natFrom 10 0 digits with
      | some n =>
        if digits.isEmpty then (none, s) else (some (if negative then -(n : Int) else n), after)
      | none => (none, s)
    else (none, s)

def unsignedNumber (negative : Bool) (s : List Char) : Option (Json × List Char) := do
  let (whole, rest) ← wholePart s
  let (fraction, rest) := fractionPart rest
  let (exponent, rest) := exponentPart rest
  if fraction.isEmpty && exponent.isNone then
    let n ← natFrom 10 0 whole
    return (int (if negative then -(n : Int) else n), rest)
  else
    let n ← natFrom 10 0 (whole ++ fraction)
    let x := nearest n (exponent.getD 0 - fraction.length)
    return (float (if negative then -x else x), rest)

/-- A value that has no parts and is no string. -/
def leafValue (s : List Char) : Option (Json × List Char) :=
  let word := s.takeWhile Char.isAlpha
  let rest := s.drop word.length
  match String.ofList word with
  | "null" => some (null, rest)
  | "true" => some (bool true, rest)
  | "false" => some (bool false, rest)
  | "NaN" => some (float (0.0 / 0.0), rest)
  | "Infinity" => some (float (1.0 / 0.0), rest)
  | _ =>
    match s with
    | '-' :: after =>
      if "Infinity".toList.isPrefixOf after then some (float (-1.0 / 0.0), after.drop 8)
      else unsignedNumber true after
    | _ => unsignedNumber false s

mutual

/-- The value at the front of a text, and the text after it. Each call takes a character or passes
to a part of the value, so twice the text's length is fuel enough. -/
def value : Nat → List Char → Option (Json × List Char)
  | 0, _ => none
  | _ + 1, '"' :: rest => (stringRest rest).map fun (s, after) => (str (String.ofList s), after)
  | fuel + 1, '[' :: rest =>
    match skipBlanks rest with
    | ']' :: after => some (arr [], after)
    | first => (items fuel first).map fun (values, after) => (arr values, after)
  | fuel + 1, '\x7b' :: rest =>
    match skipBlanks rest with
    | '\x7d' :: after => some (obj [], after)
    | first => (members fuel [] first).map fun (ms, after) => (obj ms, after)
  | _ + 1, s => leafValue s

def items : Nat → List Char → Option (List Json × List Char)
  | 0, _ => none
  | fuel + 1, s =>
    match value fuel s with
    | none => none
    | some (first, rest) =>
      match skipBlanks rest with
      | ']' :: after => some ([first], after)
      | ',' :: more =>
        match items fuel (skipBlanks more) with
        | some (others, after) => some (first :: others, after)
        | none => none
      | _ => none

/-- The members of an object up to its end, after those read before. -/
def members : Nat → List (String × Json) → List Char → Option (List (String × Json) × List Char)
  | 0, _, _ => none
  | fuel + 1, before, '"' :: s =>
    match stringRest s with
    | none => none
    | some (name, rest) =>
      match skipBlanks rest with
      | ':' :: rest =>
        match value fuel (skipBlanks rest) with
        | none => none
        | some (v, rest) =>
          let sofar := put (String.ofList name) v before
          match skipBlanks rest with
          | '\x7d' :: after => some (sofar, after)
          | ',' :: more => members fuel sofar (skipBlanks more)
          | _ => none
      | _ => none
  | _ + 1, _, _ => none

end

/-- The value that a whole text spells. -/
def read? (s : List Char) : Option Json :=
  match value (2 * s.length + 2) (skipBlanks s) with
  | some (j, rest) => if (skipBlanks rest).isEmpty then some j else none
  | none => none

end ContainerAudit.Json
