import ContainerAudit.Calendar
import ContainerAudit.Decimal.Numeral
import ContainerAudit.Text.LetterCase
import ContainerAudit.Value
import ContainerAudit.Yaml.Error
import ContainerAudit.Yaml.Tag

/-!
# Scalar values

The values that the texts of scalars stand for, by the kind that their tag gives them.
-/

namespace ContainerAudit.Yaml

open ContainerAudit.Decimal (int? float? nearest tooLarge)
open ContainerAudit.Text (lower splitAt without)

def mismatch {α : Type} (kind : Mismatch) : Except Error α :=
  .error (.mismatch kind)

/-- The value, or a failure of conversion where there is none. -/
def orMismatch {α : Type} (kind : Mismatch) : Option α → Except Error α
  | some a => .ok a
  | none => mismatch kind

/-- A truth value, by its word in any case. -/
def boolOf (s : List Char) : Except Error Bool :=
  match String.ofList (lower s) with
  | "yes" | "true" | "on" => .ok true
  | "no" | "false" | "off" => .ok false
  | _ => mismatch .truthValue

/-! ## Numbers -/

/-- The number whose digits in base sixty are given, the least significant last. -/
def sixtieths (digits : List Int) : Int :=
  digits.foldl (fun value d => value * 60 + d) 0

/-- A whole number without its sign and low lines. -/
def unsignedInt (s : List Char) : Except Error Int :=
  match s with
  | [] => mismatch .emptyNumber
  | ['0'] => .ok 0
  | '0' :: 'b' :: digits => orMismatch .number (int? 2 digits)
  | '0' :: 'x' :: digits => orMismatch .number (int? 16 digits)
  | '0' :: rest => orMismatch .number (int? 8 ('0' :: rest))
  | s =>
    if s.contains ':' then
      (orMismatch .number ((splitAt ':' s).mapM (int? 10))).map sixtieths
    else orMismatch .number (int? 10 s)

/-- A whole number: binary after `0b`, octal after `0`, hexadecimal after `0x`, else decimal or in
base sixty. -/
def intOf (s : List Char) : Except Error Int :=
  match without '_' s with
  | [] => mismatch .emptyNumber
  | '-' :: rest => (unsignedInt rest).map (- ·)
  | '+' :: rest => unsignedInt rest
  | s => unsignedInt s

/-- The fraction whose digits in base sixty are given, the least significant first, after those read
before. Each counts for a power of sixty, which a fraction must be able to hold. -/
def floatSixtieths : Float → Nat → List Float → Except Error Float
  | value, _, [] => .ok value
  | value, power, d :: rest =>
    if tooLarge ≤ power then mismatch .hugePower
    else floatSixtieths (value + d * nearest power 0) (power * 60) rest

/-- A fraction without its sign and low lines, in small letters. -/
def unsignedFloat (s : List Char) : Except Error Float :=
  match String.ofList s with
  | ".inf" => .ok (1.0 / 0.0)
  | ".nan" => .ok (0.0 / 0.0)
  | _ =>
    if s.contains ':' then do
      let digits ← orMismatch .number ((splitAt ':' s).mapM float?)
      floatSixtieths 0.0 1 digits.reverse
    else orMismatch .number (float? s)

def floatOf (s : List Char) : Except Error Float :=
  match lower (without '_' s) with
  | [] => mismatch .emptyNumber
  | '-' :: rest => (unsignedFloat rest).map (- ·)
  | '+' :: rest => unsignedFloat rest
  | s => unsignedFloat s

/-! ## Days and moments -/

/-- A decimal number of at least `least` and at most `most` digits at the front. -/
def takeNumber? (least most : Nat) (s : List Char) : Option (Nat × List Char) :=
  let (n, after) := digitsUpTo most s
  if least ≤ n then
    some ((s.take n).foldl (fun value c => value * 10 + (c.toNat - 48)) 0, after)
  else none

/-- The text after a character at the front. -/
def takeChar? (c : Char) : List Char → Option (List Char)
  | d :: rest => if c = d then some rest else none
  | [] => none

/-- The six digits of a fraction of a second. -/
def microseconds (digits : List Char) : Nat :=
  ((digits ++ List.replicate 6 '0').take 6).foldl (fun value c => value * 10 + (c.toNat - 48)) 0

/-- An offset in minutes, or none, up to the end of the text. -/
def takeOffset? (s : List Char) : Option (Option Int) :=
  match s with
  | [] => some none
  | s =>
    match s.dropWhile fun c => c = ' ' || c = '\t' with
    | ['Z'] => some (some 0)
    | sign :: rest =>
      if sign = '-' || sign = '+' then do
        let (hours, rest) ← takeNumber? 1 2 rest
        let minutes ← match rest with
          | [] => some 0
          | rest => do
            let (minutes, rest) ← takeNumber? 2 2 (← takeChar? ':' rest)
            if rest.isEmpty then some minutes else none
        let offset : Int := hours * 60 + minutes
        return some (if sign = '-' then -offset else offset)
      else none
    | [] => none

/-- A time of day up to the end of the text: on a day, with its fraction and offset. -/
def takeClock? (date : Date) (s : List Char) : Option Moment := do
  let (hour, s) ← takeNumber? 1 2 s
  let (minute, s) ← takeNumber? 2 2 (← takeChar? ':' s)
  let (second, s) ← takeNumber? 2 2 (← takeChar? ':' s)
  let (fraction, s) := match s with
    | '.' :: rest => (rest.takeWhile Char.isDigit, rest.dropWhile Char.isDigit)
    | s => ([], s)
  let offset ← takeOffset? s
  return ⟨date, hour, minute, second, microseconds fraction, offset⟩

/-- A day, or a moment, whether in the calendar or not. -/
def timestamp? (s : List Char) : Option Value := do
  let (year, s) ← takeNumber? 4 4 s
  let (month, s) ← takeNumber? 1 2 (← takeChar? '-' s)
  let (day, s) ← takeNumber? 1 2 (← takeChar? '-' s)
  let date : Date := ⟨year, month, day⟩
  match s with
  | [] => return .date date
  | c :: rest =>
    if c = 'T' || c = 't' then return .moment (← takeClock? date rest)
    else if c = ' ' || c = '\t' then
      return .moment (← takeClock? date (rest.dropWhile fun c => c = ' ' || c = '\t'))
    else none

/-- A day or a moment of the calendar. -/
def timestampOf (s : List Char) : Except Error Value := do
  match ← orMismatch .timestamp (timestamp? (dropLineFeed s)) with
  | .date d => if d.isValid then return .date d else mismatch .date
  | .moment m => if m.isValid then return .moment m else mismatch .date
  | v => return v

/-! ## Binary data -/

/-- The value of a base64 digit. -/
def base64Digit? (c : Char) : Option Nat :=
  if c.isUpper then some (c.toNat - 65)
  else if c.isLower then some (c.toNat - 71)
  else if c.isDigit then some (c.toNat + 4)
  else if c = '+' then some 62
  else if c = '/' then some 63
  else none

/-- Where decoding stands: how many digits of a group of four have come, the bits left over from
them, and the padding marks since. -/
structure Base64State where
  digits : Nat
  left : Nat
  pads : Nat

/-- Decode base64 data. Characters that are no digits are passed over, and padding that completes a
group ends the data; the result is the bytes and the number of digits of a group left open. -/
def base64From : Base64State → List Char → List Nat × Nat
  | st, [] => ([], st.digits)
  | st, c :: rest =>
    if c = '=' then
      if 2 ≤ st.digits && 4 ≤ st.digits + st.pads + 1 then ([], 0)
      else base64From { st with pads := if 2 ≤ st.digits then st.pads + 1 else st.pads } rest
    else
      match base64Digit? c with
      | none => base64From st rest
      | some d =>
        match st.digits with
        | 0 => base64From ⟨1, d, 0⟩ rest
        | 1 => let (bytes, open') := base64From ⟨2, d % 16, 0⟩ rest
          ((st.left * 4 + d / 16) :: bytes, open')
        | 2 => let (bytes, open') := base64From ⟨3, d % 4, 0⟩ rest
          ((st.left * 16 + d / 4) :: bytes, open')
        | _ => let (bytes, open') := base64From ⟨0, 0, 0⟩ rest
          ((st.left * 64 + d) :: bytes, open')

def binaryOf (mark : Mark) (s : List Char) : Except Error (List Nat) :=
  if s.any (128 ≤ ·.toNat) then .error (.at (.notAscii s) mark)
  else
    match base64From ⟨0, 0, 0⟩ s with
    | (bytes, 0) => .ok bytes
    | (bytes, 1) => .error (.at (.base64Length (bytes.length / 3 * 4 + 1)) mark)
    | _ => .error (.at .base64Padding mark)

end ContainerAudit.Yaml
