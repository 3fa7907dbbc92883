import ContainerAudit.Decimal.Shortest
import ContainerAudit.Text.Blank

/-!
# Reading numerals

Whole numbers in a base between 2 and 36 and decimal fractions, with any decimal digits of Unicode
and blanks around the numeral. The separators U+001C to U+001F are no blanks here.
-/

namespace ContainerAudit.Decimal

open ContainerAudit.Text

/-- The zeros of the decimal digits beyond ASCII; the other nine follow each of them. -/
def digitZeros : List Nat :=
  [0x660, 0x6f0, 0x7c0, 0x966, 0x9e6, 0xa66, 0xae6, 0xb66, 0xbe6, 0xc66, 0xce6, 0xd66, 0xde6,
   0xe50, 0xed0, 0xf20, 0x1040, 0x1090, 0x17e0, 0x1810, 0x1946, 0x19d0, 0x1a80, 0x1a90, 0x1b50,
   0x1bb0, 0x1c40, 0x1c50, 0xa620, 0xa8d0, 0xa900, 0xa9d0, 0xa9f0, 0xaa50, 0xabf0, 0xff10, 0x104a0,
   0x10d30, 0x11066, 0x110f0, 0x11136, 0x111d0, 0x112f0, 0x11450, 0x114d0, 0x11650, 0x116c0,
   0x11730, 0x118e0, 0x11950, 0x11c50, 0x11d50, 0x11da0, 0x16a60, 0x16ac0, 0x16b50, 0x1d7ce,
   0x1d7d8, 0x1d7e2, 0x1d7ec, 0x1d7f6, 0x1e140, 0x1e2f0, 0x1e950, 0x1fbf0]

def decimalDigit? (c : Char) : Option Nat :=
  if c.isDigit then some (c.toNat - 48)
  else if c.toNat < 128 then none
  else (digitZeros.find? fun start => start ≤ c.toNat && c.toNat < start + 10).map (c.toNat - ·)

/-- The value of a digit or letter as a digit. -/
def digit? (c : Char) : Option Nat :=
  if c.isLower then some (c.toNat - 87)
  else if c.isUpper then some (c.toNat - 55)
  else decimalDigit? c

/-- The number that digits spell in a base, after the number read before them. -/
def natFrom (base : Nat) (value : Nat) : List Char → Option Nat
  | [] => some value
  | c :: rest =>
    match digit? c with
    | some d => if d < base then natFrom base (value * base + d) rest else none
    | none => none

/-- A decimal numeral may have this many digits. -/
def digitLimit : Nat := 4300

/-- The least number with more digits than that. -/
def tooLong : Nat := tenTo digitLimit

/-- The number that a non-empty run of digits spells in a base. -/
def nat? (base : Nat) (s : List Char) : Option Nat :=
  if s.isEmpty || (base == 10 && digitLimit < s.length) then none else natFrom base 0 s

/-- A sign and the text after it; no sign is a plus. -/
def takeSign : List Char → Bool × List Char
  | '-' :: rest => (true, rest)
  | '+' :: rest => (false, rest)
  | s => (false, s)

/-- The letter that announces a base after a zero. -/
def baseLetter (base : Nat) : Option Char :=
  if base = 2 then some 'b' else if base = 8 then some 'o' else if base = 16 then some 'x' else none

/-- Drop the zero and letter that announce the base. -/
def dropBaseMark (base : Nat) : List Char → List Char
  | '0' :: c :: rest => if some c.toLower = baseLetter base then rest else '0' :: c :: rest
  | s => s

/-- The blanks that may stand around a numeral. -/
def isMargin (c : Char) : Bool :=
  isBlank c && !(0x1c ≤ c.toNat && c.toNat ≤ 0x1f)

/-- Drop what may stand around a numeral. -/
def trimMargins (s : List Char) : List Char :=
  ((s.dropWhile isMargin).reverse.dropWhile isMargin).reverse

/-- The number written in a base, with blanks around it, a sign, and a mark of the base allowed. -/
def int? (base : Nat) (s : List Char) : Option Int :=
  let (negative, digits) := takeSign (trimMargins s)
  (nat? base (dropBaseMark base digits)).map fun n => if negative then -(n : Int) else n

/-- The binary number nearest to `digits` times a power of ten. Beyond a few hundred places the
result is infinite or zero whatever the digits are. -/
def nearest (digits : Nat) (exponent : Int) : Float :=
  let size := ((Nat.toDigits 10 digits).length : Int) + exponent
  if digits = 0 || size < -400 then 0.0
  else if 400 < size then 1.0 / 0.0
  else if exponent < 0 then Float.ofScientific digits true exponent.natAbs
  else Float.ofScientific digits false exponent.natAbs

/-- The least whole number that is nearer to two to the power of 1024 than to any fraction, or as
near: a fraction cannot hold it. -/
def tooLarge : Nat := twoTo 1024 - twoTo 970

/-- The decimal digits at the front, as their values, and the text after them. -/
def takeDigits : List Char → List Nat × List Char
  | [] => ([], [])
  | c :: rest =>
    match decimalDigit? c with
    | some d => let (ds, after) := takeDigits rest; (d :: ds, after)
    | none => ([], c :: rest)

def natOfDigits (ds : List Nat) : Nat :=
  ds.foldl (fun value d => value * 10 + d) 0

/-- An exponent, if the whole text is one. -/
def exponent? : List Char → Option Int
  | [] => some 0
  | c :: rest =>
    if c = 'e' ∨ c = 'E' then
      let (negative, digits) := takeSign rest
      let (ds, after) := takeDigits digits
      if ds.isEmpty || !after.isEmpty then none
      else some (if negative then -(natOfDigits ds : Int) else natOfDigits ds)
    else none

/-- A number without a sign: digits with an optional point and exponent, or a word for the infinite
or the undefined. -/
def unsignedFloat? (s : List Char) : Option Float :=
  let word := String.ofList (s.map Char.toLower)
  if word = "inf" || word = "infinity" then some (1.0 / 0.0)
  else if word = "nan" then some (0.0 / 0.0)
  else
    let (whole, rest) := takeDigits s
    let (fraction, rest) := match rest with
      | '.' :: after => takeDigits after
      | rest => ([], rest)
    if whole.isEmpty && fraction.isEmpty then none
    else
      (exponent? rest).map fun e => nearest (natOfDigits (whole ++ fraction)) (e - fraction.length)

/-- The number that a text spells, with blanks around it and a sign allowed. -/
def float? (s : List Char) : Option Float :=
  let (negative, rest) := takeSign (trimMargins s)
  (unsignedFloat? rest).map fun x => if negative then -x else x

end ContainerAudit.Decimal
