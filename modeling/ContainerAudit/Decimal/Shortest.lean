/-!
# Shortest decimals

The text of a binary fraction: the fewest digits that read back as the same number, and of those
the nearest to it. Exponents from -4 to 15 are written positionally, with at least one digit on
each side of the point.
-/

namespace ContainerAudit.Decimal

def twoTo (n : Nat) : Nat := Nat.pow 2 n

def tenTo (n : Nat) : Nat := Nat.pow 10 n

/-- A positive binary number `mantissa · 2 ^ exponent`; `narrow` says that the gap to the number
below is half of the gap above. -/
structure Binary where
  mantissa : Nat
  exponent : Int
  narrow : Bool
  deriving DecidableEq, Repr

/-- The parts of a finite positive number. -/
def Binary.ofBits (bits : Nat) : Binary :=
  let fraction := bits % twoTo 52
  let scale : Nat := bits / twoTo 52 % twoTo 11
  if scale = 0 then ⟨fraction, -1074, false⟩
  else ⟨twoTo 52 + fraction, Int.ofNat scale - 1075, fraction = 0 && 1 < scale⟩

/-- A quarter of the mantissa's unit as a quotient: the power of two to multiply by, or to divide
by. -/
def Binary.quarter (b : Binary) : Nat × Nat :=
  let e := b.exponent - 2
  if 0 ≤ e then (twoTo e.toNat, 1) else (1, twoTo e.natAbs)

/-- The power of ten of the leading digit of `a / b`. -/
def magnitude (a b : Nat) : Int :=
  if b ≤ a then Int.ofNat ((Nat.toDigits 10 (a / b)).length - 1)
  else
    let t := (Nat.toDigits 10 (b / a)).length
    if b ≤ a * tenTo (t - 1) then -Int.ofNat (t - 1) else -Int.ofNat t

/-- The multiple of `10 ^ power` nearest to the number among those that read back as it, if there
is one; the result is the multiplier. -/
def Binary.onGrid (b : Binary) (power : Int) : Option Nat :=
  let (up, down) := b.quarter
  -- everything in quarters of the mantissa's unit, over the common denominator
  let unit := if 0 ≤ power then down * tenTo power.toNat else down
  let scale := if 0 ≤ power then up else up * tenTo power.natAbs
  let value := 4 * b.mantissa * scale
  let low := (4 * b.mantissa - if b.narrow then 1 else 2) * scale
  let high := (4 * b.mantissa + 2) * scale
  let closed := b.mantissa % 2 = 0
  let inside := fun n => if closed then low ≤ n * unit ∧ n * unit ≤ high
    else low < n * unit ∧ n * unit < high
  let below := value / unit
  let above := below + 1
  if inside below ∧ inside above then
    let downGap := value - below * unit
    let upGap := above * unit - value
    if downGap < upGap ∨ (downGap = upGap ∧ below % 2 = 0) then some below else some above
  else if inside below then some below
  else if inside above then some above
  else none

/-- The first grid, from coarse to fine, that has a decimal reading back as the number. -/
def Binary.search (b : Binary) (leading : Int) : Nat → Nat → Nat × Int
  | 0, digits => (0, leading - Int.ofNat digits)
  | fuel + 1, digits =>
    let power := leading - Int.ofNat digits
    match b.onGrid power with
    | some n => (n, power)
    | none => b.search leading fuel (digits + 1)

/-- The shortest decimal `n · 10 ^ e` that reads back as the number. -/
def Binary.shortest (b : Binary) : Nat × Int :=
  let (up, down) := b.quarter
  b.search (magnitude (4 * b.mantissa * up) down) 18 0

/-- Digits without the zeros at their end. -/
def dropZeros (digits : List Char) : List Char :=
  (digits.reverse.dropWhile (· == '0')).reverse

/-- Decimal digits with their leading digit at the power `leading` of ten. -/
def layout (digits : List Char) (leading : Int) : List Char :=
  if -4 ≤ leading ∧ leading < 16 then
    if leading < 0 then
      '0' :: '.' :: List.replicate (leading.natAbs - 1) '0' ++ digits
    else
      let whole := leading.toNat + 1
      let padded := digits ++ List.replicate (whole - digits.length) '0'
      let fraction := padded.drop whole
      padded.take whole ++ '.' :: if fraction.isEmpty then ['0'] else fraction
  else
    let power := Nat.toDigits 10 leading.natAbs
    let mantissa := match digits with
      | [d] => [d]
      | d :: rest => d :: '.' :: rest
      | [] => []
    mantissa ++ 'e' :: (if leading < 0 then '-' else '+') ::
      List.replicate (2 - power.length) '0' ++ power

def text (x : Float) : String :=
  if x.isNaN then "nan"
  else
    let bits := x.toBits.toNat
    let sign := if twoTo 63 ≤ bits then "-" else ""
    if x.isInf then sign ++ "inf"
    else
      let b := Binary.ofBits (bits % twoTo 63)
      if b.mantissa = 0 then sign ++ "0.0"
      else
        let (n, power) := b.shortest
        let digits := Nat.toDigits 10 n
        sign ++ String.ofList (layout (dropZeros digits) (power + Int.ofNat digits.length - 1))

end ContainerAudit.Decimal
