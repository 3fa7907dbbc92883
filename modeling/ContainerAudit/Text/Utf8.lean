/-!
# UTF-8

Reading bytes as text. A flaw is the longest start of a character that no further byte can
complete; lenient reading puts one replacement character in its place, strict reading stops.
-/

namespace ContainerAudit.Text

/-- Why bytes are not a character. -/
inductive Utf8Reason where
  | badStart
  | badContinuation
  | endOfData
  deriving DecidableEq, Repr

/-- A flaw: the reason and the number of bytes it takes up, at least one. -/
structure Utf8Flaw where
  reason : Utf8Reason
  extra : Nat
  deriving DecidableEq, Repr

/-- What a first byte announces: the number of bytes to follow, its share of the code point, and
the least and greatest byte that may follow it. -/
def announces (b : Nat) : Option (Nat × Nat × Nat × Nat) :=
  if b ≤ 0x7f then some (0, b, 0, 0)
  else if 0xc2 ≤ b && b ≤ 0xdf then some (1, b - 0xc0, 0x80, 0xbf)
  else if b == 0xe0 then some (2, 0, 0xa0, 0xbf)
  else if b == 0xed then some (2, 0xd, 0x80, 0x9f)
  else if 0xe1 ≤ b && b ≤ 0xef then some (2, b - 0xe0, 0x80, 0xbf)
  else if b == 0xf0 then some (3, 0, 0x90, 0xbf)
  else if 0xf1 ≤ b && b ≤ 0xf3 then some (3, b - 0xf0, 0x80, 0xbf)
  else if b == 0xf4 then some (3, 4, 0x80, 0x8f)
  else none

/-- Read `owed` more bytes of a character, the next of them between `low` and `high`; `taken`
counts the bytes after the first. -/
def continueChar (taken : Nat) (low high : Nat) (code : Nat) :
    Nat → List Nat → Except Utf8Flaw Char
  | 0, _ => .ok (Char.ofNat code)
  | _ + 1, [] => .error ⟨.endOfData, taken⟩
  | owed + 1, b :: rest =>
    if low ≤ b && b ≤ high then
      continueChar (taken + 1) 0x80 0xbf (code * 64 + (b - 0x80)) owed rest
    else .error ⟨.badContinuation, taken⟩

/-- The character at the front of the bytes, with the number of bytes after its first, or the flaw
there. -/
def frontChar (b : Nat) (rest : List Nat) : Except Utf8Flaw (Char × Nat) :=
  match announces b with
  | none => .error ⟨.badStart, 0⟩
  | some (owed, code, low, high) =>
    (continueChar 0 low high code owed rest).map fun c => (c, owed)

/-- Lenient reading; `skip` bytes of the character or flaw just read are still to be passed. -/
def decodeLossyFrom : Nat → List Nat → List Char
  | _, [] => []
  | skip + 1, _ :: rest => decodeLossyFrom skip rest
  | 0, b :: rest =>
    match frontChar b rest with
    | .ok (c, extra) => c :: decodeLossyFrom extra rest
    | .error flaw => Char.ofNat 0xfffd :: decodeLossyFrom flaw.extra rest

/-- Bytes as text, with one replacement character for each flaw. -/
def decodeLossy (bytes : List Nat) : List Char :=
  decodeLossyFrom 0 bytes

/-- Strict reading from a position on. -/
def decodeStrictFrom (position : Nat) : Nat → List Nat → Except (Nat × Utf8Flaw) (List Char)
  | _, [] => .ok []
  | skip + 1, _ :: rest => decodeStrictFrom (position + 1) skip rest
  | 0, b :: rest =>
    match frontChar b rest with
    | .ok (c, extra) => (decodeStrictFrom (position + 1) extra rest).map (c :: ·)
    | .error flaw => .error (position, flaw)

/-- Bytes as text, or the position and kind of the first flaw. -/
def decodeStrict (bytes : List Nat) : Except (Nat × Utf8Flaw) (List Char) :=
  decodeStrictFrom 0 0 bytes

/-- Carriage returns, alone or before a line feed, become line feeds. -/
def unifyLineEnds : List Char → List Char
  | [] => []
  | '\r' :: '\n' :: rest => '\n' :: unifyLineEnds rest
  | '\r' :: rest => '\n' :: unifyLineEnds rest
  | c :: rest => c :: unifyLineEnds rest

end ContainerAudit.Text
