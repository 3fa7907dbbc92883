import ContainerAudit.Text.Utf8

/-!
# UTF-8 in blocks

A file is turned into text block by block, as characters are asked for. A flaw is met with the
block that holds the byte which shows it, and the text of the blocks before is not affected. A
character that is not complete at the end of a block, and a carriage return there, wait for the next
one.
-/

namespace ContainerAudit.Text

/-- The characters before the first flaw; `skip` bytes of the last one are still to be passed. -/
def soundFrom : Nat → List Nat → List Char
  | _, [] => []
  | skip + 1, _ :: rest => soundFrom skip rest
  | 0, b :: rest =>
    match frontChar b rest with
    | .ok (c, extra) => c :: soundFrom extra rest
    | .error _ => []

/-- The text of the first `size` bytes, as far as no later byte can change it. -/
def firstText (bytes : List Nat) (size : Nat) : List Char :=
  let chars := soundFrom 0 (bytes.take size)
  unifyLineEnds (if chars.getLast? = some '\r' then chars.dropLast else chars)

/-- Characters are asked for in portions of this number. -/
def portionSize : Nat := 4096

/-- The least number of bytes of a block. -/
def leastBlock : Nat := 8192

/-- The number of bytes of the next block: enough for `wanted` characters if they are as wide as
those of the last block, whose `bytes` gave `chars` characters. -/
def blockSize (bytes chars wanted : Nat) : Nat :=
  if chars = 0 then leastBlock
  else
    let width := Float.ofNat bytes / Float.ofNat chars
    max leastBlock (width * Float.ofNat wanted).toUInt64.toNat

/-- A block of bytes: where it starts and stops, and the number of characters before it. -/
structure Block where
  start : Nat
  stop : Nat
  sofar : Nat

namespace Block

def first (data : List Nat) : Block :=
  ⟨0, min leastBlock data.length, 0⟩

/-- The block after a block. It is empty at the end of the data. -/
def next (data : List Nat) (b : Block) : Block :=
  let sofar := (firstText data b.stop).length
  let size := blockSize (b.stop - b.start) (sofar - b.sofar) (portionSize - sofar % portionSize)
  ⟨b.stop, min (b.stop + size) data.length, sofar⟩

/-- The block that holds the byte with a number, from a block on. -/
def holding (data : List Nat) (number : Nat) (b : Block) : Block :=
  if b.start < b.stop ∧ b.stop ≤ number then holding data number (b.next data) else b
termination_by number - b.start
decreasing_by simp only [next]; omega

end Block

/-- The bytes start as half of a surrogate pair would be written. -/
def startsSurrogate : List Nat → Bool
  | first :: second :: _ => first == 0xed && 0xa0 ≤ second && second ≤ 0xbf
  | _ => false

/-- The number of the byte that shows a flaw at a position; the end of the data shows that bytes are
missing. Half of a surrogate pair is not taken for a flaw before its third byte. -/
def shownAt (data : List Nat) (position : Nat) (flaw : Utf8Flaw) : Nat :=
  match flaw.reason with
  | .badStart => position
  | .badContinuation | .endOfData =>
    position + flaw.extra + (if startsSurrogate (data.drop position) then 2 else 1)

/-- The text of the blocks before the one that shows a flaw at a position. -/
def textBefore (data : List Nat) (position : Nat) (flaw : Utf8Flaw) : List Char :=
  firstText data (Block.holding data (shownAt data position flaw) (.first data)).start

end ContainerAudit.Text
