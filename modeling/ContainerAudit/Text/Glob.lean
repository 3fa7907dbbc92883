/-!
# File name patterns

Shell patterns over a whole name: `*` is any text, `?` any one character, `[...]` one character of
a set and `[!...]` one character outside it. A bracket that is never closed stands for itself.
-/

namespace ContainerAudit.Text

/-- A set of characters between brackets: its pieces are joined by ranges, from the last character
of a piece to the first of the next. -/
structure CharSet where
  negated : Bool
  pieces : List (List Char)
  deriving DecidableEq, Repr

/-- One element of a pattern. -/
inductive GlobItem where
  | literal (c : Char)
  | anyChar
  | anyText
  | oneOf (set : CharSet)
  deriving DecidableEq, Repr

/-- The character is written out in a piece or lies in the range between two neighbours. -/
def CharSet.listed (c : Char) : List (List Char) → Bool
  | [] => false
  | [piece] => piece.contains c
  | piece :: next :: rest =>
    piece.contains c ||
      (match piece.getLast?, next.head? with
        | some low, some high => low ≤ c && c ≤ high
        | _, _ => false) ||
      CharSet.listed c (next :: rest)

/-- The set holds the character. A set with no character at all holds none, negated or not being
decided before. -/
def CharSet.holds (set : CharSet) (c : Char) : Bool :=
  CharSet.listed c set.pieces != set.negated

/-- The text between the brackets cut at those hyphens that make a range: the first may not come
before `skip` characters, and the next not before two characters after a range. -/
def rangePieces (skip : Nat) (piece : List Char) : List Char → List (List Char)
  | [] => [piece.reverse]
  | c :: rest =>
    match skip with
    | skip + 1 => rangePieces skip (c :: piece) rest
    | 0 => if c = '-' then piece.reverse :: rangePieces 2 [] rest
           else rangePieces 0 (c :: piece) rest

/-- A last piece without characters is the hyphen before it. -/
def closePieces : List (List Char) → List (List Char)
  | [] => []
  | [piece] => [piece]
  | [piece, []] => [piece ++ ['-']]
  | piece :: next :: rest => piece :: closePieces (next :: rest)

/-- Ranges that run backwards are dropped with both their ends, from the right. -/
def dropBackward : List (List Char) → List (List Char)
  | [] => []
  | piece :: rest =>
    match dropBackward rest with
    | [] => [piece]
    | next :: others =>
      match piece.getLast?, next.head? with
      | some low, some high =>
        if high < low then (piece.dropLast ++ next.tail) :: others else piece :: next :: others
      | _, _ => piece :: next :: others

/-- The item written between brackets. An empty set matches nothing, a negated empty set any
character. -/
def bracketItem (body : List Char) : GlobItem :=
  let first := if body.head? = some '!' then 2 else 1
  match dropBackward (closePieces (rangePieces first [] body)) with
  | ('!' :: piece) :: rest => if piece.isEmpty && rest.isEmpty then .anyChar
      else .oneOf ⟨true, piece :: rest⟩
  | pieces => .oneOf ⟨false, pieces⟩

/-- The text up to the bracket that closes a set and the text after it. The set's first character,
or the first after `!`, does not close it. -/
def bracketBody (s : List Char) : Option (List Char × List Char) :=
  let head := match s with
    | '!' :: ']' :: _ => 2
    | '!' :: _ => 1
    | ']' :: _ => 1
    | _ => 0
  let tail := s.drop head
  if tail.contains ']' then
    some (s.take head ++ tail.takeWhile (· != ']'), (tail.dropWhile (· != ']')).drop 1)
  else none

/-- The elements of a pattern; each round of the recursion takes at least one character. -/
def globItemsFrom : Nat → List Char → List GlobItem
  | 0, _ => []
  | _, [] => []
  | fuel + 1, '*' :: rest => .anyText :: globItemsFrom fuel rest
  | fuel + 1, '?' :: rest => .anyChar :: globItemsFrom fuel rest
  | fuel + 1, '[' :: rest =>
    match bracketBody rest with
    | some (body, after) => bracketItem body :: globItemsFrom fuel after
    | none => .literal '[' :: globItemsFrom fuel rest
  | fuel + 1, c :: rest => .literal c :: globItemsFrom fuel rest

def globItems (pattern : List Char) : List GlobItem :=
  globItemsFrom pattern.length pattern

/-- The item accepts the character. -/
def GlobItem.accepts (c : Char) : GlobItem → Bool
  | .literal d => c = d
  | .anyChar => true
  | .anyText => true
  | .oneOf set => set.holds c

/-- Each mark is carried back to all places before it. -/
def carryBack (marks : List Bool) : List Bool :=
  marks.foldr (fun mark rest => (mark || rest.headD false) :: rest) []

/-- For each ending of the text, from the whole text down to the empty one, whether the items match
it. -/
def matchedEndings : List GlobItem → List Char → List Bool
  | [], s => s.map (fun _ => false) ++ [true]
  | .anyText :: items, s => carryBack (matchedEndings items s)
  | item :: items, s =>
    List.zipWith (fun c mark => item.accepts c && mark) s (matchedEndings items s).tail ++ [false]

/-- The items match the whole text. -/
def matchItems (items : List GlobItem) (s : List Char) : Bool :=
  (matchedEndings items s).headD false

/-- The pattern matches the whole name. -/
def globMatches (pattern name : List Char) : Bool :=
  matchItems (globItems pattern) name

end ContainerAudit.Text
