/-!
# Searching and splitting

Occurrences of one text in another, and splitting at a character.
-/

namespace ContainerAudit.Text

/-- Whether `part` occurs in the text as a block of neighbouring characters. -/
def hasPart (part : List Char) : List Char → Bool
  | [] => part.isEmpty
  | c :: rest => part.isPrefixOf (c :: rest) || hasPart part rest

/-- The pieces between the occurrences of `sep`; there is always one piece more than there are
occurrences. -/
def splitAt (sep : Char) : List Char → List (List Char)
  | [] => [[]]
  | c :: rest =>
    if c = sep then [] :: splitAt sep rest
    else
      match splitAt sep rest with
      | [] => [[c]]
      | p :: ps => (c :: p) :: ps

/-- The text before the first `sep` and the text after it, if there is a `sep`. -/
def cutFirst (sep : Char) : List Char → Option (List Char × List Char)
  | [] => none
  | c :: rest =>
    if c = sep then some ([], rest)
    else (cutFirst sep rest).map fun (before, after) => (c :: before, after)

/-- The text before the last `sep` and the text after it, if there is a `sep`. -/
def cutLast (sep : Char) : List Char → Option (List Char × List Char)
  | [] => none
  | c :: rest =>
    match cutLast sep rest with
    | some (before, after) => some (c :: before, after)
    | none => if c = sep then some ([], rest) else none

/-- The text with every occurrence of `c` left out. -/
def without (c : Char) (s : List Char) : List Char :=
  s.filter (· != c)

/-- The text after the last `/`, or the whole text if it has none. -/
def afterLastSlash (s : List Char) : List Char :=
  match cutLast '/' s with
  | some (_, after) => after
  | none => s

end ContainerAudit.Text
