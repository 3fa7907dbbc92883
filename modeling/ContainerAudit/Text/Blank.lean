/-!
# Blanks, words and lines

Which characters are blank, which of them end a line, and the three ways of cutting a text at
them: trimming its ends, splitting it into words, splitting it into lines.
-/

namespace ContainerAudit.Text

/-- The blank characters: the white space of Unicode together with the four separators
U+001C to U+001F. -/
def isBlank (c : Char) : Bool :=
  let n := c.toNat
  n == 0x20 || (0x09 ≤ n && n ≤ 0x0d) || (0x1c ≤ n && n ≤ 0x1f) || n == 0x85 || n == 0xa0 ||
    n == 0x1680 || (0x2000 ≤ n && n ≤ 0x200a) || n == 0x2028 || n == 0x2029 || n == 0x202f ||
    n == 0x205f || n == 0x3000

/-- The characters that end a line. A carriage return with a line feed after it is one end. -/
def isLineEnd (c : Char) : Bool :=
  let n := c.toNat
  (0x0a ≤ n && n ≤ 0x0d) || (0x1c ≤ n && n ≤ 0x1e) || n == 0x85 || n == 0x2028 || n == 0x2029

/-- Every line end is blank, so trimming a line never depends on how it ended. -/
theorem isBlank_of_isLineEnd {c : Char} (h : isLineEnd c = true) : isBlank c = true := by
  simp only [isLineEnd, isBlank, Bool.or_eq_true, Bool.and_eq_true, decide_eq_true_eq,
    beq_iff_eq] at h ⊢
  omega

def trimStart (s : List Char) : List Char :=
  s.dropWhile isBlank

def trimEnd (s : List Char) : List Char :=
  (s.reverse.dropWhile isBlank).reverse

def trim (s : List Char) : List Char :=
  trimEnd (trimStart s)

/-- No character, or blanks only. -/
def isBlankText (s : List Char) : Bool :=
  s.all isBlank

/-- The maximal runs of characters that are not blank, in order. -/
def words : List Char → List (List Char)
  | [] => []
  | c :: rest =>
    if isBlank c then words rest
    else
      match rest, words rest with
      | d :: _, w :: ws => if isBlank d then [c] :: w :: ws else (c :: w) :: ws
      | _, ws => [c] :: ws

/-- The lines of a text, without their ends. A text that ends with a line end has no empty line
after it. -/
def lines : List Char → List (List Char)
  | [] => []
  | '\r' :: '\n' :: rest => [] :: lines rest
  | c :: rest =>
    if isLineEnd c then [] :: lines rest
    else
      match lines rest with
      | [] => [[c]]
      | l :: ls => (c :: l) :: ls

/-- Lists joined with a separator between neighbours. -/
def joinWith (separator : List Char) : List (List Char) → List Char
  | [] => []
  | [s] => s
  | s :: t :: rest => s ++ separator ++ joinWith separator (t :: rest)

/-- The words of a text with one space between neighbours. -/
def squeeze (s : List Char) : List Char :=
  joinWith [' '] (words s)

/-- A function on characters, applied to a text. -/
def mapChars (f : List Char → List Char) (s : String) : String :=
  String.ofList (f s.toList)

end ContainerAudit.Text
